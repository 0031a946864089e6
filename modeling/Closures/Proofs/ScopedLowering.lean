import Mathlib
import Closures.Proofs.AdapterMethods
import Closures.Proofs.UnitLowering

/-!
# Lowering keeps scoping

If every local of a unit is declared once and every use of a local is bound,
then the same holds after lowering, and the adapters are closed
(`lower_scoped`).

The argument goes along the tree, with the locals that are visible at each
point. **Fresh** locals are what makes it work (`Scope.Fresh`): what is declared
inside a lambda is not visible around it, so the analysis, which only asks
whether a local is declared somewhere inside, never takes an outer local for an
inner one.
-/

set_option autoImplicit false

namespace Closures

open Lowering (declares Scope.enter)

/-! ## Fresh locals -/

namespace Scope

/-- Locals that are declared once and not visible yet. -/
structure Fresh (s : Scope) (ids : List LocalId) : Prop where
  nodup : ids.Nodup
  invisible : ∀ id ∈ ids, s.lookup? id = none

theorem Fresh.sublist {s : Scope} {ids ids' : List LocalId} (h : s.Fresh ids)
    (hsub : ids'.Sublist ids) :
    s.Fresh ids' :=
  ⟨h.nodup.sublist hsub, fun id hid => h.invisible id (hsub.subset hid)⟩

/-- Locals that are declared after others are fresh in the scope of those. -/
theorem Fresh.enter {s : Scope} {ids : List LocalId} (h : s.Fresh ids) {bs : List Param}
    (hbs : ∀ b ∈ bs, b.id ∉ ids) : Fresh (Scope.enter s bs) ids where
  nodup := h.nodup
  invisible id hid := by
    rw [lookup?_enter, h.invisible id hid, Option.or_none, List.find?_eq_none]
    intro b hb heq
    exact hbs b (List.mem_reverse.mp hb) (eq_of_beq heq ▸ hid)

end Scope

/-! ## Declared locals -/

/-- The locals that are declared in an expression. -/
def Expr.locals (e : Expr) : List LocalId := declaredIn e.nodes

/-- The locals that are declared in a statement. -/
def Stmt.locals (st : Stmt) : List LocalId := declaredIn (st.walk fun _ => true)

/-- The locals that are declared in a part; those around it that it can see are
not among them. -/
def Part.locals (p : Part) : List LocalId := declaredIn (p.walk fun _ => true)

theorem declaredIn_cons (n : Node) (ns : List Node) :
    declaredIn (n :: ns) = n.declared ++ declaredIn ns := List.flatMap_cons

theorem declaredIn_flatMap {α : Type} (f : α → List Node) (as : List α) :
    declaredIn (as.flatMap f) = as.flatMap fun a => declaredIn (f a) := List.flatMap_assoc

theorem Expr.locals_eq {e : Expr} (he : e.isLambda = false) :
    e.locals = e.children.flatMap Expr.locals := by
  have hnode : (Node.expr e).declared = [] := by
    cases e
    case lambda => cases he
    all_goals rfl
  rw [locals, nodes, walk_eq _ he, Node.reach, if_pos rfl, declaredIn_cons,
    hnode, declaredIn_flatMap]
  rfl

theorem Part.locals_exprs (bs : List Param) (es : List Expr) :
    (Part.exprs bs es).locals = es.flatMap Expr.locals := by
  rw [locals, walk, Expr.walkList_eq, declaredIn_flatMap]
  rfl

theorem Part.locals_stmts (bs : List Param) (ss : List Stmt) :
    (Part.stmts bs ss).locals = ss.flatMap Stmt.locals := by
  rw [locals, walk, Stmt.walkAll_eq, declaredIn_flatMap]
  rfl

theorem LambdaBody.locals_part (b : LambdaBody) (params : List Param) :
    (b.part params).locals = declaredIn b.nodes := by
  rw [Part.locals, ← LambdaBody.walk_eq]
  rfl

theorem LambdaBody.binders_part (b : LambdaBody) (params : List Param) :
    (b.part params).binders = params := by
  cases b <;> rfl

theorem Expr.locals_lambda (l : Lambda) :
    (Expr.lambda l).locals = l.params.map (·.id) ++ (l.body.part l.params).locals := by
  rw [LambdaBody.locals_part]
  obtain ⟨ps, b, bt, t, s⟩ := l
  rw [locals, nodes, walk, Node.reach, if_pos rfl, declaredIn_cons]
  rfl

theorem Stmt.locals_eq (st : Stmt) :
    st.locals = (Node.stmt st).declared ++ st.parts.flatMap Part.locals := by
  rw [locals, walk_eq, Node.reach, if_pos rfl, declaredIn_cons, declaredIn_flatMap]
  rfl

theorem Stmt.mem_locals_of_declares {st : Stmt} {b : Param} (h : b ∈ declares st) :
    b.id ∈ st.locals := by
  cases st
  case declare p init =>
    obtain rfl := List.mem_singleton.mp h
    rw [locals_eq]
    exact List.mem_append_left _ List.mem_cons_self
  all_goals cases h

/-- What a part can see beyond what is around is declared before it. -/
theorem Stmt.not_mem_locals_of_binders {st : Stmt} (h : st.locals.Nodup) {p : Part}
    (hp : p ∈ st.parts) {b : Param} (hb : b ∈ p.binders) : b.id ∉ p.locals := by
  rw [locals_eq] at h
  cases st
  case declare | expr | raise | ret | block =>
    obtain rfl := List.mem_singleton.mp hp
    cases hb
  case breakLoop | continueLoop => cases hp
  case cond c t e =>
    simp only [parts, List.mem_cons, List.mem_map] at hp
    obtain rfl | rfl | ⟨e, -, rfl⟩ := hp <;> cases hb
  case whileLoop c body =>
    simp only [parts, List.mem_cons, List.not_mem_nil, or_false] at hp
    obtain rfl | rfl := hp <;> cases hb
  case forLoop i c u body =>
    change ((Part.stmts [] i).locals ++ _).Nodup at h
    have hinit : ∀ b ∈ i.flatMap declares, b.id ∈ (Part.stmts [] i).locals := by
      intro b hb
      obtain ⟨st, hst, hb⟩ := List.mem_flatMap.mp hb
      rw [Part.locals_stmts, List.mem_flatMap]
      exact ⟨st, hst, mem_locals_of_declares hb⟩
    intro hid
    rcases List.mem_cons.mp hp with rfl | hp
    · cases hb
    · have hb : b ∈ i.flatMap declares := by
        simp only [List.mem_cons, List.not_mem_nil, or_false] at hp
        obtain rfl | rfl | rfl := hp <;> exact hb
      exact (List.nodup_append.mp h).2.2 _ (hinit b hb) _ (List.mem_flatMap.mpr ⟨p, hp, hid⟩) rfl
  case forEach v e body =>
    intro hid
    have hb : b = v := by
      simp only [parts, List.mem_cons, List.not_mem_nil, or_false] at hp
      obtain rfl | rfl := hp
      · cases hb
      · exact List.mem_singleton.mp hb
    rw [hb] at hid
    exact (List.nodup_cons.mp h).1 (List.mem_flatMap.mpr ⟨p, hp, hid⟩)
  case tryCatch body handler final =>
    intro hid
    have hb : ∃ c, handler = some c ∧ b = c.param := by
      simp only [parts, List.mem_cons, List.mem_append, List.mem_map, Option.mem_toList] at hp
      obtain rfl | ⟨c, hc, rfl⟩ | ⟨f, -, rfl⟩ := hp
      · cases hb
      · exact ⟨c, hc, List.mem_singleton.mp hb⟩
      · cases hb
    obtain ⟨c, rfl, rfl⟩ := hb
    exact (List.nodup_cons.mp h).1 (List.mem_flatMap.mpr ⟨p, hp, hid⟩)

theorem sublist_flatMap_of_mem {α β : Type} {f : α → List β} {as : List α} {a : α} (h : a ∈ as) :
    (f a).Sublist (as.flatMap f) := by
  rw [List.flatMap_def]
  exact List.sublist_flatten_of_mem (List.mem_map_of_mem h)

theorem nodup_of_flatMap {α β : Type} {f : α → List β} {as : List α}
    (h : (as.flatMap f).Nodup) {a : α}
    (ha : a ∈ as) : (f a).Nodup := h.sublist (sublist_flatMap_of_mem ha)

/-- Each part of a statement has fresh locals, if the statement has. -/
theorem Scope.Fresh.part {s : Scope} {st : Stmt} (h : s.Fresh st.locals) {p : Part}
    (hp : p ∈ st.parts) : Fresh (Scope.enter s p.binders) p.locals := by
  refine Fresh.enter (h.sublist ?_) fun b hb => Stmt.not_mem_locals_of_binders h.nodup hp hb
  rw [Stmt.locals_eq]
  exact (sublist_flatMap_of_mem hp).trans (List.sublist_append_right ..)

/-- The body of a lambda has fresh locals, if the lambda has. -/
theorem Scope.Fresh.lambda {s : Scope} {l : Lambda} (h : s.Fresh (Expr.lambda l).locals) :
    Fresh (Scope.enter s (l.body.part l.params).binders) (l.body.part l.params).locals := by
  rw [Expr.locals_lambda] at h
  rw [LambdaBody.binders_part]
  refine Fresh.enter (h.sublist (List.sublist_append_right ..)) fun b hb hid => ?_
  exact (List.nodup_append.mp h.nodup).2.2 _ (List.mem_map_of_mem hb) _ hid rfl

/-! ## Replacements -/

theorem Expr.sound_this {given : List ClassId} {s : Scope} (q : Option ClassId) :
    Everywhere (Expr.Sound given) ((Expr.this q).located s) :=
  (everywhere_expr rfl).mpr ⟨⟨rfl, rfl⟩, List.forall_mem_nil _⟩

/-- Whether an expression, if it is a construction, is one of a given
adapter. -/
def Expr.isGiven (given : List ClassId) : Expr → Bool
  | .newClosure a _ => given.contains a
  | _ => true

/-- An expression as it is before lowering: its locals are visible, and only
given adapters are constructed. -/
def Expr.Given (given : List ClassId) (s : Scope) (e : Expr) : Prop :=
  e.isBound s = true ∧ e.isGiven given = true

theorem Expr.capturesFinal_withChildren {given : List ClassId} {e : Expr}
    (h : e.isGiven given = true)
    (cs : List Expr) (s : Scope) : (e.withChildren cs).capturesFinal given s = true := by
  cases e
  case newClosure a es =>
    rw [isGiven] at h
    rw [withChildren, capturesFinal, h, Bool.true_or]
  all_goals rfl

namespace Lowering

section Operands

variable {given : List ClassId} {cx : Context} {scope : Scope} {start : Progress}

/-- A construction is sound if its operands are, and what they read is final. -/
theorem sound_newClosure {a : ClassId} {es : List Expr}
    (h : ∀ e ∈ es, Everywhere (Expr.Sound given) (e.located scope) ∧
      ∀ id, e = .localGet id → (scope.lookup? id).any (·.effectivelyFinal) = true) :
    Everywhere (Expr.Sound given) ((Expr.newClosure a es).located scope) := by
  refine (everywhere_expr rfl).mpr ⟨⟨rfl, ?_⟩, fun e he => (h e he).1⟩
  rw [Expr.capturesFinal, Bool.or_eq_true, List.all_eq_true]
  refine .inr fun e he => ?_
  split
  · exact (h _ he).2 _ rfl
  · rfl

/-- **A lambda is made of final locals.** -/
theorem LambdaRun.sound_operands {l : Lambda} (run : LambdaRun cx scope l start) (a : ClassId) :
    Everywhere (Expr.Sound given) ((Expr.newClosure a run.operands).located scope) := by
  refine sound_newClosure (List.forall_mem_map.mpr fun slot hslot => ?_)
  have hreach := CaptureSet.reachable_ofLambda run.captures_eq hslot
  rcases slot with ⟨id, name, ty⟩ | ⟨_ | depth, type⟩ | ty
  · have hlookup : scope.lookup? id = some ⟨id, name, ty, true⟩ := hreach.2
    refine ⟨(everywhere_expr rfl).mpr ⟨⟨?_, rfl⟩, fun _ h => nomatch h⟩, fun id' hid => ?_⟩
    · change (scope.lookup? id).isSome = true
      rw [hlookup]
      rfl
    · cases hid
      rw [hlookup]
      rfl
  · exact ⟨Expr.sound_this none, fun id hid => nomatch hid⟩
  · exact ⟨Expr.sound_this _, fun id hid => nomatch hid⟩
  · exact hreach.elim

theorem LambdaRun.locals_operands {l : Lambda} (run : LambdaRun cx scope l start) :
    run.operands.flatMap Expr.locals = [] := by
  rw [operands, CaptureSet.operands, List.flatMap_map, List.flatMap_eq_nil_iff]
  rintro (_ | ⟨_ | _, _⟩ | _) _ <;> rfl

theorem ReferenceRun.sound_operands {ref : MethodRef} (run : ReferenceRun cx scope ref start)
    (h : ∀ x ∈ run.qualifier.children, Everywhere (Expr.Sound given) (x.located scope))
    (a : ClassId) :
    Everywhere (Expr.Sound given) ((Expr.newClosure a run.operands).located scope) := by
  refine sound_newClosure fun e he => ?_
  rcases operands_of_formOf (Reference.formOf_resolve run.resolved_eq) he with ⟨q,
    rfl⟩ | ⟨x, hx, rfl⟩
  · exact ⟨Expr.sound_this q, fun id hid => nomatch hid⟩
  · exact ⟨(everywhere_expr rfl).mpr ⟨⟨rfl, rfl⟩, List.forall_mem_singleton.mpr (h x hx)⟩,
      fun id hid => nomatch hid⟩

theorem ReferenceRun.locals_operands {ref : MethodRef} (run : ReferenceRun cx scope ref start) :
    run.operands.flatMap Expr.locals ⊆ run.qualifier.children.flatMap Expr.locals := by
  intro id hid
  obtain ⟨e, he, hid⟩ := List.mem_flatMap.mp hid
  rcases operands_of_formOf (Reference.formOf_resolve run.resolved_eq) he with ⟨q,
    rfl⟩ | ⟨x, hx, rfl⟩
  · cases hid
  · rw [Expr.locals_eq rfl, Expr.children, List.flatMap_singleton] at hid
    exact List.mem_flatMap.mpr ⟨x, hx, hid⟩

end Operands

/-! ## Lowering trees -/

/-- **A piece of lowering that keeps scoping**: what it leaves is sound and
declares nothing new, and the adapters that it makes are closed. -/
structure Scoped (given : List ClassId) (v : CompilationUnit) (p p' : Progress) (ids : List LocalId)
    (xs : List (Scope × Expr)) (ids' : List LocalId) : Prop where
  sound : Everywhere (Expr.Sound given) xs
  declared : ids' ⊆ ids
  adapters : ∀ d ∈ p'.adapters, d ∈ p.adapters ∨ d.IsClosed given v

namespace Scoped

variable {given : List ClassId} {v : CompilationUnit} {p p₁ p₂ p' : Progress}
  {ids ids₁ ids₂ ids' ids₁' ids₂' : List LocalId} {xs xs₁ xs₂ : List (Scope × Expr)}

theorem nil : Scoped given v p p [] [] [] where
  sound := fun _ h => nomatch h
  declared := fun _ h => nomatch h
  adapters := fun _ h => .inl h

theorem append (h₁ : Scoped given v p p₁ ids₁ xs₁ ids₁')
    (h₂ : Scoped given v p₁ p' ids₂ xs₂ ids₂') :
    Scoped given v p p' (ids₁ ++ ids₂) (xs₁ ++ xs₂) (ids₁' ++ ids₂') where
  sound := everywhere_append.mpr ⟨h₁.sound, h₂.sound⟩
  declared := List.append_subset.mpr ⟨List.Subset.trans h₁.declared (List.subset_append_left ..),
    List.Subset.trans h₂.declared (List.subset_append_right ..)⟩
  adapters d hd := (h₂.adapters d hd).elim (h₁.adapters d) .inr

theorem forget (h : Scoped given v p p' ids xs ids') : Scoped given v p p' [] xs [] :=
  ⟨h.sound, List.nil_subset _, h.adapters⟩

/-- A run through a list keeps scoping if it does for each of its elements. -/
theorem mapM {α β : Type} {f : α → Step β} {δ : α → List LocalId} {ξ : β → List (Scope × Expr)}
    {ε : β → List LocalId} {as : List α} {bs : List β} (h : as.mapM f p = .ok (bs, p'))
    (hf : ∀ a ∈ as, ∀ p b p', f a p = .ok (b, p') → Scoped given v p p' (δ a) (ξ b) (ε b)) :
    Scoped given v p p' (as.flatMap δ) (bs.flatMap ξ) (bs.flatMap ε) := by
  induction as generalizing p bs with
  | nil =>
    cases h
    exact nil
  | cons a as ih =>
    rw [List.mapM_cons, bind_run_eq_ok] at h
    obtain ⟨b, p₁, hb, h⟩ := h
    obtain ⟨rest, p₂, hrest, h⟩ := bind_run_eq_ok.mp h
    cases h
    rw [List.forall_mem_cons] at hf
    exact (hf.1 p b p₁ hb).append (ih hrest hf.2)

/-- **A site keeps scoping if its adapter is closed and its construction is
sound.** -/
theorem site {cx : Context} {c : Closure} {operands : List Expr} {scope : Scope}
    (h : Scoped given v (cx.allocated p) p₁ ids xs ids') (hsame : p₁.SameSites p₂)
    (hclosed : (c.decl cx.unit cx.policy).IsClosed given v)
    (hsound : Everywhere (Expr.Sound given) ((Expr.newClosure c.adapter operands).located scope))
    (hlocals : operands.flatMap Expr.locals ⊆ ids) :
    Scoped given v p (cx.finished c p₂) ids ((c.replacement operands).located scope)
      (c.replacement operands).locals := by
  obtain ⟨next, rfl⟩ := hsame
  have hadapters : ∀ d ∈ (cx.finished c { p₁ with nextLocal := next }).adapters,
      d ∈ p.adapters ∨ d.IsClosed given v :=
    List.forall_mem_cons.mpr ⟨.inr hclosed, h.adapters⟩
  rw [Closure.replacement]
  split
  · refine ⟨hsound, ?_, hadapters⟩
    rw [Expr.locals_eq rfl]
    exact hlocals
  · exact ⟨(everywhere_expr rfl).mpr ⟨⟨rfl, rfl⟩, fun _ h => nomatch h⟩, fun _ h => (nomatch h),
      hadapters⟩

end Scoped

section Trees

variable {given : List ClassId} {v : CompilationUnit} {cx : Context}

/-- Lowering an expression keeps scoping. -/
def ExprScoped (given : List ClassId) (v : CompilationUnit) (cx : Context) (e : Expr) : Prop :=
  ∀ scope p e' p', scope.Fresh e.locals → Everywhere (Expr.Given given) (e.located scope) →
    lowerExpr cx scope e p = .ok (e', p') →
      Scoped given v p p' e.locals (e'.located scope) e'.locals

/-- Lowering a statement keeps scoping. -/
def StmtScoped (given : List ClassId) (v : CompilationUnit) (cx : Context) (st : Stmt) : Prop :=
  ∀ scope p st' p', scope.Fresh st.locals → Everywhere (Expr.Given given) (st.located scope) →
    lowerStmt cx scope st p = .ok (st', p') →
      Scoped given v p p' st.locals (st'.located scope) st'.locals

theorem scoped_exprs {es : List Expr} (hes : ∀ e ∈ es, ExprScoped given v cx e) {scope : Scope} :
    ∀ {p es' p'}, scope.Fresh (es.flatMap Expr.locals) →
      (∀ e ∈ es, Everywhere (Expr.Given given) (e.located scope)) →
      lowerExprs cx scope es p = .ok (es', p') →
      Scoped given v p p' (es.flatMap Expr.locals) (es'.flatMap (Expr.located scope))
        (es'.flatMap Expr.locals) := by
  induction es with
  | nil =>
    intro p es' p' _ _ h
    cases h
    exact .nil
  | cons e es ih =>
    intro p es' p' hfresh hgiven h
    rw [List.forall_mem_cons] at hes hgiven
    obtain ⟨e', p₁, rest, he, hrest, rfl⟩ := lowerExprs_cons_eq_ok h
    have he := hes.1 scope p e' p₁ (hfresh.sublist (List.sublist_append_left ..)) hgiven.1 he
    exact he.append (ih hes.2 (hfresh.sublist (List.sublist_append_right ..)) hgiven.2 hrest)

theorem scoped_stmts {ss : List Stmt} (hss : ∀ st ∈ ss, StmtScoped given v cx st) :
    ∀ {scope p ss' p'}, Scope.Fresh scope (ss.flatMap Stmt.locals) →
      Everywhere (Expr.Given given) (Stmt.locatedAll scope ss) →
      lowerStmts cx scope ss p = .ok (ss', p') →
      Scoped given v p p' (ss.flatMap Stmt.locals) (Stmt.locatedAll scope ss')
        (ss'.flatMap Stmt.locals) := by
  induction ss with
  | nil =>
    intro scope p ss' p' _ _ h
    cases h
    exact .nil
  | cons st ss ih =>
    intro scope p ss' p' hfresh hgiven h
    rw [List.forall_mem_cons] at hss
    rw [Stmt.locatedAll, everywhere_append] at hgiven
    obtain ⟨st', p₁, rest, hst, hrest, rfl⟩ := lowerStmts_cons_eq_ok h
    have hlater : Scope.Fresh (Scope.enter scope (declares st)) (ss.flatMap Stmt.locals) :=
      (hfresh.sublist (List.sublist_append_right ..)).enter fun b hb hid =>
        (List.nodup_append.mp hfresh.nodup).2.2 _ (Stmt.mem_locals_of_declares hb) _ hid rfl
    have hfirst := hss.1 scope p st' p₁ (hfresh.sublist (List.sublist_append_left ..)) hgiven.1 hst
    rw [Stmt.locatedAll, declares_lowerStmt hst]
    exact hfirst.append (ih hss.2 hlater hgiven.2 hrest)

theorem scoped_part {part part' : Part}
    (h : part.All (ExprScoped given v cx) (StmtScoped given v cx)) {scope : Scope} {p p' : Progress}
    (hfresh : Scope.Fresh (Scope.enter scope part.binders) part.locals)
    (hgiven : Everywhere (Expr.Given given) (part.located scope))
    (hrun : lowerPart cx scope part p = .ok (part', p')) :
    Scoped given v p p' part.locals (part'.located scope) part'.locals := by
  cases part with
  | exprs bs es =>
    obtain ⟨es', p₁, hes, hpart⟩ := map_run_eq_ok.mp hrun
    cases hpart
    rw [Part.locals_exprs] at hfresh ⊢
    rw [Part.locals_exprs]
    exact scoped_exprs h hfresh (everywhere_flatMap.mp hgiven) hes
  | stmts bs ss =>
    obtain ⟨ss', p₁, hss, hpart⟩ := map_run_eq_ok.mp hrun
    cases hpart
    rw [Part.locals_stmts] at hfresh ⊢
    rw [Part.locals_stmts]
    exact scoped_stmts h hfresh hgiven hss

/-- A node that is no site is kept. -/
theorem exprScoped_of_children {e : Expr} (he : e.isSite = false)
    (hc : ∀ c ∈ e.children, ExprScoped given v cx c) : ExprScoped given v cx e := by
  intro scope p e' p' hfresh hgiven h
  have hlambda : e.isLambda = false := by
    cases e
    case lambda => cases he
    all_goals rfl
  obtain ⟨cs, hcs, hlen, rfl⟩ := lowerExpr_eq_ok he h
  obtain ⟨⟨hbound, hnode⟩, hchildren⟩ := (everywhere_expr hlambda).mp hgiven
  rw [Expr.locals_eq hlambda] at hfresh ⊢
  obtain ⟨hsound, hdeclared, hadapters⟩ := scoped_exprs hc hfresh hchildren hcs
  refine ⟨(everywhere_expr (Expr.isLambda_withChildren hlambda)).mpr ⟨⟨?_, ?_⟩, ?_⟩, ?_, hadapters⟩
  · rw [Expr.isBound_withChildren]
    exact hbound
  · exact Expr.capturesFinal_withChildren hnode cs scope
  · rw [Expr.children_withChildren hlen]
    exact everywhere_flatMap.mp hsound
  · rw [Expr.locals_eq (Expr.isLambda_withChildren hlambda), Expr.children_withChildren hlen]
    exact hdeclared

theorem exprScoped_methodRef {ref : MethodRef} (hext : cx.unit.ExtendedBy v)
    (hc : ∀ c ∈ ref.qualifier.children, ExprScoped given v cx c) :
    ExprScoped given v cx (.methodRef ref) := by
  intro scope p e' p' hfresh hgiven h
  obtain ⟨run, rfl, rfl⟩ := exists_referenceRun h
  rw [Expr.locals_eq rfl] at hfresh ⊢
  have hscoped := scoped_exprs hc hfresh ((everywhere_expr rfl).mp hgiven).2 run.children_eq
  exact hscoped.site run.sameSites (Closure.isClosed_decl (run.fitAll_body hext))
    (run.sound_operands (everywhere_flatMap.mp hscoped.sound) _)
    (List.Subset.trans run.locals_operands hscoped.declared)

theorem exprScoped_lambda {l : Lambda} (hext : cx.unit.ExtendedBy v) (hu : cx.unit.NumbersMethods)
    (hbody : (l.body.part l.params).All (ExprScoped given v cx) (StmtScoped given v cx)) :
    ExprScoped given v cx (.lambda l) := by
  intro scope p e' p' hfresh hgiven h
  obtain ⟨run, rfl, rfl⟩ := exists_lambdaRun h
  rw [Expr.located_lambda] at hgiven
  have hscoped := scoped_part hbody hfresh.lambda (List.forall_mem_cons.mp hgiven).2
    (lowerPart_of_lowerBody run.body_eq)
  rw [Expr.locals_lambda] at hfresh ⊢
  have hids : ∀ id ∈ declaredIn run.body.nodes, scope.lookup? id = none := by
    intro id hid
    rw [← LambdaBody.locals_part _ l.params] at hid
    exact hfresh.invisible id (List.mem_append_right _ (hscoped.declared hid))
  have hfits := run.fitAll_body hext hu (List.nodup_append.mp hfresh.nodup).1 hids hscoped.sound
  -- the construction declares nothing
  refine Scoped.site ⟨hscoped.sound, List.subset_append_of_subset_right _ hscoped.declared,
    hscoped.adapters⟩ run.sameSites (Closure.isClosed_decl hfits) (run.sound_operands _) ?_
  rw [run.locals_operands]
  exact List.nil_subset _

/-- **Lowering keeps scoping**, for all expressions and statements. -/
theorem shapeSteps_scoped (hext : cx.unit.ExtendedBy v) (hu : cx.unit.NumbersMethods) :
    ShapeSteps (ExprScoped given v cx) (StmtScoped given v cx) where
  node e he hc := by
    cases e
    case lambda => cases he
    case methodRef ref => exact exprScoped_methodRef hext hc
    all_goals exact exprScoped_of_children rfl hc
  lambda l hbody := exprScoped_lambda hext hu hbody
  stmt st hparts := by
    intro scope p st' p' hfresh hgiven h
    have hscoped := Scoped.mapM (lowerStmt_eq_ok h) fun part hpart _ _ _ =>
      scoped_part (hparts part hpart) (hfresh.part hpart) (everywhere_stmt.mp hgiven part hpart)
    rw [Stmt.located_eq, Stmt.locals_eq, Stmt.locals_eq, declared_lowerStmt h]
    exact ⟨hscoped.sound, List.append_subset.mpr ⟨List.subset_append_left ..,
      List.subset_append_of_subset_right _ hscoped.declared⟩, hscoped.adapters⟩

end Trees

/-! ## Declarations -/

section Declarations

variable {given : List ClassId} {u v : CompilationUnit} {policy : SingletonInit} {p p' : Progress}

theorem fresh_nil {ids : List LocalId} (h : ids.Nodup) : Scope.Fresh [] ids := ⟨h, fun _ _ => rfl⟩

variable (hext : u.ExtendedBy v) (hu : u.NumbersMethods)

include hext hu

theorem scoped_field {d : TypeDecl} {f f' : Field}
    (hnodup : (declaredIn (Expr.walkOption (fun _ => true) f.init)).Nodup)
    (hgiven : Everywhere (Expr.Given given) (Expr.locatedOption [] f.init))
    (h : lowerField (declContext u policy d) f p = .ok (f', p')) :
    Scoped given v p p' [] (Expr.locatedOption [] f'.init) [] := by
  obtain ⟨init, p₁, hinit, h⟩ := bind_run_eq_ok.mp h
  cases h
  rw [lowerOption_eq] at hinit
  obtain ⟨es, p₁, hes, h⟩ := map_run_eq_ok.mp hinit
  cases h
  rw [Expr.walkOption_eq, declaredIn_flatMap] at hnodup
  rw [Expr.locatedOption_eq] at hgiven ⊢
  rw [toList_head? (length_lowerExprs hes)]
  exact (scoped_exprs ((shapeSteps_scoped hext hu).option f.init) (fresh_nil hnodup)
    (everywhere_flatMap.mp hgiven) hes).forget

theorem scoped_initializer {d : TypeDecl} {i i' : Initializer}
    (hnodup : (declaredIn (Stmt.nodes i.body)).Nodup)
    (hgiven : Everywhere (Expr.Given given) (Stmt.locatedAll [] i.body))
    (h : lowerInitializer (declContext u policy d) i p = .ok (i', p')) :
    Scoped given v p p' [] (Stmt.locatedAll [] i'.body) [] := by
  obtain ⟨body, p₁, hbody, h⟩ := bind_run_eq_ok.mp h
  cases h
  rw [Stmt.nodes, Stmt.walkAll_eq, declaredIn_flatMap] at hnodup
  exact (scoped_stmts ((shapeSteps_scoped hext hu).stmts i.body) (fresh_nil hnodup)
    hgiven hbody).forget

theorem scoped_method {d : TypeDecl} {m m' : Method}
    (hnodup : (m.params.map (·.id) ++ declaredIn (Stmt.walkOption (fun _ => true) m.body)).Nodup)
    (hgiven : Everywhere (Expr.Given given) (Stmt.locatedOption (Scope.enter [] m.params) m.body))
    (h : lowerMethod (declContext u policy d) m p = .ok (m', p')) :
    Scoped given v p p' [] (Stmt.locatedOption (Scope.enter [] m'.params) m'.body) [] := by
  obtain ⟨body, p₁, hbody, h⟩ := bind_run_eq_ok.mp h
  cases h
  cases hm : m.body with
  | none =>
    rw [hm] at hbody
    cases hbody
    exact .nil
  | some b =>
    rw [hm, lowerBlock] at hbody
    obtain ⟨b', p₁, hb, h⟩ := bind_run_eq_ok.mp hbody
    cases h
    rw [hm, Stmt.walkOption, Stmt.walkAll_eq, declaredIn_flatMap] at hnodup
    rw [hm, Stmt.locatedOption] at hgiven
    have hfresh : Scope.Fresh (Scope.enter [] m.params) (b.flatMap Stmt.locals) :=
      (fresh_nil (List.nodup_append.mp hnodup).2.1).enter fun q hq hid =>
        (List.nodup_append.mp hnodup).2.2 _ (List.mem_map_of_mem hq) _ hid rfl
    exact (scoped_stmts ((shapeSteps_scoped hext hu).stmts b) hfresh hgiven hb).forget

/-- **Lowering a declaration keeps scoping.** -/
theorem scoped_decl {d d' : TypeDecl} (hnodup : d.declaredLocals.Nodup)
    (hgiven : Everywhere (Expr.Given given) d.located) (h : lowerDecl u policy d p = .ok (d', p')) :
    Scoped given v p p' [] d'.located [] := by
  obtain ⟨run⟩ := exists_declRun h
  rw [TypeDecl.declaredLocals] at hnodup
  rw [TypeDecl.located, everywhere_append, everywhere_append, everywhere_flatMap,
    everywhere_flatMap, everywhere_flatMap] at hgiven
  obtain ⟨hmethods, hrest, -⟩ := List.nodup_append.mp hnodup
  obtain ⟨hfields, hinitializers, -⟩ := List.nodup_append.mp hrest
  have fields := Scoped.mapM run.fields_eq fun f hf _ _ _ => scoped_field hext hu
    (nodup_of_flatMap hfields hf) (hgiven.1 f hf)
  have initializers := Scoped.mapM run.initializers_eq fun i hi _ _ _ => scoped_initializer hext hu
    (nodup_of_flatMap hinitializers hi) (hgiven.2.1 i hi)
  have methods := Scoped.mapM run.methods_eq fun m hm _ _ _ => scoped_method hext hu
    (nodup_of_flatMap hmethods hm) (hgiven.2.2 m hm)
  exact (fields.append (initializers.append methods)).forget

end Declarations

/-! ## Units -/

/-- **Lowering a unit keeps scoping and makes closed adapters.** -/
theorem UnitRun.scoped {u v : CompilationUnit} {policy : SingletonInit} {summary : Summary}
    {given : List ClassId} (run : UnitRun u policy v summary) (hu : u.IsArena)
    (hm : u.NumbersMethods) (hnodup : (u.types.flatMap TypeDecl.declaredLocals).Nodup)
    (hgiven : ∀ d ∈ u.types, Everywhere (Expr.Given given) d.located) :
    (∀ d ∈ run.lowered, Everywhere (Expr.Sound given) d.located) ∧
      ∀ d ∈ run.adapters, d.IsClosed given v := by
  have hresult : ∀ r ∈ run.results, Everywhere (Expr.Sound given)
    (r.types.flatMap TypeDecl.located) ∧
      ∀ d ∈ r.adapters, d.IsClosed given v := by
    intro r hr
    obtain ⟨part, -, hrun⟩ := exists_of_forall₂_right run.results_eq hr
    obtain ⟨stop, hdecls, hadapters⟩ := lowerPartition_eq_ok hrun
    have hscoped := Scoped.mapM hdecls fun d hd _ _ _ =>
      have hd : d ∈ u.types := (List.mem_filter.mp hd).1
      scoped_decl (run.extendedBy hu) hm (nodup_of_flatMap hnodup hd) (hgiven d hd)
    refine ⟨hscoped.sound, fun d hd => ?_⟩
    rw [hadapters, byId, List.mem_mergeSort] at hd
    exact (hscoped.adapters d hd).resolve_left List.not_mem_nil
  constructor
  · intro d hd
    obtain ⟨r, hr, hd⟩ := List.mem_flatMap.mp hd
    exact everywhere_flatMap.mp (hresult r hr).1 d hd
  · intro d hd
    rw [adapters, byId, List.mem_mergeSort] at hd
    obtain ⟨r, hr, hd⟩ := List.mem_flatMap.mp hd
    exact (hresult r hr).2 d hd

end Lowering

/-- The adapters that are constructed in a unit. -/
def CompilationUnit.constructed (u : CompilationUnit) : List ClassId :=
  (u.types.flatMap TypeDecl.located).filterMap fun x =>
    match x.2 with
    | .newClosure a _ => some a
    | _ => none

theorem CompilationUnit.WellScoped.given {u : CompilationUnit} (h : u.WellScoped) {d : TypeDecl}
    (hd : d ∈ u.types) : Everywhere (Expr.Given u.constructed) d.located := by
  rintro ⟨s, e⟩ hx
  refine ⟨h d hd _ hx, ?_⟩
  cases e
  case newClosure a cs =>
    refine List.contains_iff_mem.mpr (List.mem_filterMap.mpr ⟨(s, .newClosure a cs), ?_, rfl⟩)
    exact List.mem_flatMap.mpr ⟨d, hd, hx⟩
  all_goals rfl

theorem Expr.Given.sound {given : List ClassId} {s : Scope} {e : Expr} (h : e.Given given s) :
    e.Sound given s := by
  refine ⟨h.1, ?_⟩
  cases e
  case newClosure a cs => exact Bool.or_eq_true_iff.mpr (.inl h.2)
  all_goals rfl

theorem Expr.Sound.exists_final {given : List ClassId} {s : Scope} {a : ClassId} {cs : List Expr}
    (h : (Expr.newClosure a cs).Sound given s) (ha : a ∉ given) {id : LocalId}
    (hid : Expr.localGet id ∈ cs) : ∃ p, s.lookup? id = some p ∧ p.effectivelyFinal = true := by
  have hfinal := h.2
  rw [capturesFinal, Bool.or_eq_true, List.contains_iff_mem, List.all_eq_true] at hfinal
  have hfinal : (s.lookup? id).any (·.effectivelyFinal) = true := hfinal.resolve_left ha _ hid
  cases hp : s.lookup? id with
  | none =>
    rw [hp] at hfinal
    cases hfinal
  | some p =>
    rw [hp] at hfinal
    exact ⟨p, rfl, hfinal⟩

/-- **Lowering keeps units well-scoped and makes closed adapters.** If every
local is declared once and every use of a local is bound, then in the lowered
unit

* every use of a local is bound, in the given bodies, in the operands of
  constructions and in the methods of adapters;
* where an adapter is constructed that the given unit does not construct, an
  operand that reads a local reads an effectively final one
  (`Early.operand_not_final` is why the others are left out);
* the methods of the adapters use `this` only to read their own fields, and have
  no access to an instance field, no call of an instance method and no creation
  of an inner instance that leaves the object out. -/
theorem lower_scoped {u v : CompilationUnit} {policy : SingletonInit} {summary : Lowering.Summary}
    (hu : u.IsArena) (hm : u.NumbersMethods)
    (hnodup : (u.types.flatMap TypeDecl.declaredLocals).Nodup) (hscoped : u.WellScoped)
    (h : u.lower policy = .ok (v, summary)) :
    v.WellScoped ∧
      (∀ d ∈ v.types, ∀ s a cs, (s, Expr.newClosure a cs) ∈ d.located → a ∉ u.constructed →
        ∀ id, Expr.localGet id ∈ cs → ∃ p, s.lookup? id = some p ∧ p.effectivelyFinal = true) ∧
      ∀ d ∈ v.types.drop u.types.length, ∀ m ∈ d.methods, ∀ body, m.body = some body →
        ∀ n ∈ Stmt.nodesBesideSlots d.id d.fields.length body, n.isSelfContained v = true := by
  obtain ⟨run⟩ := Lowering.exists_unitRun h
  have hgiven : ∀ d ∈ u.types, Everywhere (Expr.Given u.constructed) d.located :=
    fun d hd => hscoped.given hd
  obtain ⟨hlowered, hclosed⟩ := run.scoped hu hm hnodup hgiven
  have hsound : ∀ d ∈ v.types, Everywhere (Expr.Sound u.constructed) d.located := by
    intro d hd
    rw [(run.types_perm hu).mem_iff, List.mem_append, List.mem_append, List.mem_filter] at hd
    rcases hd with (hd | ⟨hd, -⟩) | hd
    · exact hlowered d hd
    · exact fun x hx => (hgiven d hd x hx).sound
    · exact (hclosed d hd).sound
  refine ⟨fun d hd x hx => (hsound d hd x hx).1, fun d hd s a cs hx ha id hid => ?_, ?_⟩
  · exact (hsound d hd _ hx).exists_final ha hid
  · rw [run.types_drop]
    exact fun d hd => (hclosed d hd).selfContained

namespace Relay

/-- An interface with one generic method, and a relay that makes a closure with
another one inside: the inner one captures a local of the method, a parameter of
the outer one and the instance. -/
def unit : CompilationUnit where
  name := "relay"
  sourcePath := none
  types := [
    { TypeDecl.empty 0 "Step" .topLevel with
      isInterface := true
      typeParams := [⟨"T", none⟩]
      methods :=
        [⟨"run", [], [⟨1, "x", .var "T", true⟩], .var "T", [], .method, false, true, false, false,
        none, .dummy⟩] },
    { TypeDecl.empty 1 "Relay" .topLevel with
      fields := [⟨"level", .int, false, false, none⟩]
      methods :=
        [⟨"make", [], [⟨2, "by", .int, true⟩], .raw 0, [], .method, false, false, false, false,
        some [.ret (some (.lambda ⟨[⟨3, "x", .boxed .int, true⟩],
          .expr (.call (.expr (.lambda ⟨[⟨4, "y", .boxed .int, true⟩],
              .expr (.binary .add (.binary .add (.localGet 2) (.localGet 3))
                (.binary .add (.localGet 4) (.fieldGet none ⟨1, 0⟩))),
              .int, .declared 0 [.boxed .int], .dummy⟩))
            ⟨0, 0⟩ [.localGet 3]),
          .boxed .int, .declared 0 [.boxed .int], .dummy⟩))],
        .dummy⟩] }]

theorem isArena : unit.IsArena := by decide

theorem numbersMethods : unit.NumbersMethods := by decide

theorem wellScoped : unit.WellScoped := by decide

end Relay

/-- The relay can be lowered, and stays well-scoped. -/
theorem lower_scoped_relay :
    (Relay.unit.types.flatMap TypeDecl.declaredLocals).Nodup ∧ Relay.unit.WellScoped ∧
      ∃ v summary, Relay.unit.lower .onDemand = .ok (v, summary) ∧ summary.sites = 2 ∧
        v.WellScoped ∧
        (∀ d ∈ v.types, ∀ s a cs, (s, Expr.newClosure a cs) ∈ d.located →
          a ∉ Relay.unit.constructed →
          ∀ id, Expr.localGet id ∈ cs → ∃ p, s.lookup? id = some p ∧ p.effectivelyFinal = true) ∧
        ∀ d ∈ v.types.drop 2, ∀ m ∈ d.methods, ∀ body, m.body = some body →
          ∀ n ∈ Stmt.nodesBesideSlots d.id d.fields.length body, n.isSelfContained v = true := by
  have hnodup : (Relay.unit.types.flatMap TypeDecl.declaredLocals).Nodup := by decide
  have hrun : ((Relay.unit.lower .onDemand).map fun r => r.2.sites) = .ok 2 := by cbv
  refine ⟨hnodup, Relay.wellScoped, ?_⟩
  obtain ⟨⟨v, summary⟩, h, hsites⟩ := map_eq_ok.mp hrun
  exact ⟨v, summary, h, hsites.symm,
    lower_scoped Relay.isArena Relay.numbersMethods hnodup Relay.wellScoped h⟩

namespace Early

/-- A method that assigns to its parameter, and constructs the type with number
2 from it before there is one. -/
def main (closure : Expr) : TypeDecl :=
  { TypeDecl.empty 1 "Main" .topLevel with
    methods := [⟨"go", [], [⟨1, "t", .int, false⟩], .raw 0, [], .method, true, false, false, false,
      some [
        .expr (.localSet 1 (.int 5)),
        .expr (.newClosure 2 [.localGet 1]),
        .ret (some closure)],
      .dummy⟩] }

/-- The method has a closure as well, whose adapter gets the number. -/
def unit : CompilationUnit where
  name := "early"
  sourcePath := none
  types := [
    { TypeDecl.empty 0 "Step" .topLevel with
      isInterface := true
      methods := [⟨"run", [], [], .void, [], .method, false, true, false, false, none, .dummy⟩] },
    main (.lambda ⟨[], .block [], .void, .raw 0, .dummy⟩)]

end Early

/-- **A construction that was there before lowering stays as it was**, also
where an adapter gets its number: then it reads a local that is assigned to. -/
theorem Early.operand_not_final :
    unit.IsArena ∧ unit.NumbersMethods ∧ (unit.types.flatMap TypeDecl.declaredLocals).Nodup ∧
      unit.WellScoped ∧ ∃ v summary d s p, unit.lower .onDemand = .ok (v, summary) ∧
        summary.adapters = [(2, "Main_$Lambda$1")] ∧ d ∈ v.types ∧
        (s, Expr.newClosure 2 [.localGet 1]) ∈ d.located ∧ s.lookup? 1 = some p ∧
        p.effectivelyFinal = false := by
  have hrun : ((unit.lower .onDemand).map fun r => (r.2.adapters, r.1.types[1]?)) =
      .ok ([(2, "Main_$Lambda$1")], some (main (.singleton 2))) := by cbv
  obtain ⟨⟨v, summary⟩, h, hresult⟩ := map_eq_ok.mp hrun
  obtain ⟨hadapters, hmain⟩ := Prod.mk.inj hresult
  refine ⟨by decide, by decide, by decide, by decide, v, summary, _, _, _, h, hadapters.symm,
    List.mem_of_getElem? hmain.symm, List.mem_of_getElem? (i := 2) rfl, rfl, rfl⟩

end Closures
