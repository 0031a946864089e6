import Closures.Proofs.EvaluationRecord
import Closures.Proofs.ReferenceForms
import Closures.Proofs.RunInduction
import Closures.Proofs.SiteMarks

/-!
# Lowering assigns to no other fields

What lowering puts into a program reads fields and never assigns to them. If the
code of a unit assigns to none but certain fields, then so does the code of the
lowered unit, adapters included (`Lowering.UnitRun.writesOnly`). An assignment
to a field of an enclosing instance is redirected to a slot that holds the
instance, and still names the same field.
-/

set_option autoImplicit false

namespace Closures

variable {W : FieldId → Prop}

/-! ## Along the shape -/

/-- The code of an expression assigns to none but the given fields. -/
def Expr.WritesOnly (W : FieldId → Prop) (e : Expr) : Prop := ∀ n ∈ e.nodes, n.WritesOnly W

/-- The same for a statement. -/
def Stmt.WritesOnly (W : FieldId → Prop) (st : Stmt) : Prop :=
  ∀ n ∈ st.walk fun _ => true, n.WritesOnly W

/-- The same for a part. -/
def Part.WritesOnly (W : FieldId → Prop) (p : Part) : Prop :=
  p.All (Expr.WritesOnly W) (Stmt.WritesOnly W)

theorem Part.writesOnly_iff {p : Part} :
    p.WritesOnly W ↔ ∀ n ∈ p.walk fun _ => true, n.WritesOnly W := by
  cases p with
  | exprs bs es =>
    rw [walk, Expr.walkList_eq, List.forall_mem_flatMap]
    rfl
  | stmts bs ss =>
    rw [walk, Stmt.walkAll_eq, List.forall_mem_flatMap]
    rfl

theorem Expr.writesOnly_iff {e : Expr} (he : e.isLambda = false) :
    e.WritesOnly W ↔ (Node.expr e).WritesOnly W ∧ ∀ c ∈ e.children, c.WritesOnly W := by
  rw [WritesOnly, nodes, walk_eq _ he, Node.reach, if_pos rfl, List.forall_mem_cons,
    List.forall_mem_flatMap]
  rfl

theorem Expr.writesOnly_lambda {l : Lambda} :
    (Expr.lambda l).WritesOnly W ↔ (l.body.part l.params).WritesOnly W := by
  obtain ⟨ps, b, bt, t, sp⟩ := l
  rw [WritesOnly, nodes, walk, Node.reach, if_pos rfl, List.forall_mem_cons,
    LambdaBody.walk_eq _ ps, ← Part.writesOnly_iff]
  exact and_iff_right trivial

theorem Stmt.writesOnly_iff {st : Stmt} : st.WritesOnly W ↔ ∀ p ∈ st.parts, p.WritesOnly W := by
  rw [WritesOnly, walk_eq, Node.reach, if_pos rfl, List.forall_mem_cons, List.forall_mem_flatMap]
  simp only [Part.writesOnly_iff]
  exact and_iff_right trivial

theorem TypeDecl.writesOnly_iff {d : TypeDecl} :
    (∀ n ∈ d.nodes, n.WritesOnly W) ↔ ∀ p ∈ d.parts, p.WritesOnly W := by
  have hmethod : ∀ m : Method, (∀ n ∈ Stmt.walkOption (fun _ => true) m.body, n.WritesOnly W) ↔
      ∀ p ∈ m.body.toList.map (Part.stmts m.params), p.WritesOnly W := by
    intro m
    cases m.body with
    | none => exact ⟨fun _ _ h => (nomatch h), fun _ _ h => (nomatch h)⟩
    | some b =>
      rw [Option.toList_some, List.map_singleton, List.forall_mem_singleton, Part.writesOnly_iff]
      rfl
  simp only [nodes, parts, List.forall_mem_append, List.forall_mem_flatMap, hmethod,
    List.forall_mem_singleton, Part.writesOnly_iff, Part.walk, Expr.walkList_eq, Expr.walkOption_eq,
    Stmt.nodes]

theorem Expr.writesOnly_withChildren (e : Expr) (cs : List Expr) :
    (Node.expr (e.withChildren cs)).WritesOnly W ↔ (Node.expr e).WritesOnly W := by
  cases e
  case fieldSet r f v => cases r <;> rfl
  all_goals rfl

/-! ## New code -/

theorem Expr.writesOnly_of_isGlue {e : Expr} (he : e.isGlue = true)
    (hc : ∀ c ∈ e.children, c.WritesOnly W) : e.WritesOnly W := by
  refine (writesOnly_iff (isLambda_of_isGlue he)).mpr ⟨?_, hc⟩
  cases e
  case fieldSet => cases he
  all_goals trivial

theorem Expr.writesOnly_this (q : Option ClassId) : (Expr.this q).WritesOnly W :=
  (writesOnly_iff rfl).mpr ⟨trivial, List.forall_mem_nil _⟩

theorem Expr.writesOnly_localGet (id : LocalId) : (Expr.localGet id).WritesOnly W :=
  (writesOnly_iff rfl).mpr ⟨trivial, List.forall_mem_nil _⟩

theorem CaptureSet.writesOnly_slotRead (adapter : ClassId) (i : Nat) :
    (slotRead adapter i).WritesOnly W :=
  (Expr.writesOnly_iff rfl).mpr ⟨trivial, List.forall_mem_singleton.mpr (Expr.writesOnly_this none)⟩

theorem Closure.writesOnly_replacement {c : Closure} {operands : List Expr}
    (h : ∀ e ∈ operands, e.WritesOnly W) : (c.replacement operands).WritesOnly W := by
  rw [replacement]
  split
  · exact (Expr.writesOnly_iff rfl).mpr ⟨trivial, h⟩
  · exact (Expr.writesOnly_iff rfl).mpr ⟨trivial, fun _ h => nomatch h⟩

/-! ## Redirected code -/

section Redirect

variable {s : Site} {c : CaptureSet} {adapter : ClassId}

theorem CaptureSet.writesOnly_readInstance? {depth : Except Cause Nat} :
    ∀ e ∈ (c.readInstance? adapter depth).toList, e.WritesOnly W := by
  intro e he
  obtain ⟨d, i, -, rfl⟩ := readInstance?_eq_some (Option.mem_toList.mp he)
  exact writesOnly_slotRead adapter i

/-- A redirected assignment names the field that it named. -/
theorem CaptureSet.writesOnly_redirect {e : Expr} (he : e.isLambda = false) (h : e.WritesOnly W) :
    (c.redirect s adapter e).WritesOnly W := by
  obtain ⟨hnode, hc⟩ := (Expr.writesOnly_iff he).mp h
  have hread : ∀ depth, ∀ e ∈ (c.readInstance? adapter depth).toList, e.WritesOnly W :=
    fun _ => writesOnly_readInstance?
  cases e
  case localGet id =>
    rw [redirect]
    split
    · exact writesOnly_slotRead adapter _
    · exact h
  case this q =>
    rw [redirect]
    cases hd : c.readInstance? adapter (s.thisDepth q) with
    | none => exact h
    | some x => exact hread _ x (by rw [hd]; exact List.mem_singleton_self x)
  case fieldGet r f =>
    cases r with
    | some r => exact h
    | none =>
      rw [redirect]
      split
      · exact (Expr.writesOnly_iff rfl).mpr ⟨trivial, hread _⟩
      · exact h
  case fieldSet r f v =>
    cases r with
    | some r => exact h
    | none =>
      rw [redirect]
      split
      · exact (Expr.writesOnly_iff rfl).mpr ⟨hnode, List.forall_mem_append.mpr ⟨hread _, hc⟩⟩
      · exact h
  case call r m args =>
    cases r with
    | static | expr _ | nonVirtual _ => exact h
    | implicit =>
      rw [redirect]
      split
      · split
        · rename_i x hx
          have hx := hread _ x (by rw [hx]; exact List.mem_singleton_self x)
          exact (Expr.writesOnly_iff rfl).mpr ⟨trivial, List.forall_mem_cons.mpr ⟨hx, hc⟩⟩
        · exact h
      · exact h
    | super q =>
      rw [redirect]
      split
      · rename_i x hx
        have hx := hread _ x (by rw [hx]; exact List.mem_singleton_self x)
        exact (Expr.writesOnly_iff rfl).mpr ⟨trivial, List.forall_mem_cons.mpr ⟨hx, hc⟩⟩
      · exact h
  case new t ctor o args =>
    cases o with
    | some o => exact h
    | none =>
      rw [redirect]
      split
      · exact (Expr.writesOnly_iff rfl).mpr ⟨trivial, List.forall_mem_append.mpr ⟨hread _, hc⟩⟩
      · exact h
      · exact h
  all_goals exact h

theorem Part.writesOnly_replace {f : Expr → Expr} {p : Part}
    (ih : p.All (fun e => e.WritesOnly W → (e.replace f).WritesOnly W)
      fun st => st.WritesOnly W → (st.replace f).WritesOnly W) (h : p.WritesOnly W) :
    (p.replace f).WritesOnly W := by
  cases p with
  | exprs bs es => exact List.forall_mem_map.mpr fun e he => ih e he (h e he)
  | stmts bs ss => exact List.forall_mem_map.mpr fun t ht => ih t ht (h t ht)

/-- Redirected code assigns to what it assigned to before. -/
theorem CaptureSet.shapeSteps_writesOnly_replace : ShapeSteps
    (fun e => e.WritesOnly W → (e.replace (c.redirect s adapter)).WritesOnly W)
    (fun st => st.WritesOnly W → (st.replace (c.redirect s adapter)).WritesOnly W) where
  node e he ih h := by
    obtain ⟨hnode, hc⟩ := (Expr.writesOnly_iff he).mp h
    have hlen : (e.children.map (·.replace (c.redirect s adapter))).length = e.children.length :=
      List.length_map _
    rw [Expr.replace_eq he]
    refine writesOnly_redirect (Expr.isLambda_withChildren he) ?_
    rw [Expr.writesOnly_iff (Expr.isLambda_withChildren he), Expr.writesOnly_withChildren,
      Expr.children_withChildren hlen]
    exact ⟨hnode, List.forall_mem_map.mpr fun x hx => ih x hx (hc x hx)⟩
  lambda l ih h := by
    rw [Expr.writesOnly_lambda] at h
    rw [Expr.replace_lambda]
    change (Expr.lambda { l with body := l.body.replace (c.redirect s adapter) }).WritesOnly W
    rw [Expr.writesOnly_lambda, LambdaBody.part_replace]
    exact Part.writesOnly_replace ih h
  stmt st ih h := by
    rw [Stmt.writesOnly_iff] at h ⊢
    rw [Stmt.parts_replace]
    exact List.forall_mem_map.mpr fun p hp => Part.writesOnly_replace (ih p hp) (h p hp)

theorem CaptureSet.writesOnly_redirectAll {ss : List Stmt} (h : ∀ st ∈ ss, st.WritesOnly W) :
    ∀ st ∈ c.redirectAll s adapter ss, st.WritesOnly W := by
  rw [redirectAll, Stmt.replaceAll_eq]
  exact List.forall_mem_map.mpr fun st hst =>
    shapeSteps_writesOnly_replace.statement st (h st hst)

end Redirect

/-! ## The body of an adapter -/

theorem Stmt.writesOnly_expr {e : Expr} (h : e.WritesOnly W) : (Stmt.expr e).WritesOnly W :=
  writesOnly_iff.mpr (List.forall_mem_singleton.mpr (List.forall_mem_singleton.mpr h))

theorem Stmt.writesOnly_ret {e : Expr} (h : e.WritesOnly W) : (Stmt.ret (some e)).WritesOnly W :=
  writesOnly_iff.mpr (List.forall_mem_singleton.mpr (List.forall_mem_singleton.mpr h))

theorem writesOnly_returnValue {u : CompilationUnit} {value : Expr} {result inst erased : Ty}
    {ss : List Stmt} (h : returnValue u value result inst erased = some ss)
    (hvalue : value.WritesOnly W) : ∀ st ∈ ss, st.WritesOnly W := by
  obtain ⟨w, hw, rfl | rfl⟩ := exists_wraps_of_returnValue h <;>
  have hw := hw.induction (fun _ => Expr.writesOnly_of_isGlue) hvalue
  · exact List.forall_mem_singleton.mpr (Stmt.writesOnly_expr hw)
  · exact List.forall_mem_singleton.mpr (Stmt.writesOnly_ret hw)

/-- Changing the operands of returns assigns to nothing new, if the change does
not. -/
theorem shapeSteps_writesOnly_mapReturnsM {f : Option Expr → Except Cause (Option Expr)}
    (hf : ∀ v v', f v = .ok v' → List.Forall₂ Expr.Wraps v.toList v'.toList) :
    ShapeSteps (fun _ => True) (fun st => ∀ st', st.mapReturnsM f = .ok st' →
      st.WritesOnly W → st'.WritesOnly W) where
  node _ _ _ := trivial
  lambda _ _ := trivial
  stmt st ih st' h hst := by
    rw [Stmt.writesOnly_iff] at hst ⊢
    rcases Stmt.mapReturnsM_eq_ok h with ⟨v, v', rfl, hv, rfl⟩ | hparts
    · have hoperand : Part.WritesOnly W (.exprs [] v.toList) := hst _ List.mem_cons_self
      refine List.forall_mem_singleton.mpr fun e' he' => ?_
      obtain ⟨e, he, hw⟩ := exists_of_forall₂_right (hf v v' hv) he'
      exact hw.induction (fun _ => Expr.writesOnly_of_isGlue) (hoperand e he)
    · intro p' hp'
      have hall :=
        (List.forall₂_and_left _ _).mpr ⟨fun p hp => And.intro (ih p hp) (hst p hp), hparts⟩
      obtain ⟨p, -, ⟨hp, hwrites⟩, hrun⟩ := exists_of_forall₂_right hall hp'
      cases p with
      | exprs bs es =>
        cases hrun
        exact hwrites
      | stmts bs ss =>
        obtain ⟨ss', rfl, hss⟩ := Part.mapReturnsM_stmts hrun
        intro t' ht'
        obtain ⟨t, ht, hrun⟩ := exists_of_forall₂_right hss ht'
        exact hp t ht t' hrun (hwrites t ht)

/-- The adapter of a closure whose code assigns to none but the given fields. -/
def TypeDecl.AdapterWritesOnly (W : FieldId → Prop) (d : TypeDecl) : Prop :=
  ∃ u policy c, d = Closure.decl u policy c ∧ ∀ st ∈ c.body, st.WritesOnly W

theorem TypeDecl.AdapterWritesOnly.nodes {d : TypeDecl} (h : d.AdapterWritesOnly W) :
    ∀ n ∈ d.nodes, n.WritesOnly W := by
  obtain ⟨u, policy, c, rfl, hbody⟩ := h
  refine writesOnly_iff.mpr (List.forall_mem_append.mpr ⟨?_, List.forall_mem_singleton.mpr hbody⟩)
  refine List.forall_mem_flatMap.mpr (List.forall_mem_map.mpr fun slot _ => ?_)
  exact List.forall_mem_singleton.mpr fun _ h => nomatch h

namespace Lowering

theorem writesOnly_lambdaStatements {u : CompilationUnit} {body : LambdaBody} {t : Ty}
    {sam : FunctionalInterface} {ss : List Stmt} (h : lambdaStatements u body t sam = .ok ss)
    {params : List Param} (hbody : (body.part params).WritesOnly W) :
      ∀ st ∈ ss, st.WritesOnly W := by
  cases body with
  | expr value =>
    rw [lambdaStatements] at h
    cases hv : returnValue u value t sam.returnType sam.erasedReturn with
    | none => rw [hv] at h; cases h
    | some ss' =>
      rw [hv] at h
      cases h
      exact writesOnly_returnValue hv (List.forall_mem_singleton.mp hbody)
  | block b =>
    rw [lambdaStatements] at h
    split at h
    · cases h
    · rw [Stmt.mapReturnsListM_eq] at h
      have hsteps := shapeSteps_writesOnly_mapReturnsM (W := W) (f := adaptReturn u t sam)
        fun _ _ => forall₂_wraps_adaptReturn
      intro st' hst'
      obtain ⟨st, hst, hrun⟩ := exists_of_forall₂_right (forall₂_of_mapM_ok h) hst'
      exact hsteps.statement st st' hrun (hbody st hst)

theorem Bridge.writesOnly {p : Param} {r : Param × List Stmt} (h : Bridge p r) :
    ∀ st ∈ r.2, st.WritesOnly W := by
  cases h with
  | same => exact fun _ h => nomatch h
  | declared hw _ =>
    have hw :=
      hw.induction (fun _ => Expr.writesOnly_of_isGlue (W := W)) (Expr.writesOnly_localGet _)
    exact List.forall_mem_singleton.mpr (Stmt.writesOnly_iff.mpr
      (List.forall_mem_singleton.mpr (List.forall_mem_singleton.mpr hw)))

/-! ## Sites -/

section Sites

variable {cx : Context} {scope : Scope} {start : Progress}

theorem LambdaRun.writesOnly_body {l : Lambda} (run : LambdaRun cx scope l start)
    (h : (run.body.part l.params).WritesOnly W) : ∀ st ∈ run.closure.body, st.WritesOnly W := by
  refine List.forall_mem_append.mpr ⟨List.forall_mem_flatMap.mpr fun r hr => ?_, ?_⟩
  · obtain ⟨p, hbridge⟩ := run.exists_bridge hr
    exact hbridge.writesOnly
  · exact CaptureSet.writesOnly_redirectAll (writesOnly_lambdaStatements run.stmts_eq h)

theorem LambdaRun.writesOnly_operands {l : Lambda} (run : LambdaRun cx scope l start) :
    ∀ e ∈ run.operands, e.WritesOnly W := by
  refine List.forall_mem_map.mpr ?_
  rintro (⟨id, name, ty⟩ | ⟨_ | depth, type⟩ | ty) _
  · exact Expr.writesOnly_localGet id
  · exact Expr.writesOnly_this _
  · exact Expr.writesOnly_this _
  · have hnull : Expr.null.WritesOnly W :=
      (Expr.writesOnly_iff rfl).mpr ⟨trivial, List.forall_mem_nil _⟩
    exact Expr.writesOnly_of_isGlue rfl (List.forall_mem_singleton.mpr hnull)

theorem ReferenceRun.writesOnly_body {ref : MethodRef} (run : ReferenceRun cx scope ref start) :
    ∀ st ∈ run.closure.body, st.WritesOnly W := by
  refine writesOnly_returnValue run.body_eq (referenceCall_induction
    (fun _ => Expr.writesOnly_of_isGlue) ?_ (fun i _ => CaptureSet.writesOnly_slotRead _ i) ?_
    run.call_eq)
  · exact fun t ctor as _ has => (Expr.writesOnly_iff rfl).mpr ⟨trivial, has⟩
  · intro a ha
    obtain ⟨p, -, hw⟩ := referenceArgs_wraps ha
    exact hw.induction (fun _ => Expr.writesOnly_of_isGlue) (Expr.writesOnly_localGet p.id)

theorem ReferenceRun.writesOnly_operands {ref : MethodRef} (run : ReferenceRun cx scope ref start)
    (h : ∀ e ∈ run.qualifier.children, e.WritesOnly W) : ∀ e ∈ run.operands, e.WritesOnly W := by
  intro e he
  rcases operands_of_formOf (Reference.formOf_resolve run.resolved_eq) he with ⟨q,
    rfl⟩ | ⟨x, hx, rfl⟩
  · exact Expr.writesOnly_this q
  · exact Expr.writesOnly_of_isGlue rfl (List.forall_mem_singleton.mpr (h x hx))

end Sites

/-! ## Runs -/

/-- Lowering makes no other adapters than ones with a property. -/
def Progress.Adds (Q : TypeDecl → Prop) (p p' : Progress) : Prop :=
  ∀ d ∈ p'.adapters, d ∈ p.adapters ∨ Q d

theorem Progress.Adds.refl {Q : TypeDecl → Prop} (p : Progress) : p.Adds Q p := fun _ h => .inl h

theorem Progress.Adds.trans {Q : TypeDecl → Prop} {p p₁ p' : Progress} (h : p.Adds Q p₁)
    (h' : p₁.Adds Q p') : p.Adds Q p' := fun d hd => (h' d hd).elim (h d) .inr

/-- A site adds the adapter of its closure to those inside. -/
theorem Progress.Adds.site {Q : TypeDecl → Prop} {cx : Context} {c : Closure} {p p₁ p₂ : Progress}
    (h : (cx.allocated p).Adds Q p₁) (hsame : p₁.SameSites p₂) (hc : Q (c.decl cx.unit cx.policy)) :
    p.Adds Q (cx.finished c p₂) := by
  obtain ⟨next, rfl⟩ := hsame
  exact List.forall_mem_cons.mpr ⟨.inr hc, h⟩

section Runs

variable {u v : CompilationUnit} {policy : SingletonInit}

/-- What is lowered assigns to no other fields, and so do the adapters that are
made. -/
def KeepsAssigned (W : FieldId → Prop) {α β : Type} (A : α → Prop) (B : β → Prop) (a : α) (b : β)
    (p p' : Progress) : Prop := A a → B b ∧ p.Adds (TypeDecl.AdapterWritesOnly W) p'

theorem KeepsAssigned.along {α β : Type} {A : α → Prop} {B : β → Prop} {as : List α} {bs : List β}
    {p p' : Progress} (h : Along (KeepsAssigned W A B) as bs p p') :
    KeepsAssigned W (∀ a ∈ ·, A a) (∀ b ∈ ·, B b) as bs p p' := by
  induction h with
  | nil => exact fun _ => ⟨fun _ h => (nomatch h), .refl _⟩
  | cons hr _ ih =>
    intro has
    rw [List.forall_mem_cons] at has
    obtain ⟨hb, hadds⟩ := hr has.1
    obtain ⟨hbs, hadds'⟩ := ih has.2
    exact ⟨List.forall_mem_cons.mpr ⟨hb, hbs⟩, hadds.trans hadds'⟩

theorem KeepsAssigned.part {part part' : Part} {p p' : Progress}
    (h : PartAlong (KeepsAssigned W (Expr.WritesOnly W) (Expr.WritesOnly W))
      (KeepsAssigned W (Stmt.WritesOnly W) (Stmt.WritesOnly W)) part part' p p') :
    KeepsAssigned W (Part.WritesOnly W) (Part.WritesOnly W) part part' p p' := by
  cases h with
  | exprs bs h => exact KeepsAssigned.along h
  | stmts bs h => exact KeepsAssigned.along h

theorem KeepsAssigned.parts {ps ps' : List Part} {p p' : Progress}
    (h : Along (PartAlong (KeepsAssigned W (Expr.WritesOnly W) (Expr.WritesOnly W))
      (KeepsAssigned W (Stmt.WritesOnly W) (Stmt.WritesOnly W))) ps ps' p p') :
    KeepsAssigned W (∀ q ∈ ·, Part.WritesOnly W q) (∀ q ∈ ·, Part.WritesOnly W q) ps ps' p p' :=
  .along (h.imp KeepsAssigned.part)

/-- **Lowering assigns to no other fields**, for all expressions and
statements. -/
theorem runSteps_keepsAssigned (cx : Context) :
    RunSteps (KeepsAssigned W (Expr.WritesOnly W) (Expr.WritesOnly W))
      (KeepsAssigned W (Stmt.WritesOnly W) (Stmt.WritesOnly W)) cx where
  node {e cs p p'} hsite hlen h hwrites := by
    have he : e.isLambda = false := by
      cases e
      case lambda => cases hsite
      all_goals rfl
    obtain ⟨hnode, hc⟩ := (Expr.writesOnly_iff he).mp hwrites
    obtain ⟨hcs, hadds⟩ := KeepsAssigned.along h hc
    refine ⟨(Expr.writesOnly_iff (Expr.isLambda_withChildren he)).mpr ⟨?_, ?_⟩, hadds⟩
    · exact (Expr.writesOnly_withChildren e cs).mpr hnode
    · rw [Expr.children_withChildren hlen]
      exact hcs
  lambda run h hwrites := by
    obtain ⟨hbody, hadds⟩ := KeepsAssigned.part h (Expr.writesOnly_lambda.mp hwrites)
    exact ⟨Closure.writesOnly_replacement run.writesOnly_operands,
      hadds.site run.sameSites ⟨_, _, _, rfl, run.writesOnly_body hbody⟩⟩
  methodRef run h hwrites := by
    obtain ⟨hcs, hadds⟩ := KeepsAssigned.along h ((Expr.writesOnly_iff rfl).mp hwrites).2
    exact ⟨Closure.writesOnly_replacement (run.writesOnly_operands hcs),
      hadds.site run.sameSites ⟨_, _, _, rfl, run.writesOnly_body⟩⟩
  stmt _ h hwrites := by
    rw [Stmt.writesOnly_iff] at hwrites ⊢
    exact KeepsAssigned.parts h hwrites

/-- Lowering a declaration assigns to no other fields. -/
theorem keepsAssigned_decl {d d' : TypeDecl} {p p' : Progress}
    (h : lowerDecl u policy d p = .ok (d', p')) :
    KeepsAssigned W (fun d : TypeDecl => ∀ n ∈ d.nodes, n.WritesOnly W)
      (fun d : TypeDecl => ∀ n ∈ d.nodes, n.WritesOnly W) d d' p p' := by
  rw [KeepsAssigned, TypeDecl.writesOnly_iff, TypeDecl.writesOnly_iff]
  exact KeepsAssigned.parts (RunSteps.decl (fun _ => runSteps_keepsAssigned _) h)

theorem lowerPartition_writesOnly (hu : u.WritesOnly W) {first : LocalId} {top next : ClassId}
    {r : PartitionResult} (h : lowerPartition u policy first top next = .ok r) :
    (∀ d ∈ r.types, ∀ n ∈ d.nodes, n.WritesOnly W) ∧ ∀ d ∈ r.adapters, d.AdapterWritesOnly W := by
  obtain ⟨stop, hrun, hadapters⟩ := lowerPartition_eq_ok h
  have halong := KeepsAssigned.along (W := W) (.of_mapM hrun fun _ _ _ _ _ => keepsAssigned_decl)
  obtain ⟨htypes, hadds⟩ := halong fun d hd => hu d (List.mem_filter.mp hd).1
  refine ⟨htypes, fun d hd => ?_⟩
  rw [hadapters, byId, List.mem_mergeSort] at hd
  exact (hadds d hd).resolve_left (List.not_mem_nil)

end Runs

theorem mem_place {ds : List TypeDecl} {d : TypeDecl} :
    ∀ {types : List TypeDecl}, d ∈ place types ds → d ∈ types ∨ d ∈ ds := by
  induction ds with
  | nil => exact .inl
  | cons e ds ih =>
    intro types h
    rcases ih h with h | h
    · refine (List.mem_or_eq_of_mem_set h).imp_right ?_
      rintro rfl
      exact List.mem_cons_self
    · exact .inr (List.mem_cons_of_mem _ h)

namespace UnitRun

variable {u v : CompilationUnit} {policy : SingletonInit} {summary : Summary}
  (run : UnitRun u policy v summary)

include run

theorem adapterWritesOnly (hu : u.WritesOnly W) : ∀ d ∈ run.adapters, d.AdapterWritesOnly W := by
  intro d hd
  rw [adapters, byId, List.mem_mergeSort] at hd
  obtain ⟨r, hr, hd⟩ := List.mem_flatMap.mp hd
  obtain ⟨p, -, hrun⟩ := exists_of_forall₂_right run.results_eq hr
  exact (lowerPartition_writesOnly hu hrun).2 d hd

/-- **A lowered unit assigns to no other fields than the given one.** -/
theorem writesOnly (hu : u.WritesOnly W) : v.WritesOnly W := by
  intro d hd
  rw [run.types_eq, List.mem_append] at hd
  rcases hd with hd | hd
  · rcases mem_place hd with hd | hd
    · exact hu d hd
    · obtain ⟨r, hr, hd⟩ := List.mem_flatMap.mp hd
      obtain ⟨p, -, hrun⟩ := exists_of_forall₂_right run.results_eq hr
      exact (lowerPartition_writesOnly hu hrun).1 d hd
  · exact (run.adapterWritesOnly hu d hd).nodes

end UnitRun

end Lowering

end Closures
