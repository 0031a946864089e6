import Closures.Proofs.CaptureAnalysis
import Closures.Proofs.UnitLowering

/-!
# Lowering again

Lowering numbers its adapters and its new locals from given numbers on. Nothing
else depends on them. When the same code is lowered twice from different
numbers, the two results need the same from outside (`Expr.Akin`), as nothing in
the analysis of captures looks at the number of an adapter. So the sites capture
the same, and their adapters have the same **face**: all but their number, the
numbers of parameters and the code of their method.

`Repeats` says that of a single step, `shapeSteps_repeats` proves it along
trees, and `lowerPartition_faces` is the result for whole partitions.
-/

set_option autoImplicit false

namespace Closures

/-! ## Trees that need the same -/

/-- Nodes that declare the same locals, need the same from outside and are
`this` for the same type. -/
structure Node.Akin (n n' : Node) : Prop where
  declared : n'.declared = n.declared
  needs : ∀ s locals, n'.needs s locals = n.needs s locals
  this : ∀ q, n' = .expr (.this q) ↔ n = .expr (.this q)

/-- Expressions whose nodes are akin, in order. -/
def Expr.Akin (e e' : Expr) : Prop := List.Forall₂ Node.Akin e.nodes e'.nodes

/-- Statements whose nodes are akin, in order. -/
def Stmt.Akin (s s' : Stmt) : Prop :=
  List.Forall₂ Node.Akin (s.walk fun _ => true) (s'.walk fun _ => true)

/-- Parts whose nodes are akin, in order. -/
def Part.Akin (p p' : Part) : Prop :=
  List.Forall₂ Node.Akin (p.walk fun _ => true) (p'.walk fun _ => true)

theorem Node.Akin.refl (n : Node) : n.Akin n := ⟨rfl, fun _ _ => rfl, fun _ => .rfl⟩

theorem Expr.Akin.refl (e : Expr) : e.Akin e := List.forall₂_same.mpr fun n _ => .refl n

theorem forall₂_flatMap {α β : Type} {R : α → α → Prop} {S : β → β → Prop} {f : α → List β}
    {as as' : List α} (h : List.Forall₂ R as as')
    (hf : ∀ {a a'}, R a a' → List.Forall₂ S (f a) (f a')) :
    List.Forall₂ S (as.flatMap f) (as'.flatMap f) := by
  induction h with
  | nil => exact .nil
  | cons ha _ ih => exact List.rel_append (hf ha) ih

theorem Part.akin_exprs {bs : List Param} {es es' : List Expr} (h : List.Forall₂ Expr.Akin es es') :
    (Part.exprs bs es).Akin (.exprs bs es') := by
  rw [Akin, walk, walk, Expr.walkList_eq, Expr.walkList_eq]
  exact forall₂_flatMap h id

theorem Part.akin_stmts {bs : List Param} {ss ss' : List Stmt} (h : List.Forall₂ Stmt.Akin ss ss') :
    (Part.stmts bs ss).Akin (.stmts bs ss') := by
  rw [Akin, walk, walk, Stmt.walkAll_eq, Stmt.walkAll_eq]
  exact forall₂_flatMap h id

/-- What a node needs does not depend on its children. -/
theorem Node.akin_withChildren {e : Expr} (he : e.isLambda = false) (cs : List Expr) :
    (Node.expr e).Akin (.expr (e.withChildren cs)) := by
  cases e
  case lambda => cases he
  case fieldGet r f | fieldSet r f v =>
    cases r <;> exact ⟨rfl, fun _ _ => rfl, by simp [Expr.withChildren]⟩
  case call r m args => cases r <;> exact ⟨rfl, fun _ _ => rfl, by simp [Expr.withChildren]⟩
  case new t c o args => cases o <;> exact ⟨rfl, fun _ _ => rfl, by simp [Expr.withChildren]⟩
  all_goals exact ⟨rfl, fun _ _ => rfl, by simp [Expr.withChildren]⟩

theorem Node.Akin.symm {n n' : Node} (h : n.Akin n') : n'.Akin n :=
  ⟨h.declared.symm, fun s locals => (h.needs s locals).symm, fun q => (h.this q).symm⟩

theorem Node.Akin.trans {n n' n'' : Node} (h : n.Akin n') (h' : n'.Akin n'') : n.Akin n'' :=
  ⟨h'.declared.trans h.declared, fun s locals => (h'.needs s locals).trans (h.needs s locals),
    fun q => (h'.this q).trans (h.this q)⟩

theorem Expr.akin_of_children {e e' : Expr} (he : e.isLambda = false) (he' : e'.isLambda = false)
    (h : (Node.expr e).Akin (.expr e')) (hc : List.Forall₂ Expr.Akin e.children e'.children) :
    e.Akin e' := by
  rw [Akin, nodes, nodes, walk_eq _ he, walk_eq _ he', Node.reach, Node.reach,
    if_pos rfl, if_pos rfl]
  exact .cons h (forall₂_flatMap hc id)

theorem Expr.akin_withChildren {e : Expr} (he : e.isLambda = false) {cs cs' : List Expr}
    (hlen : cs.length = e.children.length) (hlen' : cs'.length = e.children.length)
    (h : List.Forall₂ Expr.Akin cs cs') : (e.withChildren cs).Akin (e.withChildren cs') := by
  refine akin_of_children (isLambda_withChildren he) (isLambda_withChildren he)
    ((Node.akin_withChildren he cs).symm.trans (Node.akin_withChildren he cs')) ?_
  rwa [children_withChildren hlen, children_withChildren hlen']

theorem Stmt.akin_of_parts {s s' : Stmt} (hd : (Node.stmt s').declared = (Node.stmt s).declared)
    (hp : List.Forall₂ Part.Akin s.parts s'.parts) : s.Akin s' := by
  rw [Akin, walk_eq, walk_eq, Node.reach, Node.reach, if_pos rfl, if_pos rfl]
  exact .cons ⟨hd, fun _ _ => rfl, by simp⟩ (forall₂_flatMap hp id)

theorem Expr.exists_nodes (e : Expr) : ∃ rest, e.nodes = .expr e :: rest := by
  cases he : e.isLambda with
  | false =>
    rw [nodes, walk_eq _ he, Node.reach, if_pos rfl]
    exact ⟨_, rfl⟩
  | true =>
    cases e
    case lambda l =>
      obtain ⟨ps, b, bt, t, s⟩ := l
      rw [nodes, walk, Node.reach, if_pos rfl]
      exact ⟨_, rfl⟩
    all_goals cases he

theorem Expr.Akin.root {e e' : Expr} (h : e.Akin e') : (Node.expr e).Akin (.expr e') := by
  obtain ⟨rest, hrest⟩ := e.exists_nodes
  obtain ⟨rest', hrest'⟩ := e'.exists_nodes
  rw [Akin, hrest, hrest'] at h
  exact (List.forall₂_cons.mp h).1

theorem Expr.Akin.boundObject {e e' : Expr} (h : e.Akin e') (s : Site) (t : Ty) :
    Reference.boundObject s t e' = Reference.boundObject s t e := by
  by_cases hthis : ∃ q, e = .this q
  · obtain ⟨q, rfl⟩ := hthis
    cases (h.root.this q).mpr rfl
    rfl
  · have hthis' : ¬∃ q, e' = .this q := by
      rintro ⟨q, rfl⟩
      exact hthis ⟨q, Node.expr.inj ((h.root.this q).mp rfl)⟩
    have hvalue : ∀ {e : Expr}, (¬∃ q, e = .this q) → Reference.boundObject s t e =
        .ok (.value t) := by
      intro e he
      cases e
      case this q => exact absurd ⟨q, rfl⟩ he
      all_goals rfl
    rw [hvalue hthis, hvalue hthis']

/-- **Bodies that need the same capture the same.** -/
theorem CaptureSet.ofLambda_of_akin {s : Site} {params : List Param} {b b' : LambdaBody}
    (h : (b.part params).Akin (b'.part params)) : ofLambda s params b' = ofLambda s params b := by
  have hnodes : List.Forall₂ Node.Akin b.nodes b'.nodes := by
    rw [LambdaBody.nodes, LambdaBody.nodes, LambdaBody.walk_eq _ params,
      LambdaBody.walk_eq _ params]
    exact h
  have hdeclared : declaredIn b'.nodes = declaredIn b.nodes :=
    flatMap_eq_of_forall₂ (hnodes.imp fun _ _ h => h.declared)
  rw [ofLambda_eq, ofLambda_eq, hdeclared]
  generalize params.map (·.id) ++ declaredIn b.nodes = locals
  refine congrArg (Except.map _) ?_
  generalize b.nodes = ns, b'.nodes = ns' at hnodes
  clear hdeclared
  induction hnodes with
  | nil => rfl
  | cons hn _ ih => rw [List.mapM_cons, List.mapM_cons, hn.needs, ih]

/-- An operand needs what the receiver needs. -/
theorem CaptureSet.akin_operand {s : Site} {r r' : Option Expr}
    (h : List.Forall₂ Expr.Akin r.toList r'.toList) (slot : Slot) :
    (operand s r slot).Akin (operand s r' slot) := by
  cases slot with
  | localValue => exact .refl _
  | instance_ depth => cases depth <;> exact .refl _
  | receiver t =>
    have hr : (r.getD .null).Akin (r'.getD .null) := by
      cases r <;> cases r'
      · exact .refl _
      · cases h
      · cases h
      · exact (List.forall₂_cons.mp h).1
    exact Expr.akin_of_children rfl rfl ⟨rfl, fun _ _ => rfl, by simp [operand]⟩ (.cons hr .nil)

theorem CaptureSet.akin_operands {s : Site} {c : CaptureSet} {r r' : Option Expr}
    (h : List.Forall₂ Expr.Akin r.toList r'.toList) :
    List.Forall₂ Expr.Akin (c.operands s r) (c.operands s r') := by
  rw [operands, operands, List.forall₂_map_left_iff, List.forall₂_map_right_iff]
  exact List.forall₂_same.mpr fun slot _ => akin_operand h slot

theorem Closure.akin_replacement {c c' : Closure} (hc : c'.captures = c.captures)
    {ops ops' : List Expr}
    (h : List.Forall₂ Expr.Akin ops ops') : (c.replacement ops).Akin (c'.replacement ops') := by
  have hcap : c'.isCapturing = c.isCapturing := by rw [isCapturing, isCapturing, hc]
  rw [replacement, replacement, hcap]
  split
  · exact Expr.akin_of_children rfl rfl ⟨rfl, fun _ _ => rfl, by simp⟩ h
  · exact Expr.akin_of_children rfl rfl ⟨rfl, fun _ _ => rfl, by simp⟩ .nil

/-! ## Faces -/

/-- A parameter without its number. -/
def Param.face (p : Param) : Param := { p with id := 0 }

/-- A method without its body and the numbers of its parameters. -/
def Method.face (m : Method) : Method := { m with params := m.params.map Param.face, body := none }

/-- What an adapter shows: its name, its interfaces, its fields and what it
records about the site, and the signature of its method; not its own number, nor
the code. -/
def TypeDecl.face (d : TypeDecl) : TypeDecl :=
  { d with id := 0, methods := d.methods.map Method.face }

theorem Closure.face_decl {u : CompilationUnit} {policy : SingletonInit} {c c' : Closure}
    (hname : c'.name = c.name) (henclosing : c'.enclosing = c.enclosing) (hspan : c'.span = c.span)
    (hcaptures : c'.captures = c.captures) (hsam : c'.sam = c.sam)
    (hparams : c'.params.map Param.face = c.params.map Param.face) :
    (c'.decl u policy).face = (c.decl u policy).face := by
  simp only [TypeDecl.face, decl, List.map_cons, List.map_nil, Method.face, implementation, info,
    instantiation, isCapturing, hname, henclosing, hspan, hcaptures, hsam, hparams]
  rfl

namespace Lowering

/-- Progress with the same names and the same faces of adapters. -/
structure Progress.Alike (p q : Progress) : Prop where
  naming : q.naming = p.naming
  faces : q.adapters.map TypeDecl.face = p.adapters.map TypeDecl.face

theorem Progress.Alike.allocated {p q : Progress} (h : p.Alike q) (cx : Context) :
    (cx.allocated p).Alike (cx.allocated q) :=
  ⟨congrArg (Naming.add · cx.unit cx.owner) h.naming, h.faces⟩

theorem Progress.Alike.sameSites {p q p' q' : Progress} (h : p.Alike q) (hp : p.SameSites p')
    (hq : q.SameSites q') : p'.Alike q' := by
  obtain ⟨_, rfl⟩ := hp
  obtain ⟨_, rfl⟩ := hq
  exact ⟨h.naming, h.faces⟩

theorem Progress.Alike.finished {p q : Progress} (h : p.Alike q) {cx : Context} {c c' : Closure}
    (hc : (c'.decl cx.unit cx.policy).face = (c.decl cx.unit cx.policy).face) :
    (cx.finished c p).Alike (cx.finished c' q) := by
  refine ⟨h.naming, ?_⟩
  change (c'.decl cx.unit cx.policy).face :: q.adapters.map TypeDecl.face = _
  rw [hc, h.faces]
  rfl

/-- **From progress that is alike a step ends alike**, if it succeeds both
times. -/
def Repeats {β : Type} (R : β → β → Prop) (f : Step β) : Prop :=
  ∀ ⦃p q p' q' : Progress⦄ ⦃b c : β⦄, p.Alike q → f p = .ok (b, p') → f q = .ok (c, q') →
    R b c ∧ p'.Alike q'

theorem Repeats.mapM {α β : Type} {R : β → β → Prop} {f : α → Step β} {as : List α}
    (h : ∀ a ∈ as, Repeats R (f a)) : Repeats (List.Forall₂ R) (as.mapM f) := by
  induction as with
  | nil =>
    intro p q p' q' bs cs hpq hp hq
    cases hp
    cases hq
    exact ⟨.nil, hpq⟩
  | cons a as ih =>
    intro p q p' q' bs cs hpq hp hq
    rw [List.forall_mem_cons] at h
    rw [List.mapM_cons, bind_run_eq_ok] at hp hq
    obtain ⟨b, p₁, hb, hp⟩ := hp
    obtain ⟨bs, p₂, hbs, hp⟩ := bind_run_eq_ok.mp hp
    cases hp
    obtain ⟨c, q₁, hc, hq⟩ := hq
    obtain ⟨cs, q₂, hcs, hq⟩ := bind_run_eq_ok.mp hq
    cases hq
    obtain ⟨hbc, hpq₁⟩ := h.1 hpq hb hc
    obtain ⟨hrest, hpq₂⟩ := ih h.2 hpq₁ hbs hcs
    exact ⟨.cons hbc hrest, hpq₂⟩

section Trees

variable {cx : Context}

theorem repeats_exprs {es : List Expr}
    (h : ∀ e ∈ es, ∀ scope, Repeats Expr.Akin (lowerExpr cx scope e))
    (scope : Scope) : Repeats (List.Forall₂ Expr.Akin) (lowerExprs cx scope es) := by
  induction es with
  | nil =>
    intro p q p' q' bs cs hpq hp hq
    cases hp
    cases hq
    exact ⟨.nil, hpq⟩
  | cons e es ih =>
    intro p q p' q' bs cs hpq hp hq
    rw [List.forall_mem_cons] at h
    obtain ⟨e₁, p₁, es₁, he₁, hes₁, rfl⟩ := lowerExprs_cons_eq_ok hp
    obtain ⟨e₂, q₁, es₂, he₂, hes₂, rfl⟩ := lowerExprs_cons_eq_ok hq
    obtain ⟨he, hpq₁⟩ := h.1 scope hpq he₁ he₂
    obtain ⟨hes, hpq'⟩ := ih h.2 hpq₁ hes₁ hes₂
    exact ⟨.cons he hes, hpq'⟩

theorem repeats_stmts {ss : List Stmt}
    (h : ∀ st ∈ ss, ∀ scope, Repeats Stmt.Akin (lowerStmt cx scope st))
    (scope : Scope) : Repeats (List.Forall₂ Stmt.Akin) (lowerStmts cx scope ss) := by
  induction ss generalizing scope with
  | nil =>
    intro p q p' q' bs cs hpq hp hq
    cases hp
    cases hq
    exact ⟨.nil, hpq⟩
  | cons st ss ih =>
    intro p q p' q' bs cs hpq hp hq
    rw [List.forall_mem_cons] at h
    obtain ⟨st₁, p₁, ss₁, hst₁, hss₁, rfl⟩ := lowerStmts_cons_eq_ok hp
    obtain ⟨st₂, q₁, ss₂, hst₂, hss₂, rfl⟩ := lowerStmts_cons_eq_ok hq
    obtain ⟨hst, hpq₁⟩ := h.1 scope hpq hst₁ hst₂
    obtain ⟨hss, hpq'⟩ := ih h.2 _ hpq₁ hss₁ hss₂
    exact ⟨.cons hst hss, hpq'⟩

theorem repeats_part {part : Part}
    (h : part.All (fun e => ∀ scope, Repeats Expr.Akin (lowerExpr cx scope e))
      fun st => ∀ scope, Repeats Stmt.Akin (lowerStmt cx scope st)) (scope : Scope) :
    Repeats Part.Akin (lowerPart cx scope part) := by
  intro p q p' q' part₁ part₂ hpq hp hq
  cases part with
  | exprs bs es =>
    obtain ⟨es₁, p₁, hes₁, hp⟩ := map_run_eq_ok.mp hp
    cases hp
    obtain ⟨es₂, q₁, hes₂, hq⟩ := map_run_eq_ok.mp hq
    cases hq
    obtain ⟨hes, hpq'⟩ := repeats_exprs h _ hpq hes₁ hes₂
    exact ⟨Part.akin_exprs hes, hpq'⟩
  | stmts bs ss =>
    obtain ⟨ss₁, p₁, hss₁, hp⟩ := map_run_eq_ok.mp hp
    cases hp
    obtain ⟨ss₂, q₁, hss₂, hq⟩ := map_run_eq_ok.mp hq
    cases hq
    obtain ⟨hss, hpq'⟩ := repeats_stmts h _ hpq hss₁ hss₂
    exact ⟨Part.akin_stmts hss, hpq'⟩

/-- The parameters of the method that a lambda becomes, but for their
numbers. -/
theorem LambdaRun.face_params {scope : Scope} {l : Lambda} {start : Progress}
    (run : LambdaRun cx scope l start) :
    run.closure.params.map Param.face =
      (l.params.zip (run.sam.erasedParams.zip run.sam.params)).map fun x =>
        if x.1.ty = x.2.1 then x.1.face else ⟨0, x.1.name, x.2.1, true⟩ := by
  change (run.bridged.map (·.1)).map Param.face = _
  rw [List.map_map]
  refine map_eq_of_forall₂ ((forall₂_of_mapM_run_ok run.bridged_eq).imp ?_)
  rintro ⟨p, erased, inst⟩ r ⟨s, s', hr⟩
  dsimp only at hr
  rw [bridgeParam] at hr
  split at hr <;> rename_i hty <;> cases hr
  · exact (if_pos hty).symm
  · exact (if_neg hty).symm

/-- The parameters of the method that a method reference becomes, but for their
numbers. -/
theorem ReferenceRun.face_params {scope : Scope} {ref : MethodRef} {start : Progress}
    (run : ReferenceRun cx scope ref start) :
    run.params.map Param.face =
      run.sam.erasedParams.zipIdx.map fun x => ⟨0, "arg" ++ x.2.repr, x.1, true⟩ := by
  refine map_eq_of_forall₂ ((forall₂_of_mapM_run_ok run.params_eq).imp ?_)
  rintro ⟨erased, i⟩ p ⟨s, s', hp⟩
  cases hp
  rfl

/-- What a qualifier refers to depends on its object only as far as that is
`this`. -/
theorem resolve_of_akin {s : Site} {sam : FunctionalInterface} {ref : MethodRef}
    {cs cs' : List Expr}
    (hlen : cs.length = ref.qualifier.children.length) (h : List.Forall₂ Expr.Akin cs cs') :
    Reference.resolve s { ref with qualifier := ref.qualifier.refill cs' } sam =
      Reference.resolve s { ref with qualifier := ref.qualifier.refill cs } sam := by
  obtain ⟨qualifier, member, typeArgs, target, span⟩ := ref
  cases qualifier with
  | type | super => rfl
  | expr e t =>
    obtain ⟨c, rfl⟩ := List.length_eq_one_iff.mp hlen
    obtain ⟨c', hc, rfl⟩ : ∃ c', c.Akin c' ∧ cs' = [c'] := by
      rcases h with _ | ⟨hc, _ | _⟩
      exact ⟨_, hc, rfl⟩
    cases member with
    | new => rfl
    | method name =>
      change Reference.resolveBound s c' t name typeArgs sam =
        Reference.resolveBound s c t name typeArgs sam
      rw [Reference.resolveBound, Reference.resolveBound, hc.boundObject]

theorem akin_receiverOf (form : Reference.Form) {q : RefQualifier} {cs cs' : List Expr}
    (hlen : cs.length = q.children.length) (h : List.Forall₂ Expr.Akin cs cs') :
    List.Forall₂ Expr.Akin (receiverOf form (q.refill cs)).toList
      (receiverOf form (q.refill cs')).toList := by
  cases q with
  | type | super => exact List.forall₂_same.mpr fun e _ => .refl e
  | expr e t =>
    obtain ⟨c, rfl⟩ := List.length_eq_one_iff.mp hlen
    rcases h with _ | ⟨hc, _ | _⟩
    rcases form with _ | _ | ⟨_, _ | _⟩ | _ | _ | _
    case bound.value => exact .cons hc .nil
    all_goals exact .nil

/-- **The captures and faces of sites do not depend on where the numbers
start.** -/
theorem shapeSteps_repeats (cx : Context) : ShapeSteps
    (fun e => ∀ scope, Repeats Expr.Akin (lowerExpr cx scope e))
    (fun st => ∀ scope, Repeats Stmt.Akin (lowerStmt cx scope st)) where
  node e he hc scope := by
    intro p q p' q' e₁ e₂ hpq hp hq
    cases hsite : e.isSite with
    | false =>
      obtain ⟨cs₁, hcs₁, hlen₁, rfl⟩ := lowerExpr_eq_ok hsite hp
      obtain ⟨cs₂, hcs₂, hlen₂, rfl⟩ := lowerExpr_eq_ok hsite hq
      obtain ⟨hcs, hpq'⟩ := repeats_exprs hc scope hpq hcs₁ hcs₂
      exact ⟨Expr.akin_withChildren he hlen₁ hlen₂ hcs, hpq'⟩
    | true =>
      cases e
      case methodRef ref =>
        obtain ⟨run₁, rfl, rfl⟩ := exists_referenceRun hp
        obtain ⟨run₂, rfl, rfl⟩ := exists_referenceRun hq
        obtain ⟨cs₁, hcs₁, hq₁⟩ := run₁.exists_children
        obtain ⟨cs₂, hcs₂, hq₂⟩ := run₂.exists_children
        have hlen₁ := length_lowerExprs hcs₁
        obtain ⟨hcs, hinner⟩ := repeats_exprs hc scope (hpq.allocated cx) hcs₁ hcs₂
        have hsam : run₂.sam = run₁.sam := Except.ok.inj (run₂.sam_eq.symm.trans run₁.sam_eq)
        have hresolved : run₂.resolved = run₁.resolved := by
          have h := run₂.resolved_eq
          rw [hq₂, resolve_of_akin hlen₁ hcs, ← hq₁, hsam, run₁.resolved_eq] at h
          exact (Except.ok.inj h).symm
        have hcaptures : run₂.captures = run₁.captures := by
          rw [ReferenceRun.captures, ReferenceRun.captures, hresolved]
        refine ⟨Closure.akin_replacement hcaptures ?_,
          (hinner.sameSites run₁.sameSites run₂.sameSites).finished ?_⟩
        · rw [ReferenceRun.operands, ReferenceRun.operands, hcaptures, hresolved, hq₁, hq₂]
          exact CaptureSet.akin_operands (akin_receiverOf _ hlen₁ hcs)
        · refine Closure.face_decl ?_ rfl rfl hcaptures hsam ?_
          · exact congrArg (Naming.name · cx.unit cx.owner) hpq.naming
          · change run₂.params.map _ = run₁.params.map _
            rw [run₁.face_params, run₂.face_params, hsam]
      case lambda => cases he
      all_goals cases hsite
  lambda l hbody scope := by
    intro p q p' q' e₁ e₂ hpq hp hq
    obtain ⟨run₁, rfl, rfl⟩ := exists_lambdaRun hp
    obtain ⟨run₂, rfl, rfl⟩ := exists_lambdaRun hq
    obtain ⟨hb, hinner⟩ := repeats_part hbody scope (hpq.allocated cx)
      (lowerPart_of_lowerBody run₁.body_eq) (lowerPart_of_lowerBody run₂.body_eq)
    have hsam : run₂.sam = run₁.sam := Except.ok.inj (run₂.sam_eq.symm.trans run₁.sam_eq)
    have hcaptures : run₂.captures = run₁.captures := by
      have h := run₂.captures_eq
      rw [CaptureSet.ofLambda_of_akin hb, run₁.captures_eq] at h
      exact (Except.ok.inj h).symm
    have hoperands : run₂.operands = run₁.operands := by
      rw [LambdaRun.operands, LambdaRun.operands, hcaptures]
    refine ⟨Closure.akin_replacement hcaptures ?_,
      (hinner.sameSites run₁.sameSites run₂.sameSites).finished ?_⟩
    · rw [hoperands]
      exact List.forall₂_same.mpr fun e _ => .refl e
    · refine Closure.face_decl ?_ rfl rfl hcaptures hsam ?_
      · exact congrArg (Naming.name · cx.unit cx.owner) hpq.naming
      · rw [run₁.face_params, run₂.face_params, hsam]
  stmt st hparts scope := by
    intro p q p' q' st₁ st₂ hpq hp hq
    have hmap := Repeats.mapM fun part hpart => repeats_part (hparts part hpart) scope
    obtain ⟨hparts, hpq'⟩ := hmap hpq (lowerStmt_eq_ok hp) (lowerStmt_eq_ok hq)
    exact ⟨Stmt.akin_of_parts ((declared_lowerStmt hq).trans (declared_lowerStmt hp).symm) hparts,
      hpq'⟩

end Trees

theorem repeats_decl (u : CompilationUnit) (policy : SingletonInit) (d : TypeDecl) :
    Repeats (fun _ _ => True) (lowerDecl u policy d) := by
  intro p q p' q' d₁ d₂ hpq hp hq
  obtain ⟨run₁⟩ := exists_declRun hp
  obtain ⟨run₂⟩ := exists_declRun hq
  have hfield : ∀ f ∈ d.fields, Repeats (fun _ _ => True)
      (lowerField (declContext u policy d) f) := by
    intro f _ p q p' q' f₁ f₂ hpq hp hq
    obtain ⟨init₁, p₁, hinit₁, hp⟩ := bind_run_eq_ok.mp hp
    obtain ⟨init₂, q₁, hinit₂, hq⟩ := bind_run_eq_ok.mp hq
    cases hp
    cases hq
    rw [lowerOption_eq] at hinit₁ hinit₂
    obtain ⟨es₁, p₁, hes₁, h⟩ := map_run_eq_ok.mp hinit₁
    cases h
    obtain ⟨es₂, q₁, hes₂, h⟩ := map_run_eq_ok.mp hinit₂
    cases h
    exact ⟨trivial, (repeats_exprs ((shapeSteps_repeats _).option f.init) _ hpq hes₁ hes₂).2⟩
  have hinitializer : ∀ i ∈ d.initializers,
      Repeats (fun _ _ => True) (lowerInitializer (declContext u policy d) i) := by
    intro i _ p q p' q' i₁ i₂ hpq hp hq
    obtain ⟨b₁, p₁, hb₁, hp⟩ := bind_run_eq_ok.mp hp
    obtain ⟨b₂, q₁, hb₂, hq⟩ := bind_run_eq_ok.mp hq
    cases hp
    cases hq
    exact ⟨trivial, (repeats_stmts ((shapeSteps_repeats _).stmts i.body) _ hpq hb₁ hb₂).2⟩
  have hmethod : ∀ m ∈ d.methods, Repeats (fun _ _ => True)
      (lowerMethod (declContext u policy d) m) := by
    intro m _ p q p' q' m₁ m₂ hpq hp hq
    obtain ⟨b₁, p₁, hb₁, hp⟩ := bind_run_eq_ok.mp hp
    obtain ⟨b₂, q₁, hb₂, hq⟩ := bind_run_eq_ok.mp hq
    cases hp
    cases hq
    cases hm : m.body with
    | none =>
      rw [hm] at hb₁ hb₂
      cases hb₁
      cases hb₂
      exact ⟨trivial, hpq⟩
    | some b =>
      rw [hm, lowerBlock] at hb₁ hb₂
      obtain ⟨ss₁, p₂, hss₁, h⟩ := bind_run_eq_ok.mp hb₁
      cases h
      obtain ⟨ss₂, q₂, hss₂, h⟩ := bind_run_eq_ok.mp hb₂
      cases h
      exact ⟨trivial, (repeats_stmts ((shapeSteps_repeats _).stmts b) _ hpq hss₁ hss₂).2⟩
  have hfields := (Repeats.mapM hfield hpq run₁.fields_eq run₂.fields_eq).2
  have hinitializers :=
    (Repeats.mapM hinitializer hfields run₁.initializers_eq run₂.initializers_eq).2
  exact ⟨trivial, (Repeats.mapM hmethod hinitializers run₁.methods_eq run₂.methods_eq).2⟩

/-- **The faces of the adapters of a partition do not depend on where its
numbers start.** -/
theorem lowerPartition_faces {u : CompilationUnit} {policy : SingletonInit}
    {top next next' : ClassId}
    {first first' : LocalId} {r r' : PartitionResult}
    (h : lowerPartition u policy first top next = .ok r)
    (h' : lowerPartition u policy first' top next' = .ok r') :
    (r'.adapters.map TypeDecl.face).Perm (r.adapters.map TypeDecl.face) := by
  obtain ⟨stop, hrun, hadapters⟩ := lowerPartition_eq_ok h
  obtain ⟨stop', hrun', hadapters'⟩ := lowerPartition_eq_ok h'
  have hmap := Repeats.mapM fun d (_ : d ∈ declsOf u top) => repeats_decl u policy d
  have hstart : Progress.Alike ⟨next, first, [], []⟩ ⟨next', first', [], []⟩ := ⟨rfl, rfl⟩
  have hfaces := (hmap hstart hrun hrun').2.faces
  rw [hadapters, hadapters']
  calc (byId stop'.adapters).map TypeDecl.face
    _ |>.Perm (stop'.adapters.map TypeDecl.face) := (List.mergeSort_perm ..).map _
    _ |>.Perm (stop.adapters.map TypeDecl.face) := .of_eq hfaces
    _ |>.Perm ((byId stop.adapters).map TypeDecl.face) := (List.mergeSort_perm ..).symm.map _

end Lowering

end Closures
