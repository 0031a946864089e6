import Closures.Proofs.UnitLowering

/-!
# Induction along runs of lowering

Lowering walks through a tree from left to right, and its progress goes along.
`Along` says that of a list: each element is lowered from the progress that
those before it left. A relation between what is lowered, what comes out and the
progress before and after holds of every run if it holds of a node, a statement
and a site whenever it holds along what is inside (`RunSteps`). The monadic
programs do not show up any more.

A declaration is lowered as the list of its members (`TypeDecl.parts`,
`RunSteps.decl`).
-/

set_option autoImplicit false

namespace Closures

namespace Lowering

/-! ## Along a list -/

/-- Each element of a list becomes one of another, from the progress that those
before it left. -/
inductive Along {α β : Type} (R : α → β → Progress → Progress → Prop) :
    List α → List β → Progress → Progress → Prop where
  | nil (p : Progress) : Along R [] [] p p
  | cons {a : α} {b : β} {as : List α} {bs : List β} {p p₁ p' : Progress} (h : R a b p p₁)
    (hs : Along R as bs p₁ p') : Along R (a :: as) (b :: bs) p p'

namespace Along

variable {α β γ δ : Type} {R : α → β → Progress → Progress → Prop}
  {R' : γ → δ → Progress → Progress → Prop} {as as' : List α} {bs bs' : List β} {p p₁ p' : Progress}

theorem append (h : Along R as bs p p₁) (h' : Along R as' bs' p₁ p') :
    Along R (as ++ as') (bs ++ bs') p p' := by
  induction h with
  | nil => exact h'
  | cons hr _ ih => exact .cons hr (ih h')

theorem imp {R' : α → β → Progress → Progress → Prop} (h : Along R as bs p p')
    (hR : ∀ {a b p p'}, R a b p p' → R' a b p p') : Along R' as bs p p' := by
  induction h with
  | nil => exact .nil _
  | cons hr _ ih => exact .cons (hR hr) ih

/-- A run through a list goes along it. -/
theorem of_mapM {f : α → Step β} (h : as.mapM f p = .ok (bs, p'))
    (hf : ∀ a ∈ as, ∀ b p p', f a p = .ok (b, p') → R a b p p') : Along R as bs p p' := by
  induction as generalizing p bs with
  | nil =>
    cases h
    exact .nil _
  | cons a as ih =>
    rw [List.mapM_cons, bind_run_eq_ok] at h
    obtain ⟨b, p₁, hb, h⟩ := h
    obtain ⟨rest, p₂, hrest, h⟩ := bind_run_eq_ok.mp h
    cases h
    rw [List.forall_mem_cons] at hf
    exact .cons (hf.1 b p p₁ hb) (ih hrest hf.2)

/-- What goes along a list goes along all its pieces. -/
theorem flatMap {f : α → List γ} {g : β → List δ} (h : Along R as bs p p')
    (hR : ∀ {a b p p'}, R a b p p' → Along R' (f a) (g b) p p') :
    Along R' (as.flatMap f) (bs.flatMap g) p p' := by
  induction h with
  | nil => exact .nil _
  | cons hr _ ih => exact (hR hr).append ih

end Along

/-! ## Along a tree -/

section Steps

variable (E : Expr → Expr → Progress → Progress → Prop)
    (S : Stmt → Stmt → Progress → Progress → Prop)

/-- A part becomes another along its expressions or statements. -/
inductive PartAlong : Part → Part → Progress → Progress → Prop where
  | exprs {es es' : List Expr} {p p' : Progress} (bs : List Param) (h : Along E es es' p p') :
    PartAlong (.exprs bs es) (.exprs bs es') p p'
  | stmts {ss ss' : List Stmt} {p p' : Progress} (bs : List Param) (h : Along S ss ss' p p') :
    PartAlong (.stmts bs ss) (.stmts bs ss') p p'

/-- What makes relations hold of every run of lowering. -/
structure RunSteps (cx : Context) : Prop where
  node : ∀ {e : Expr} {cs : List Expr} {p p' : Progress}, e.isSite = false →
    cs.length = e.children.length → Along E e.children cs p p' → E e (e.withChildren cs) p p'
  lambda : ∀ {scope : Scope} {l : Lambda} {start : Progress} (run : LambdaRun cx scope l start),
    PartAlong E S (l.body.part l.params) (run.body.part l.params) (cx.allocated start) run.inner →
    E (.lambda l) (run.closure.replacement run.operands) start (cx.finished run.closure run.outer)
  methodRef : ∀ {scope : Scope} {ref : MethodRef} {start : Progress}
    (run : ReferenceRun cx scope ref start),
    Along E ref.qualifier.children run.qualifier.children (cx.allocated start) run.inner →
    E (.methodRef ref) (run.closure.replacement run.operands) start
      (cx.finished run.closure run.outer)
  stmt : ∀ {st st' : Stmt} {p p' : Progress}, st' = st.withParts st'.parts →
    Along (PartAlong E S) st.parts st'.parts p p' → S st st' p p'

end Steps

namespace RunSteps

variable {E : Expr → Expr → Progress → Progress → Prop}
    {S : Stmt → Stmt → Progress → Progress → Prop}
  {cx : Context}

theorem along_exprs {es : List Expr}
    (h : ∀ e ∈ es, ∀ scope e' p p', lowerExpr cx scope e p = .ok (e', p') → E e e' p p')
    {scope : Scope} {es' : List Expr} {p p' : Progress}
    (hrun : lowerExprs cx scope es p = .ok (es', p')) : Along E es es' p p' := by
  induction es generalizing p es' with
  | nil =>
    cases hrun
    exact .nil _
  | cons e es ih =>
    rw [List.forall_mem_cons] at h
    obtain ⟨e', p₁, rest, he, hrest, rfl⟩ := lowerExprs_cons_eq_ok hrun
    exact .cons (h.1 scope e' p p₁ he) (ih h.2 hrest)

theorem along_stmts {ss : List Stmt}
    (h : ∀ st ∈ ss, ∀ scope st' p p', lowerStmt cx scope st p = .ok (st', p') → S st st' p p')
    {scope : Scope} {ss' : List Stmt} {p p' : Progress}
    (hrun : lowerStmts cx scope ss p = .ok (ss', p')) : Along S ss ss' p p' := by
  induction ss generalizing scope p ss' with
  | nil =>
    cases hrun
    exact .nil _
  | cons st ss ih =>
    rw [List.forall_mem_cons] at h
    obtain ⟨st', p₁, rest, hst, hrest, rfl⟩ := lowerStmts_cons_eq_ok hrun
    exact .cons (h.1 scope st' p p₁ hst) (ih h.2 hrest)

theorem along_part {part part' : Part}
    (h : part.All (fun e => ∀ scope e' p p', lowerExpr cx scope e p = .ok (e', p') → E e e' p p')
      fun st => ∀ scope st' p p', lowerStmt cx scope st p = .ok (st', p') → S st st' p p')
    {scope : Scope} {p p' : Progress} (hrun : lowerPart cx scope part p = .ok (part', p')) :
    PartAlong E S part part' p p' := by
  cases part with
  | exprs bs es =>
    obtain ⟨es', p₁, hes, hpart⟩ := map_run_eq_ok.mp hrun
    cases hpart
    exact .exprs bs (along_exprs h hes)
  | stmts bs ss =>
    obtain ⟨ss', p₁, hss, hpart⟩ := map_run_eq_ok.mp hrun
    cases hpart
    exact .stmts bs (along_stmts h hss)

/-- **Induction along runs.** -/
theorem shapeSteps (h : RunSteps E S cx) : ShapeSteps
    (fun e => ∀ scope e' p p', lowerExpr cx scope e p = .ok (e', p') → E e e' p p')
    (fun st => ∀ scope st' p p', lowerStmt cx scope st p = .ok (st', p') → S st st' p p') where
  node e he hc scope e' p p' hrun := by
    cases hsite : e.isSite with
    | false =>
      obtain ⟨cs, hcs, hlen, rfl⟩ := lowerExpr_eq_ok hsite hrun
      exact h.node hsite hlen (along_exprs hc hcs)
    | true =>
      cases e
      case methodRef ref =>
        obtain ⟨run, rfl, rfl⟩ := exists_referenceRun hrun
        exact h.methodRef run (along_exprs hc run.children_eq)
      case lambda => cases he
      all_goals cases hsite
  lambda l hbody scope e' p p' hrun := by
    obtain ⟨run, rfl, rfl⟩ := exists_lambdaRun hrun
    exact h.lambda run (along_part hbody (lowerPart_of_lowerBody run.body_eq))
  stmt st hparts scope st' p p' hrun :=
    h.stmt (eq_withParts_of_lowerStmt hrun)
      (.of_mapM (lowerStmt_eq_ok hrun) fun part hpart _ _ _ => along_part (hparts part hpart))

theorem exprs (h : RunSteps E S cx) {scope : Scope} {es es' : List Expr} {p p' : Progress}
    (hrun : lowerExprs cx scope es p = .ok (es', p')) : Along E es es' p p' :=
  along_exprs (fun e _ => h.shapeSteps.expr e) hrun

theorem stmts (h : RunSteps E S cx) {scope : Scope} {ss ss' : List Stmt} {p p' : Progress}
    (hrun : lowerStmts cx scope ss p = .ok (ss', p')) : Along S ss ss' p p' :=
  along_stmts (h.shapeSteps.stmts ss) hrun

end RunSteps

end Lowering

/-! ## Along a declaration -/

/-- The code of a declaration, member by member. -/
def TypeDecl.parts (d : TypeDecl) : List Part :=
  d.fields.flatMap (fun f => [.exprs [] f.init.toList])
    ++ (d.initializers.flatMap (fun i => [.stmts [] i.body])
      ++ d.methods.flatMap fun m => m.body.toList.map (.stmts m.params))

namespace Lowering

section Decl

variable {E : Expr → Expr → Progress → Progress → Prop}
    {S : Stmt → Stmt → Progress → Progress → Prop}
  {p p' : Progress}

variable (E S) in
/-- The members of a declaration become others in order, and nothing but their
code changes. -/
structure MembersAlong (d d' : TypeDecl) (p p' : Progress) where
  afterFields : Progress
  afterInitializers : Progress
  fields : Along (fun f f' p p' => f' = { f with init := f'.init } ∧
    PartAlong E S (.exprs [] f.init.toList) (.exprs [] f'.init.toList) p p') d.fields d'.fields p
    afterFields
  initializers : Along (fun i i' p p' => i' = { i with body := i'.body } ∧
    PartAlong E S (.stmts [] i.body) (.stmts [] i'.body) p p') d.initializers d'.initializers
    afterFields afterInitializers
  methods : Along (fun m m' p p' => m' = { m with body := m'.body } ∧
    Along (PartAlong E S) (m.body.toList.map (.stmts m.params))
      (m'.body.toList.map (.stmts m'.params))
      p p') d.methods d'.methods afterInitializers p'
  rest_eq : d' = { d with
    fields := d'.fields, initializers := d'.initializers, methods := d'.methods }

/-- **Lowering a declaration goes along its members.** -/
theorem RunSteps.members {u : CompilationUnit} {policy : SingletonInit} {d d' : TypeDecl}
    (h : ∀ isStatic, RunSteps E S (declContext u policy d isStatic))
    (hrun : lowerDecl u policy d p = .ok (d', p')) : Nonempty (MembersAlong E S d d' p p') := by
  obtain ⟨run⟩ := exists_declRun hrun
  refine ⟨run.afterFields, run.afterInitializers, .of_mapM run.fields_eq ?_,
    .of_mapM run.initializers_eq ?_, .of_mapM run.methods_eq ?_, run.rest_eq⟩
  · intro f _ f' p p' h'
    obtain ⟨init, p₁, hinit, h'⟩ := bind_run_eq_ok.mp h'
    cases h'
    rw [lowerOption_eq] at hinit
    obtain ⟨es, p₁, hes, h'⟩ := map_run_eq_ok.mp hinit
    cases h'
    rw [toList_head? (length_lowerExprs hes)]
    exact ⟨rfl, .exprs [] ((h _).exprs hes)⟩
  · intro i _ i' p p' h'
    obtain ⟨body, p₁, hbody, h'⟩ := bind_run_eq_ok.mp h'
    cases h'
    exact ⟨rfl, .stmts [] ((h _).stmts hbody)⟩
  · intro m _ m' p p' h'
    obtain ⟨body, p₁, hbody, h'⟩ := bind_run_eq_ok.mp h'
    cases h'
    refine ⟨rfl, ?_⟩
    cases hm : m.body with
    | none =>
      rw [hm] at hbody
      cases hbody
      exact .nil _
    | some b =>
      rw [hm, lowerBlock] at hbody
      obtain ⟨b', p₁, hb, h'⟩ := bind_run_eq_ok.mp hbody
      cases h'
      exact .cons (.stmts _ ((h _).stmts hb)) (.nil _)

/-- Lowering a declaration goes along its code. -/
theorem RunSteps.decl {u : CompilationUnit} {policy : SingletonInit} {d d' : TypeDecl}
    (h : ∀ isStatic, RunSteps E S (declContext u policy d isStatic))
    (hrun : lowerDecl u policy d p = .ok (d', p')) :
    Along (PartAlong E S) d.parts d'.parts p p' := by
  obtain ⟨members⟩ := RunSteps.members h hrun
  refine Along.append (members.fields.flatMap fun hr => .cons hr.2 (.nil _)) ?_
  refine Along.append (members.initializers.flatMap fun hr => .cons hr.2 (.nil _)) ?_
  exact members.methods.flatMap fun hr => hr.2

end Decl

end Lowering

end Closures
