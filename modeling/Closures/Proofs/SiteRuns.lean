import Closures.Proofs.TreeShape

/-!
# Runs of lowering

What a run of lowering that succeeds says about its result. A node that is no
site, and every statement, is kept, and what is below it is lowered in order
(`lowerExpr_eq_ok`, `lowerStmt_eq_ok`). A site goes through a fixed series of
stages, and each of them leaves something behind: the method to implement, the
lowered inside, the captures, the pieces of the new method. `LambdaRun` and
`ReferenceRun` are these traces. Every property of lowered trees is proved about
them, so that the monadic programs are taken apart only here.
-/

set_option autoImplicit false

namespace Closures

namespace Lowering

/-- The progress after a number and a name were taken. -/
def Context.allocated (cx : Context) (p : Progress) : Progress :=
  { p with nextAdapter := p.nextAdapter + 1, naming := p.naming.add cx.unit cx.owner }

/-- The name that is taken. -/
def Context.nameFor (cx : Context) (p : Progress) : String := p.naming.name cx.unit cx.owner

/-- The progress after an adapter was made. -/
def Context.finished (cx : Context) (c : Closure) (p : Progress) : Progress :=
  { p with adapters := c.decl cx.unit cx.policy :: p.adapters }

/-- Progress that differs in nothing but the locals that were taken. -/
def Progress.SameSites (p p' : Progress) : Prop := ∃ next, p' = { p with nextLocal := next }

theorem Progress.SameSites.refl (p : Progress) : p.SameSites p := ⟨p.nextLocal, rfl⟩

theorem Progress.SameSites.trans {p p' p'' : Progress} (h : p.SameSites p')
    (h' : p'.SameSites p'') :
    p.SameSites p'' := by
  obtain ⟨n, rfl⟩ := h
  obtain ⟨n', rfl⟩ := h'
  exact ⟨n', rfl⟩

theorem blame_run_eq_ok {α : Type} {span : Span} {x : Except Cause α} {p p' : Progress} {a : α} :
    blame span x p = .ok (a, p') ↔ x = .ok a ∧ p = p' := by
  cases x with
  | error cause => exact ⟨fun h => (nomatch h), fun h => (nomatch h.1)⟩
  | ok b =>
    change Except.ok (b, p) = .ok (a, p') ↔ _
    simp

/-! ## Nodes and statements -/

section Shape

variable {cx : Context} {scope : Scope} {p p' : Progress}

theorem lowerExprs_cons_eq_ok {e : Expr} {es es' : List Expr}
    (h : lowerExprs cx scope (e :: es) p = .ok (es', p')) :
    ∃ e' p₁ rest, lowerExpr cx scope e p = .ok (e', p₁) ∧
      lowerExprs cx scope es p₁ = .ok (rest, p') ∧ es' = e' :: rest := by
  rw [lowerExprs] at h
  obtain ⟨e', p₁, he, h⟩ := bind_run_eq_ok.mp h
  obtain ⟨rest, p₂, hes, h⟩ := bind_run_eq_ok.mp h
  cases h
  exact ⟨e', p₁, rest, he, hes, rfl⟩

theorem lowerStmts_cons_eq_ok {s : Stmt} {ss ss' : List Stmt}
    (h : lowerStmts cx scope (s :: ss) p = .ok (ss', p')) :
    ∃ s' p₁ rest, lowerStmt cx scope s p = .ok (s', p₁) ∧
      lowerStmts cx (Scope.enter scope (declares s)) ss p₁ = .ok (rest, p') ∧ ss' = s' :: rest := by
  rw [lowerStmts] at h
  obtain ⟨s', p₁, hs, h⟩ := bind_run_eq_ok.mp h
  obtain ⟨rest, p₂, hss, h⟩ := bind_run_eq_ok.mp h
  cases h
  exact ⟨s', p₁, rest, hs, hss, rfl⟩

theorem length_lowerExprs {es es' : List Expr} (h : lowerExprs cx scope es p = .ok (es', p')) :
    es'.length = es.length := by
  induction es generalizing p es' with
  | nil =>
    cases h
    rfl
  | cons e es ih =>
    obtain ⟨e', p₁, rest, -, hes, rfl⟩ := lowerExprs_cons_eq_ok h
    rw [List.length_cons, List.length_cons, ih hes]

theorem declares_lowerStmt {s s' : Stmt} (h : lowerStmt cx scope s p = .ok (s', p')) :
    declares s' = declares s := by
  rw [lowerStmt_eq] at h
  obtain ⟨ps, p₁, -, hs⟩ := map_run_eq_ok.mp h
  cases hs
  exact s.declares_withParts ps

/-- A lowered statement itself declares the same locals. -/
theorem declared_lowerStmt {s s' : Stmt} (h : lowerStmt cx scope s p = .ok (s', p')) :
    (Node.stmt s').declared = (Node.stmt s).declared := by
  rw [lowerStmt_eq] at h
  obtain ⟨ps, p₁, -, hs⟩ := map_run_eq_ok.mp h
  cases hs
  cases s
  case tryCatch body handler final => cases handler <;> rfl
  all_goals rfl

theorem declares_lowerStmts {ss ss' : List Stmt} (h : lowerStmts cx scope ss p = .ok (ss', p')) :
    ss'.map declares = ss.map declares := by
  induction ss generalizing scope p ss' with
  | nil =>
    cases h
    rfl
  | cons s ss ih =>
    obtain ⟨s', p₁, rest, hs, hss, rfl⟩ := lowerStmts_cons_eq_ok h
    rw [List.map_cons, List.map_cons, ih hss, declares_lowerStmt hs]

theorem like_lowerPart {part part' : Part} (h : lowerPart cx scope part p = .ok (part', p')) :
    part.Like part' := by
  cases part with
  | exprs bs es =>
    obtain ⟨es', p₁, hes, hpart⟩ := map_run_eq_ok.mp h
    cases hpart
    exact ⟨rfl, length_lowerExprs hes⟩
  | stmts bs ss =>
    obtain ⟨ss', p₁, hss, hpart⟩ := map_run_eq_ok.mp h
    cases hpart
    exact ⟨rfl, declares_lowerStmts hss⟩

/-- **An expression that is no site is kept, with its children lowered in
order.** -/
theorem lowerExpr_eq_ok {e e' : Expr} (he : e.isSite = false)
    (h : lowerExpr cx scope e p = .ok (e', p')) :
    ∃ cs, lowerExprs cx scope e.children p = .ok (cs, p') ∧ cs.length = e.children.length ∧
      e' = e.withChildren cs := by
  rw [lowerExpr_eq he] at h
  obtain ⟨cs, p₁, hcs, he'⟩ := map_run_eq_ok.mp h
  cases he'
  exact ⟨cs, hcs, length_lowerExprs hcs, rfl⟩

theorem parts_withParts_of_lowerParts {s : Stmt} {ps : List Part}
    (h : s.parts.mapM (lowerPart cx scope) p = .ok (ps, p')) : (s.withParts ps).parts = ps :=
  Stmt.parts_withParts ((forall₂_of_mapM_run_ok h).imp fun _ _ ⟨_, _, h⟩ => like_lowerPart h)

/-- **A statement is kept, with its parts lowered in order.** -/
theorem lowerStmt_eq_ok {s s' : Stmt} (h : lowerStmt cx scope s p = .ok (s', p')) :
    s.parts.mapM (lowerPart cx scope) p = .ok (s'.parts, p') := by
  rw [lowerStmt_eq] at h
  obtain ⟨ps, p₁, hps, hs⟩ := map_run_eq_ok.mp h
  cases hs
  rw [parts_withParts_of_lowerParts hps, hps]

/-- A lowered statement differs from the given one in its parts alone. -/
theorem eq_withParts_of_lowerStmt {s s' : Stmt} (h : lowerStmt cx scope s p = .ok (s', p')) :
    s' = s.withParts s'.parts := by
  rw [lowerStmt_eq] at h
  obtain ⟨ps, p₁, hps, hs⟩ := map_run_eq_ok.mp h
  cases hs
  rw [parts_withParts_of_lowerParts hps]

/-- The body of a lambda is lowered as the part it is. -/
theorem lowerPart_of_lowerBody {params : List Param} {b b' : LambdaBody}
    (h : lowerBody cx (Scope.enter scope params) b p = .ok (b', p')) :
    lowerPart cx scope (b.part params) p = .ok (b'.part params, p') := by
  cases b with
  | expr e =>
    rw [lowerBody] at h
    obtain ⟨e', p₁, he, h⟩ := bind_run_eq_ok.mp h
    cases h
    refine map_run_eq_ok.mpr ⟨[e'], p', ?_, rfl⟩
    simp only [lowerExprs]
    exact bind_run_eq_ok.mpr ⟨e', p', he, rfl⟩
  | block b =>
    rw [lowerBody] at h
    obtain ⟨ss, p₁, hss, h⟩ := bind_run_eq_ok.mp h
    cases h
    exact map_run_eq_ok.mpr ⟨ss, p', hss, rfl⟩

end Shape

/-! ## Lambdas -/

/-- What a parameter of a lambda becomes: itself, or a new parameter from which
it is declared. -/
inductive Bridge (p : Param) : Param × List Stmt → Prop where
  | same : Bridge p (p, [])
  | declared {incoming : Param} {w : Expr} (hw : (Expr.localGet incoming.id).Wraps w)
    (hfinal : incoming.effectivelyFinal = true) : Bridge p (incoming, [.declare p (some w)])

theorem bridgeParam_eq_ok {u : CompilationUnit} {p : Param} {erased inst : Ty} {s s' : Progress}
    {r : Param × List Stmt} (h : bridgeParam u p erased inst s = .ok (r, s')) :
    Bridge p r ∧ s.SameSites s' := by
  rw [bridgeParam] at h
  split at h
  · cases h
    exact ⟨.same, .refl s⟩
  · cases h
    exact ⟨.declared (.trans (.adaptValue ..) (.adaptValue ..)) rfl, _, rfl⟩

/-- The parameters of the method that a lambda becomes. -/
def bridgeParams (u : CompilationUnit) (params : List Param) (sam : FunctionalInterface) :
    Step (List (Param × List Stmt)) :=
  (params.zip (sam.erasedParams.zip sam.params)).mapM fun (p, erased, inst) =>
    bridgeParam u p erased inst

/-- The stages of the lowering of a lambda. -/
structure LambdaRun (cx : Context) (scope : Scope) (l : Lambda) (start : Progress) where
  sam : FunctionalInterface
  /-- The body after the sites in it have been replaced. -/
  body : LambdaBody
  inner : Progress
  captures : CaptureSet
  /-- The body as that of a method. -/
  stmts : List Stmt
  bridged : List (Param × List Stmt)
  outer : Progress
  sam_eq : FunctionalInterface.resolve cx.unit l.target = .ok sam
  arity : l.params.length = sam.params.length
  body_eq : lowerBody cx (Scope.enter scope l.params) l.body (cx.allocated start) =
    .ok (body, inner)
  captures_eq : CaptureSet.ofLambda (cx.site scope) l.params body = .ok captures
  stmts_eq : lambdaStatements cx.unit body l.bodyType sam = .ok stmts
  bridged_eq : bridgeParams cx.unit l.params sam inner = .ok (bridged, outer)

namespace LambdaRun

variable {cx : Context} {scope : Scope} {l : Lambda} {start : Progress}
  (run : LambdaRun cx scope l start)

/-- The lowered site. -/
def closure : Closure where
  name := cx.nameFor start
  adapter := start.nextAdapter
  enclosing := cx.owner
  span := l.span
  captures := run.captures
  sam := run.sam
  params := run.bridged.map (·.1)
  body := run.bridged.flatMap (·.2)
    ++ run.captures.redirectAll (cx.site scope) start.nextAdapter run.stmts

/-- What fills the fields of the adapter. -/
def operands : List Expr := run.captures.operands (cx.site scope) none

theorem sameSites : run.inner.SameSites run.outer :=
  invariant_of_mapM_run_ok (I := fun p => run.inner.SameSites p)
    (fun _ _ _ _ h hp => hp.trans (bridgeParam_eq_ok h).2) run.bridged_eq (.refl _)

/-- Each lambda parameter that meets a parameter of the method is bridged. -/
theorem forall₂_bridge : List.Forall₂ (fun (x : Param × Ty × Ty) r => Bridge x.1 r)
    (l.params.zip (run.sam.erasedParams.zip run.sam.params)) run.bridged :=
  (forall₂_of_mapM_run_ok run.bridged_eq).imp fun _ _ ⟨_, _, h⟩ => (bridgeParam_eq_ok h).1

theorem exists_bridge {r : Param × List Stmt} (hr : r ∈ run.bridged) : ∃ p, Bridge p r := by
  obtain ⟨x, -, h⟩ := exists_of_forall₂_right run.forall₂_bridge hr
  exact ⟨x.1, h⟩

end LambdaRun

/-- **Lowering a lambda goes through these stages.** -/
theorem exists_lambdaRun {cx : Context} {scope : Scope} {l : Lambda}
    {start stop : Progress} {e : Expr} (h : lowerExpr cx scope (.lambda l) start = .ok (e, stop)) :
    ∃ run : LambdaRun cx scope l start,
      e = run.closure.replacement run.operands ∧ stop = cx.finished run.closure run.outer := by
  obtain ⟨params, body, bodyType, target, span⟩ := l
  rw [lowerExpr] at h
  obtain ⟨⟨adapter, name⟩, p₀, hnew, h⟩ := bind_run_eq_ok.mp h
  cases hnew
  obtain ⟨sam, p, hrun, h⟩ := bind_run_eq_ok.mp h
  obtain ⟨hsam, rfl⟩ := blame_run_eq_ok.mp hrun
  obtain ⟨⟨⟩, p, hrun, h⟩ := bind_run_eq_ok.mp h
  obtain ⟨harity, rfl⟩ := blame_run_eq_ok.mp hrun
  obtain ⟨body', inner, hbody, h⟩ := bind_run_eq_ok.mp h
  rw [finishLambda] at h
  dsimp only at h
  obtain ⟨captures, p, hrun, h⟩ := bind_run_eq_ok.mp h
  obtain ⟨hcaptures, rfl⟩ := blame_run_eq_ok.mp hrun
  obtain ⟨stmts, p, hrun, h⟩ := bind_run_eq_ok.mp h
  obtain ⟨hstmts, rfl⟩ := blame_run_eq_ok.mp hrun
  obtain ⟨bridged, outer, hbridged, h⟩ := bind_run_eq_ok.mp h
  cases h
  have harity : params.length = sam.params.length := by
    rw [checkArity] at harity
    split at harity
    · assumption
    · cases harity
  exact ⟨⟨sam, body', _, captures, stmts, bridged, outer, hsam, harity, hbody, hcaptures, hstmts,
    hbridged⟩, rfl, rfl⟩

/-! ## Method references -/

/-- The parameters of the method that a method reference becomes. -/
def referenceParams (sam : FunctionalInterface) : Step (List Param) :=
  sam.erasedParams.zipIdx.mapM fun (erased, i) => Context.freshLocal ("arg" ++ i.repr) erased

/-- The arguments that the parameters make. -/
def referenceArgs (u : CompilationUnit) (sam : FunctionalInterface) (params : List Param) :
    List (Expr × Ty) :=
  (params.zip (sam.erasedParams.zip sam.params)).map fun (p, erased, inst) =>
    (adaptValue u (.localGet p.id) erased inst, inst)

theorem referenceArgs_wraps {u : CompilationUnit} {sam : FunctionalInterface} {params : List Param}
    {a : Expr × Ty} (h : a ∈ referenceArgs u sam params) :
    ∃ p ∈ params, (Expr.localGet p.id).Wraps a.1 := by
  obtain ⟨⟨p, erased, inst⟩, hmem, rfl⟩ := List.mem_map.mp h
  exact ⟨p, (List.of_mem_zip hmem).1, .adaptValue ..⟩

/-- The stages of the lowering of a method reference. -/
structure ReferenceRun (cx : Context) (scope : Scope) (ref : MethodRef) (start : Progress) where
  sam : FunctionalInterface
  /-- The qualifier after the sites in it have been replaced. -/
  qualifier : RefQualifier
  inner : Progress
  resolved : Reference
  params : List Param
  outer : Progress
  call : Expr
  body : List Stmt
  sam_eq : FunctionalInterface.resolve cx.unit ref.target = .ok sam
  qualifier_eq : lowerQualifier cx scope ref.qualifier (cx.allocated start) = .ok (qualifier, inner)
  resolved_eq : Reference.resolve (cx.site scope) { ref with qualifier } sam = .ok resolved
  params_eq : referenceParams sam inner = .ok (params, outer)
  call_eq : referenceCall cx.unit start.nextAdapter
    (CaptureSet.ofReference (cx.site scope) resolved.form) resolved
    (referenceArgs cx.unit sam params) = .ok call
  body_eq : returnValue cx.unit call resolved.result sam.returnType sam.erasedReturn = some body

namespace ReferenceRun

variable {cx : Context} {scope : Scope} {ref : MethodRef} {start : Progress}
  (run : ReferenceRun cx scope ref start)

/-- What the reference captures. -/
def captures : CaptureSet := CaptureSet.ofReference (cx.site scope) run.resolved.form

/-- The lowered site. -/
def closure : Closure where
  name := cx.nameFor start
  adapter := start.nextAdapter
  enclosing := cx.owner
  span := ref.span
  captures := run.captures
  sam := run.sam
  params := run.params
  body := run.body

/-- What fills the fields of the adapter. -/
def operands : List Expr :=
  run.captures.operands (cx.site scope) (receiverOf run.resolved.form run.qualifier)

theorem sameSites : run.inner.SameSites run.outer := by
  refine invariant_of_mapM_run_ok (I := fun p => run.inner.SameSites p) ?_ run.params_eq (.refl _)
  rintro ⟨erased, i⟩ p _ _ h hp
  cases h
  exact hp.trans ⟨_, rfl⟩

/-- The qualifier keeps its form. -/
theorem exists_children :
    ∃ cs, lowerExprs cx scope ref.qualifier.children (cx.allocated start) = .ok (cs, run.inner) ∧
      run.qualifier = ref.qualifier.refill cs := by
  have hq := run.qualifier_eq
  rw [lowerQualifier_eq] at hq
  obtain ⟨cs, p, hcs, heq⟩ := map_run_eq_ok.mp hq
  obtain ⟨hq, rfl⟩ := Prod.mk.inj heq
  exact ⟨cs, hcs, hq⟩

/-- What is in the qualifier is lowered in order. -/
theorem children_eq :
    lowerExprs cx scope ref.qualifier.children (cx.allocated start) =
      .ok (run.qualifier.children, run.inner) := by
  obtain ⟨cs, hcs, hq⟩ := run.exists_children
  rw [hq, RefQualifier.children_refill (length_lowerExprs hcs), hcs]

end ReferenceRun

/-- **Lowering a method reference goes through these stages.** -/
theorem exists_referenceRun {cx : Context} {scope : Scope} {ref : MethodRef} {start stop : Progress}
    {e : Expr} (h : lowerExpr cx scope (.methodRef ref) start = .ok (e, stop)) :
    ∃ run : ReferenceRun cx scope ref start,
      e = run.closure.replacement run.operands ∧ stop = cx.finished run.closure run.outer := by
  obtain ⟨qualifier, member, typeArgs, target, span⟩ := ref
  rw [lowerExpr] at h
  obtain ⟨⟨adapter, name⟩, p₀, hnew, h⟩ := bind_run_eq_ok.mp h
  cases hnew
  obtain ⟨sam, p, hrun, h⟩ := bind_run_eq_ok.mp h
  obtain ⟨hsam, rfl⟩ := blame_run_eq_ok.mp hrun
  obtain ⟨qualifier', inner, hqualifier, h⟩ := bind_run_eq_ok.mp h
  rw [finishReference] at h
  dsimp only at h
  obtain ⟨resolved, p, hrun, h⟩ := bind_run_eq_ok.mp h
  obtain ⟨hresolved, rfl⟩ := blame_run_eq_ok.mp hrun
  obtain ⟨params, outer, hparams, h⟩ := bind_run_eq_ok.mp h
  obtain ⟨call, p, hrun, h⟩ := bind_run_eq_ok.mp h
  obtain ⟨hcall, rfl⟩ := blame_run_eq_ok.mp hrun
  cases hbody : returnValue cx.unit call resolved.result sam.returnType sam.erasedReturn with
  | none =>
    rw [hbody] at h
    cases h
  | some body =>
    rw [hbody] at h
    cases h
    exact ⟨⟨sam, qualifier', _, resolved, params, outer, call, body, hsam, hqualifier, hresolved,
      hparams, hcall, hbody⟩, rfl, rfl⟩

end Lowering

end Closures
