import Closures.Proofs.SameCode
import Closures.Proofs.UnitLowering

/-!
# The singleton policy in lowering

The policy says when the shared instance of an adapter is created. Lowering
hands it on to the record of each adapter and does not look at it, so under
another policy it ends in the same way, with the same unit but for these records
(`lower_policy`). Evaluation does not look at them either
(`CompilationUnit.SameCode`): all that the policy can change is what the start
of a session creates.
-/

set_option autoImplicit false

namespace Closures

/-! ## Another time for shared instances -/

/-- The same, with shared instances created as a policy says. -/
def Instantiation.retime (policy : SingletonInit) : Instantiation → Instantiation
  | .singleton _ => .singleton policy
  | .perEvaluation => .perEvaluation

/-- The same declaration, with a shared instance created as a policy says. -/
def TypeDecl.retime (policy : SingletonInit) (d : TypeDecl) : TypeDecl :=
  { d with adapter := d.adapter.map fun a =>
    { a with instantiation := a.instantiation.retime policy } }

/-- The adapter of a site under another policy. -/
theorem Closure.retime_decl (u : CompilationUnit) (policy policy' : SingletonInit) (c : Closure) :
    (c.decl u policy).retime policy' = c.decl u policy' := by
  have hinst : (c.instantiation policy).retime policy' = c.instantiation policy' := by
    unfold Closure.instantiation
    split <;> rfl
  simp only [TypeDecl.retime, Closure.decl, Option.map_some, Closure.info, hinst]

namespace Lowering

theorem isPerEvaluation_retime (policy : SingletonInit) (d : TypeDecl) :
    isPerEvaluation (d.retime policy) = isPerEvaluation d := by
  rw [isPerEvaluation, isPerEvaluation, TypeDecl.retime, Option.any_map]
  congr 1
  funext a
  cases h : a.instantiation <;> rfl

/-- What a lowering did does not tell the policy. -/
theorem Summary.ofAdapters_retime (sites : Nat) (policy : SingletonInit) (ds : List TypeDecl) :
    Summary.ofAdapters sites (ds.map (TypeDecl.retime policy)) = Summary.ofAdapters sites ds := by
  have hper : isPerEvaluation ∘ TypeDecl.retime policy = isPerEvaluation :=
    funext (isPerEvaluation_retime policy)
  have hnot : (fun d => !isPerEvaluation d) ∘ TypeDecl.retime policy = fun d =>
      !isPerEvaluation d := by
    funext d
    rw [Function.comp_apply, isPerEvaluation_retime]
  simp only [Summary.ofAdapters, List.countP_map, List.map_map, hper, hnot]
  rfl

/-- Progress with the adapters of another policy. -/
def Progress.retime (policy : SingletonInit) (p : Progress) : Progress :=
  { p with adapters := p.adapters.map (TypeDecl.retime policy) }

/-- Two steps that do the same, the second one under the given policy. -/
structure Retimes (policy : SingletonInit) {β : Type} (f f' : Step β) : Prop where
  run : ∀ p : Progress, f' (p.retime policy) = (fun r => (r.1, r.2.retime policy)) <$> f p

namespace Retimes

variable {policy : SingletonInit} {α β : Type}

protected theorem pure (b : β) : Retimes policy (pure b) (pure b) := ⟨fun _ => rfl⟩

protected theorem throw (e : LoweringError) : Retimes policy (throw e : Step β) (throw e) :=
  ⟨fun _ => rfl⟩

protected theorem bind {f f' : Step α} {g g' : α → Step β} (hf : Retimes policy f f')
    (hg : ∀ a, Retimes policy (g a) (g' a)) : Retimes policy (f >>= g) (f' >>= g') := by
  constructor
  intro p
  change (f' (p.retime policy) >>= fun r => g' r.1 r.2) = _ <$> (f p >>= fun r => g r.1 r.2)
  rw [hf.run p]
  cases f p with
  | error e => rfl
  | ok r => exact (hg r.1).run r.2

protected theorem map {f f' : Step α} (g : α → β) (hf : Retimes policy f f') :
    Retimes policy (g <$> f) (g <$> f') := by
  rw [map_eq_pure_bind, map_eq_pure_bind]
  exact hf.bind fun a => .pure (g a)

protected theorem mapM {f f' : α → Step β} {as : List α}
    (h : ∀ a ∈ as, Retimes policy (f a) (f' a)) :
    Retimes policy (as.mapM f) (as.mapM f') := by
  induction as with
  | nil => exact .pure []
  | cons a as ih =>
    rw [List.forall_mem_cons] at h
    rw [List.mapM_cons, List.mapM_cons]
    exact h.1.bind fun b => (ih h.2).bind fun bs => .pure (b :: bs)

protected theorem blame (span : Span) (x : Except Cause β) :
    Retimes policy (Lowering.blame span x) (Lowering.blame span x) := by
  cases x with
  | error cause => exact .throw _
  | ok b => exact .pure b

theorem freshLocal (name : String) (ty : Ty) :
    Retimes policy (Context.freshLocal name ty) (Context.freshLocal name ty) := ⟨fun _ => rfl⟩

end Retimes

/-- A place in the lowering under another policy. -/
def Context.retime (policy : SingletonInit) (cx : Context) : Context := { cx with policy }

section Sites

variable (policy : SingletonInit) (cx : Context)

theorem retimes_allocate : Retimes policy cx.allocate (cx.retime policy).allocate :=
  ⟨fun _ => rfl⟩

theorem retimes_finish (c : Closure) (operands : List Expr) :
    Retimes policy (cx.finish c operands) ((cx.retime policy).finish c operands) := by
  constructor
  intro p
  have hdecl := c.retime_decl cx.unit cx.policy policy
  change Except.ok (c.replacement operands, _) = Except.ok (c.replacement operands, _)
  simp only [Progress.retime, List.map_cons, hdecl]
  rfl

theorem retimes_bridgeParam (u : CompilationUnit) (p : Param) (erased instantiated : Ty) :
    Retimes policy (bridgeParam u p erased instantiated) (bridgeParam u p erased instantiated) := by
  unfold bridgeParam
  split
  · exact .pure _
  · exact (Retimes.freshLocal ..).bind fun _ => .pure _

theorem retimes_finishLambda (scope : Scope) (adapter : ClassId) (name : String)
    (sam : FunctionalInterface) (l : Lambda) :
    Retimes policy (finishLambda cx scope adapter name sam l)
      (finishLambda (cx.retime policy) scope adapter name sam l) := by
  refine (Retimes.blame ..).bind fun captures => (Retimes.blame ..).bind fun stmts => ?_
  refine Retimes.bind (.mapM fun x _ => ?_) fun bridged => retimes_finish ..
  exact retimes_bridgeParam ..

theorem retimes_finishReference (scope : Scope) (adapter : ClassId) (name : String)
    (sam : FunctionalInterface) (ref : MethodRef) :
    Retimes policy (finishReference cx scope adapter name sam ref)
      (finishReference (cx.retime policy) scope adapter name sam ref) := by
  refine (Retimes.blame ..).bind fun r =>
    Retimes.bind (.mapM fun x _ => .freshLocal ..) fun params => ?_
  refine (Retimes.blame ..).bind fun call => ?_
  dsimp only [Context.retime]
  cases returnValue cx.unit call r.result sam.returnType sam.erasedReturn with
  | none => exact .throw _
  | some body => exact retimes_finish ..

end Sites

section Trees

variable {policy : SingletonInit} {cx : Context}

theorem retimes_exprs {es : List Expr}
    (h : ∀ e ∈ es, ∀ scope, Retimes policy (lowerExpr cx scope e)
      (lowerExpr (cx.retime policy) scope e))
    (scope : Scope) :
    Retimes policy (lowerExprs cx scope es) (lowerExprs (cx.retime policy) scope es) := by
  induction es with
  | nil => exact .pure []
  | cons e es ih =>
    rw [List.forall_mem_cons] at h
    rw [lowerExprs, lowerExprs]
    exact (h.1 scope).bind fun e' => (ih h.2).bind fun es' => .pure (e' :: es')

theorem retimes_stmts {ss : List Stmt}
    (h : ∀ st ∈ ss, ∀ scope, Retimes policy (lowerStmt cx scope st)
      (lowerStmt (cx.retime policy) scope st))
    (scope : Scope) :
    Retimes policy (lowerStmts cx scope ss) (lowerStmts (cx.retime policy) scope ss) := by
  induction ss generalizing scope with
  | nil => exact .pure []
  | cons st ss ih =>
    rw [List.forall_mem_cons] at h
    rw [lowerStmts, lowerStmts]
    exact (h.1 scope).bind fun st' => (ih h.2 _).bind fun ss' => .pure (st' :: ss')

theorem retimes_part {part : Part}
    (h : part.All
      (fun e => ∀ scope, Retimes policy (lowerExpr cx scope e)
        (lowerExpr (cx.retime policy) scope e))
      fun st => ∀ scope, Retimes policy (lowerStmt cx scope st)
        (lowerStmt (cx.retime policy) scope st))
    (scope : Scope) :
    Retimes policy (lowerPart cx scope part) (lowerPart (cx.retime policy) scope part) := by
  cases part with
  | exprs bs es => exact .map _ (retimes_exprs h _)
  | stmts bs ss => exact .map _ (retimes_stmts h _)

/-- **Lowering code does not look at the policy.** -/
theorem shapeSteps_retimes (policy : SingletonInit) (cx : Context) : ShapeSteps
    (fun e => ∀ scope, Retimes policy (lowerExpr cx scope e) (lowerExpr (cx.retime policy) scope e))
    (fun st => ∀ scope, Retimes policy (lowerStmt cx scope st)
      (lowerStmt (cx.retime policy) scope st)) where
  node e he hc scope := by
    cases hsite : e.isSite with
    | false =>
      rw [lowerExpr_eq hsite, lowerExpr_eq hsite]
      exact .map _ (retimes_exprs hc scope)
    | true =>
      cases e
      case methodRef r =>
        obtain ⟨q, m, ts, t, s⟩ := r
        rw [lowerExpr, lowerExpr]
        refine (retimes_allocate policy cx).bind fun x => (Retimes.blame ..).bind fun sam => ?_
        rw [lowerQualifier_eq, lowerQualifier_eq]
        exact (Retimes.map _ (retimes_exprs hc scope)).bind fun q' => retimes_finishReference ..
      all_goals cases hsite <;> cases he
  lambda l hl scope := by
    obtain ⟨ps, b, bt, t, s⟩ := l
    rw [lowerExpr, lowerExpr]
    refine (retimes_allocate policy cx).bind fun x => (Retimes.blame ..).bind fun sam =>
      (Retimes.blame ..).bind fun _ => Retimes.bind ?_ fun b' => retimes_finishLambda ..
    cases b with
    | expr e =>
      rw [lowerBody, lowerBody]
      exact (hl e List.mem_cons_self _).bind fun e' => .pure _
    | block b =>
      rw [lowerBody, lowerBody]
      exact (retimes_stmts hl _).bind fun b' => .pure _
  stmt st h scope := by
    rw [lowerStmt_eq, lowerStmt_eq]
    exact .map _ (.mapM fun part hpart => retimes_part (h part hpart) scope)

end Trees

variable (u : CompilationUnit) (policy policy' : SingletonInit)

theorem retimes_decl (d : TypeDecl) : Retimes policy' (lowerDecl u policy d)
    (lowerDecl u policy' d) := by
  have hstmts : ∀ (cx : Context) scope ss,
      Retimes policy' (lowerStmts cx scope ss) (lowerStmts (cx.retime policy') scope ss) :=
    fun cx scope ss => retimes_stmts ((shapeSteps_retimes policy' cx).stmts ss) scope
  refine Retimes.bind (.mapM fun f _ => Retimes.bind ?_ fun _ => .pure _) fun fields =>
    Retimes.bind (.mapM fun i _ => Retimes.bind ?_ fun _ => .pure _) fun initializers =>
    Retimes.bind (.mapM fun m _ => Retimes.bind ?_ fun _ => .pure _) fun methods => .pure _
  · rw [lowerOption_eq, lowerOption_eq]
    exact .map _ (retimes_exprs ((shapeSteps_retimes policy' _).option f.init) [])
  · exact hstmts _ _ _
  · cases m.body with
    | none => exact .pure _
    | some b => exact Retimes.bind (hstmts _ _ b) fun _ => .pure _

/-- A lowered partition with the adapters of another policy. -/
def PartitionResult.retime (policy : SingletonInit) (r : PartitionResult) : PartitionResult :=
  { r with adapters := r.adapters.map (TypeDecl.retime policy) }

theorem byId_retime (policy : SingletonInit) (ds : List TypeDecl) :
    byId (ds.map (TypeDecl.retime policy)) = (byId ds).map (TypeDecl.retime policy) :=
  (List.map_mergeSort (f := TypeDecl.retime policy) fun _ _ _ _ => rfl).symm

theorem lowerPartition_policy (first : LocalId) (top next : ClassId) :
    lowerPartition u policy' first top next =
      PartitionResult.retime policy' <$> lowerPartition u policy first top next := by
  have hdecls : Retimes policy' ((declsOf u top).mapM (lowerDecl u policy))
      ((declsOf u top).mapM (lowerDecl u policy')) :=
        .mapM fun d _ => retimes_decl u policy policy' d
  have hrun := hdecls.run ⟨next, first, [], []⟩
  have hstart : Progress.retime policy' ⟨next, first, [], []⟩ = ⟨next, first, [], []⟩ := rfl
  rw [hstart] at hrun
  rw [lowerPartition, lowerPartition, StateT.run, StateT.run, hrun]
  cases (declsOf u top).mapM (lowerDecl u policy) ⟨next, first, [], []⟩ with
  | error e => rfl
  | ok r => exact congrArg (fun ds => Except.ok (PartitionResult.mk r.1 ds)) (byId_retime policy' _)

end Lowering

/-- A run through a list of which every result is changed by a function. -/
theorem mapM_map_result {ε α β : Type} (g : β → β) (f : α → Except ε β) (as : List α) :
    (as.mapM fun a => g <$> f a) = List.map g <$> as.mapM f := by
  induction as with
  | nil => rfl
  | cons a as ih =>
    rw [List.mapM_cons, List.mapM_cons, ih]
    cases f a with
    | error e => rfl
    | ok b => cases as.mapM f <;> rfl

/-- The same unit, in which adapters that are not among the first `given` types
have their shared instances created as a policy says. -/
def CompilationUnit.retime (given : Nat) (policy : SingletonInit) (v : CompilationUnit) :
    CompilationUnit :=
  { v with types := v.types.take given ++ (v.types.drop given).map (TypeDecl.retime policy) }

open Lowering in
/-- **Under another policy lowering ends in the same way**: with the same error,
or with the same summary and the same unit but for the records of the new
adapters. -/
theorem lower_policy (u : CompilationUnit) (policy policy' : SingletonInit) :
    u.lower policy' = (fun r => (r.1.retime u.types.length policy', r.2)) <$> u.lower policy := by
  have hresults : (partitions u).mapM
        (fun p => lowerPartition u policy' (firstLocal u) p.top p.firstAdapter) =
      List.map (PartitionResult.retime policy') <$>
        (partitions u).mapM fun p => lowerPartition u policy (firstLocal u)
          p.top p.firstAdapter := by
    rw [← mapM_map_result]
    exact congrArg (fun f => (partitions u).mapM f)
      (funext fun p => lowerPartition_policy u policy policy' _ _ _)
  rw [CompilationUnit.lower, CompilationUnit.lower, hresults]
  cases (partitions u).mapM fun p => lowerPartition u policy (firstLocal u)
    p.top p.firstAdapter with
  | error e => rfl
  | ok rs =>
    have htypes : (rs.map (PartitionResult.retime policy')).flatMap (·.types) =
        rs.flatMap (·.types) := by
      rw [List.flatMap_map]
      rfl
    have hadapters : byId ((rs.map (PartitionResult.retime policy')).flatMap (·.adapters)) =
        (byId (rs.flatMap (·.adapters))).map (TypeDecl.retime policy') := by
      rw [← byId_retime, List.flatMap_map, List.map_flatMap]
      rfl
    have hlen : (place u.types (rs.flatMap (·.types))).length = u.types.length := length_place
    change Except.ok _ = Except.ok _
    simp only [htypes, hadapters, Summary.ofAdapters_retime, CompilationUnit.retime,
      List.take_left' hlen, List.drop_left' hlen]

/-! ## Lowering with either policy -/

/-- A shared instance that is made on demand is not made at the start. -/
theorem TypeDecl.isEager_onDemand (d : TypeDecl) :
    Session.isEager (d.retime .onDemand) = false := by
  rw [Session.isEager, TypeDecl.retime, Option.any_map, Option.any_eq_false]
  intro a _
  cases a.instantiation <;> simp [Instantiation.retime]

/-- **The two policies lead to the same code**, and what is created at the start
when instances are made on demand is also created when they are made at the
start. -/
theorem lower_sameCode {u v v' : CompilationUnit} {summary summary' : Lowering.Summary}
    (h : u.lower .onDemand = .ok (v, summary)) (h' : u.lower .atStart = .ok (v', summary')) :
    v.SameCode v' ∧ List.Forall₂
      (fun d d' => d'.id = d.id ∧ (Session.isEager d = true → Session.isEager d' = true))
      v.types v'.types := by
  have hv' := lower_policy u .onDemand .atStart
  have hv := lower_policy u .onDemand .onDemand
  rw [h', h] at hv'
  rw [h] at hv
  cases hv'
  -- The adapters of the one unit are made on demand, since another such policy
  -- does not change them.
  have hdemand : v.types.drop u.types.length =
      (v.types.drop u.types.length).map (TypeDecl.retime .onDemand) := by
    have htypes : v.types = v.types.take u.types.length ++
        (v.types.drop u.types.length).map (TypeDecl.retime .onDemand) :=
      congrArg (fun r => r.1.types) (Except.ok.inj hv)
    nth_rewrite 1 [← List.take_append_drop u.types.length v.types] at htypes
    exact List.append_cancel_left htypes
  refine ⟨?_, ?_⟩
  · have hbare : TypeDecl.bare ∘ TypeDecl.retime .atStart = TypeDecl.bare := rfl
    rw [CompilationUnit.SameCode, CompilationUnit.bare, CompilationUnit.bare,
      CompilationUnit.retime]
    simp only [List.map_append, List.map_map, hbare]
    rw [← List.map_append, List.take_append_drop]
  · rw [CompilationUnit.retime]
    nth_rewrite 1 [← List.take_append_drop u.types.length v.types]
    refine List.rel_append (List.forall₂_same.mpr fun d _ => ⟨rfl, id⟩) ?_
    rw [List.forall₂_map_right_iff]
    refine List.forall₂_same.mpr fun d hd => ⟨rfl, fun heager => ?_⟩
    rw [hdemand] at hd
    obtain ⟨d₀, -, rfl⟩ := List.mem_map.mp hd
    rw [d₀.isEager_onDemand] at heager
    cases heager

end Closures
