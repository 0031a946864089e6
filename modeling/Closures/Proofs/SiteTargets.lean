import Mathlib.Data.List.Basic
import Closures.Proofs.AdapterCorrespondence
import Closures.Proofs.AdapterMethods
import Closures.Proofs.RunInduction

/-!
# The target types of sites

A site has a target type, and its adapter implements the single abstract method
of that type. This module keeps track of which adapter belongs to which target:
adapters are numbered in the order in which the walk meets their sites
(`Lowering.Assigns`), so the `k`-th new type of a lowered unit is the adapter
for the `k`-th target (`Lowering.UnitRun.exists_target`). It has one method,
whose parameters have the erased types that the abstract method declares
(`Lowering.Serves`).
-/

set_option autoImplicit false

namespace Closures

/-! ## Targets in trees -/

/-- The target type of a node that is a site. -/
def Node.target? : Node → Option Ty
  | .expr (.lambda l) => some l.target
  | .expr (.methodRef r) => some r.target
  | _ => none

/-- The target types of the sites among nodes, in order. -/
def targets (ns : List Node) : List Ty := ns.filterMap Node.target?

/-- The target types of the sites in a declaration. -/
def TypeDecl.targets (d : TypeDecl) : List Ty := Closures.targets d.nodes

/-- The target types of the sites in a unit: partitions by their top-level
types, then declarations as in the unit, then pre-order. -/
def CompilationUnit.targets (u : CompilationUnit) : List Ty :=
  (Lowering.tops u).flatMap fun c => (Lowering.declsOf u c).flatMap TypeDecl.targets

/-- The target types of the sites in an expression. -/
def Expr.targets (e : Expr) : List Ty := Closures.targets e.nodes

/-- The target types of the sites in a statement. -/
def Stmt.targets (s : Stmt) : List Ty := Closures.targets (s.walk fun _ => true)

/-- The target types of the sites in a part. -/
def Part.targets (p : Part) : List Ty := Closures.targets (p.walk fun _ => true)

theorem targets_cons (n : Node) (ns : List Node) :
    targets (n :: ns) = n.target?.toList ++ targets ns := by
  rw [targets, targets, List.filterMap_cons]
  cases n.target? <;> rfl

theorem targets_flatMap {α : Type} (f : α → List Node) (as : List α) :
    targets (as.flatMap f) = as.flatMap fun a => targets (f a) :=
  List.filterMap_flatMap

theorem Expr.targets_eq {e : Expr} (he : e.isLambda = false) :
    e.targets = (Node.expr e).target?.toList ++ e.children.flatMap Expr.targets := by
  rw [targets, nodes, walk_eq _ he, Node.reach, if_pos rfl, targets_cons, targets_flatMap]
  rfl

theorem Expr.targets_lambda (l : Lambda) :
    (Expr.lambda l).targets = l.target :: (l.body.part l.params).targets := by
  obtain ⟨ps, b, bt, t, s⟩ := l
  rw [targets, nodes, walk, Node.reach, if_pos rfl, targets_cons, LambdaBody.walk_eq _ ps]
  rfl

theorem Stmt.targets_eq (s : Stmt) : s.targets = s.parts.flatMap Part.targets := by
  rw [targets, walk_eq, Node.reach, if_pos rfl, targets_cons, targets_flatMap]
  rfl

theorem Part.targets_exprs (bs : List Param) (es : List Expr) :
    (Part.exprs bs es).targets = es.flatMap Expr.targets := by
  rw [targets, walk, Expr.walkList_eq, targets_flatMap]
  rfl

theorem Part.targets_stmts (bs : List Param) (ss : List Stmt) :
    (Part.stmts bs ss).targets = ss.flatMap Stmt.targets := by
  rw [targets, walk, Stmt.walkAll_eq, targets_flatMap]
  rfl

/-- The nodes of a declaration are those of its code. -/
theorem TypeDecl.nodes_eq (d : TypeDecl) : d.nodes = d.parts.flatMap (Part.walk fun _ => true) := by
  have hfield : ∀ f : Field, Expr.walkOption (fun _ => true) f.init =
      Part.walk (fun _ => true) (.exprs [] f.init.toList) := by
    intro f
    rw [Part.walk, Expr.walkOption_eq, Expr.walkList_eq]
  have hmethod : ∀ m : Method, Stmt.walkOption (fun _ => true) m.body =
      (m.body.toList.map (Part.stmts m.params)).flatMap (Part.walk fun _ => true) := by
    intro m
    cases m.body <;> simp [Stmt.walkOption, Part.walk]
  simp only [nodes, parts, List.flatMap_append, List.flatMap_assoc, List.flatMap_singleton, hfield,
    hmethod]
  rfl

theorem TypeDecl.targets_eq (d : TypeDecl) : d.targets = d.parts.flatMap Part.targets := by
  rw [targets, nodes_eq, targets_flatMap]
  rfl

/-- There are as many targets as sites. -/
theorem TypeDecl.length_targets (d : TypeDecl) : d.targets.length = d.siteCount := by
  rw [targets, Closures.targets, List.length_filterMap_eq_countP, siteCount]
  refine List.countP_congr fun n _ => ?_
  rcases n with s | e
  · rfl
  · cases e <;> rfl

/-! ## Parameters of adapters -/

namespace Lowering

theorem ty_bridgeParam {u : CompilationUnit} {p : Param} {erased inst : Ty} {s s' : Progress}
    {r : Param × List Stmt} (h : bridgeParam u p erased inst s = .ok (r, s')) :
      r.1.ty = erased := by
  rw [bridgeParam] at h
  split at h
  · cases h
    assumption
  · cases h
    rfl

/-- The method of a lambda takes the erased types. -/
theorem LambdaRun.ty_params {cx : Context} {scope : Scope} {l : Lambda} {start : Progress}
    (run : LambdaRun cx scope l start) (hu : cx.unit.NumbersMethods) :
    run.closure.params.map (·.ty) = run.sam.erasedParams := by
  have hlen := FunctionalInterface.length_erasedParams hu run.sam_eq
  have hty : run.bridged.map (·.1.ty) =
      (l.params.zip (run.sam.erasedParams.zip run.sam.params)).map (·.2.1) := by
    refine map_eq_of_forall₂ ((forall₂_of_mapM_run_ok run.bridged_eq).imp ?_)
    rintro ⟨p, erased, inst⟩ r ⟨s, s', h⟩
    exact ty_bridgeParam h
  calc run.closure.params.map (·.ty)
      = run.bridged.map (·.1.ty) := List.map_map
    _ = ((l.params.zip (run.sam.erasedParams.zip run.sam.params)).map Prod.snd).map Prod.fst := by
        rw [hty, List.map_map]
        rfl
    _ = run.sam.erasedParams := by
        rw [List.map_snd_zip (by simp [hlen, run.arity]), List.map_fst_zip (Nat.le_of_eq hlen)]

/-- The method of a method reference takes the erased types. -/
theorem ReferenceRun.ty_params {cx : Context} {scope : Scope} {ref : MethodRef} {start : Progress}
    (run : ReferenceRun cx scope ref start) :
    run.closure.params.map (·.ty) = run.sam.erasedParams := by
  have hty : run.params.map (·.ty) = run.sam.erasedParams.zipIdx.map Prod.fst := by
    refine map_eq_of_forall₂ ((forall₂_of_mapM_run_ok run.params_eq).imp ?_)
    rintro ⟨erased, i⟩ p ⟨s, s', h⟩
    cases h
    rfl
  exact hty.trans (List.zipIdx_map_fst ..)

/-! ## Adapters and targets -/

/-- A declaration is the adapter of a site with a target: its method takes the
erased types that the single abstract method of the target declares. -/
inductive Serves (u : CompilationUnit) : TypeDecl → Ty → Prop where
  | intro {target : Ty} (policy : SingletonInit) (c : Closure)
    (resolved : FunctionalInterface.resolve u target = .ok c.sam)
    (params : c.params.map (·.ty) = c.sam.erasedParams) : Serves u (c.decl u policy) target

/-- **A piece of lowering assigns adapters to targets**: one to each, numbered
in order. -/
structure Assigns (u : CompilationUnit) (targets : List Ty) (p p' : Progress)
    (new : List (TypeDecl × Ty)) : Prop where
  adapters : p'.adapters.Perm (new.map (·.1) ++ p.adapters)
  targets : new.map (·.2) = targets
  next : p'.nextAdapter = p.nextAdapter + new.length.toUInt32
  numbered : ∀ (i : Nat) (x : TypeDecl × Ty), new[i]? = some x →
    x.1.id = p.nextAdapter + i.toUInt32
  serves : ∀ x ∈ new, Serves u x.1 x.2

namespace Assigns

variable {u : CompilationUnit} {p p₁ p₂ p' : Progress} {ts ts' : List Ty}
  {new new' : List (TypeDecl × Ty)}

theorem refl (p : Progress) : Assigns u [] p p [] where
  adapters := .refl _
  targets := rfl
  next := (UInt32.add_zero _).symm
  numbered _ _ h := nomatch h
  serves _ h := nomatch h

theorem append (h : Assigns u ts p p₁ new) (h' : Assigns u ts' p₁ p' new') :
    Assigns u (ts ++ ts') p p' (new ++ new') where
  adapters := by
    rw [List.map_append, List.append_assoc]
    refine h'.adapters.trans ?_
    refine (h.adapters.append_left _).trans ?_
    rw [← List.append_assoc, ← List.append_assoc]
    exact List.perm_append_comm.append_right _
  targets := by rw [List.map_append, h.targets, h'.targets]
  next := by rw [h'.next, h.next, List.length_append, add_toUInt32_add]
  numbered i x hx := by
    rw [List.getElem?_append] at hx
    split at hx
    · exact h.numbered i x hx
    · -- numbers of the second piece go on from those of the first
      rename_i hi
      rw [h'.numbered _ x hx, h.next, ← add_toUInt32_add]
      congr 2
      omega
  serves := List.forall_mem_append.mpr ⟨h.serves, h'.serves⟩

/-- **A site takes the next number** before those inside it do. -/
theorem site {cx : Context} {c : Closure} {target : Ty}
    (h : Assigns cx.unit ts (cx.allocated p) p₁ new) (hsame : p₁.SameSites p₂)
    (hid : c.adapter = p.nextAdapter) (hserves : Serves cx.unit (c.decl cx.unit cx.policy) target) :
    Assigns cx.unit (target :: ts) p (cx.finished c p₂)
      ((c.decl cx.unit cx.policy, target) :: new) := by
  obtain ⟨next, rfl⟩ := hsame
  refine ⟨h.adapters.cons _, congrArg (target :: ·) h.targets, ?_, ?_,
    List.forall_mem_cons.mpr ⟨hserves, h.serves⟩⟩
  · rw [List.length_cons, Nat.add_comm, add_toUInt32_add]
    exact h.next
  · rintro (_ | i) x hx
    · cases hx
      exact hid.trans (UInt32.add_zero _).symm
    · rw [h.numbered i x hx, Nat.add_comm, add_toUInt32_add]
      rfl

/-- What was there before does not matter, but for the number to start from. -/
theorem rebase (h : Assigns u ts p p' new) {q : Progress} (hq : q.nextAdapter = p.nextAdapter) :
    Assigns u ts q { p' with adapters := new.map (·.1) ++ q.adapters } new where
  adapters := .refl _
  targets := h.targets
  next := hq ▸ h.next
  numbered := hq ▸ h.numbered
  serves := h.serves

end Assigns

/-- Adapters are assigned to the targets of what is lowered. -/
def AssignsTo (u : CompilationUnit) {α β : Type} (targets : α → List Ty) (a : α) (_ : β)
    (p p' : Progress) : Prop := ∃ new, Assigns u (targets a) p p' new

namespace AssignsTo

variable {u : CompilationUnit} {p p' : Progress}

theorem along {α β : Type} {targets : α → List Ty} {as : List α} {bs : List β}
    (h : Along (AssignsTo u targets) as bs p p') :
    AssignsTo u (List.flatMap targets) as bs p p' := by
  induction h with
  | nil p => exact ⟨[], .refl p⟩
  | cons hr _ ih =>
    obtain ⟨new, hnew⟩ := hr
    obtain ⟨new', hnew'⟩ := ih
    exact ⟨_, hnew.append hnew'⟩

theorem part {part part' : Part}
    (h : PartAlong (AssignsTo u Expr.targets) (AssignsTo u Stmt.targets) part part' p p') :
    AssignsTo u Part.targets part part' p p' := by
  cases h with
  | exprs bs h =>
    obtain ⟨new, hnew⟩ := along h
    rw [← Part.targets_exprs bs] at hnew
    exact ⟨new, hnew⟩
  | stmts bs h =>
    obtain ⟨new, hnew⟩ := along h
    rw [← Part.targets_stmts bs] at hnew
    exact ⟨new, hnew⟩

end AssignsTo

theorem runSteps_assignsTo (cx : Context) (hu : cx.unit.NumbersMethods) :
    RunSteps (AssignsTo cx.unit Expr.targets) (AssignsTo cx.unit Stmt.targets) cx where
  node {e cs p p'} hsite _ h := by
    obtain ⟨new, hnew⟩ := AssignsTo.along h
    refine ⟨new, ?_⟩
    rw [Expr.targets_eq (by cases e <;> first | rfl | cases hsite)]
    cases e <;> first | exact hnew | cases hsite
  lambda run h := by
    obtain ⟨new, hnew⟩ := AssignsTo.part h
    rw [AssignsTo, Expr.targets_lambda]
    exact ⟨_, hnew.site run.sameSites rfl (.intro _ _ run.sam_eq (run.ty_params hu))⟩
  methodRef run h := by
    obtain ⟨new, hnew⟩ := AssignsTo.along h
    rw [AssignsTo, Expr.targets_eq rfl]
    exact ⟨_, hnew.site run.sameSites rfl (.intro _ _ run.sam_eq run.ty_params)⟩
  stmt _ h := by
    rw [AssignsTo, Stmt.targets_eq]
    exact AssignsTo.along (h.imp AssignsTo.part)

section Units

variable {u v : CompilationUnit} {policy : SingletonInit} {summary : Summary}

theorem assignsTo_decl (hu : u.NumbersMethods) {d d' : TypeDecl} {p p' : Progress}
    (h : lowerDecl u policy d p = .ok (d', p')) : AssignsTo u TypeDecl.targets d d' p p' := by
  rw [AssignsTo, TypeDecl.targets_eq]
  have hsteps := fun isStatic => runSteps_assignsTo (declContext u policy d isStatic) hu
  exact AssignsTo.along ((RunSteps.decl hsteps h).imp AssignsTo.part)

theorem length_targets_declsOf (u : CompilationUnit) (c : ClassId) :
    ((declsOf u c).flatMap TypeDecl.targets).length = siteCount u c := by
  rw [siteCount]
  induction declsOf u c with
  | nil => rfl
  | cons d ds ih =>
    rw [List.flatMap_cons, List.length_append, ih, d.length_targets, List.foldr_cons]

/-- Partitions without sites have no targets. -/
theorem targets_activeTops (u : CompilationUnit) :
    ((activeTops u).flatMap fun c => (declsOf u c).flatMap TypeDecl.targets) = u.targets := by
  rw [CompilationUnit.targets, activeTops]
  induction tops u with
  | nil => rfl
  | cons t ts ih =>
    rw [List.filter_cons, List.flatMap_cons]
    split
    · rw [List.flatMap_cons, ih]
    · rename_i h
      have hzero : siteCount u t = 0 := by simpa using h
      rw [← length_targets_declsOf, List.length_eq_zero_iff] at hzero
      rw [hzero, ih]
      rfl

/-- **Adapters are assigned to the targets of a unit**, numbered from the first
free number on. -/
theorem UnitRun.assigns (run : UnitRun u policy v summary) (hu : u.NumbersMethods) :
    ∃ new : List (TypeDecl × Ty), run.adapters.Perm (new.map (·.1)) ∧ new.map (·.2) = u.targets ∧
      (∀ (i : Nat) (x : TypeDecl × Ty), new[i]? = some x →
        x.1.id = u.types.length.toUInt32 + i.toUInt32) ∧
      ∀ x ∈ new, Serves u x.1 x.2 := by
  suffices h : ∃ new stop, (run.results.flatMap (·.adapters)).Perm (new.map (·.1)) ∧
      Assigns u ((activeTops u).flatMap fun c => (declsOf u c).flatMap TypeDecl.targets)
        ⟨u.types.length.toUInt32, firstLocal u, [], []⟩ stop new by
    obtain ⟨new, stop, hperm, hnew⟩ := h
    rw [targets_activeTops] at hnew
    exact ⟨new, (List.mergeSort_perm ..).trans hperm, hnew.targets, hnew.numbered, hnew.serves⟩
  have hresults := run.results_eq
  generalize run.results = rs at hresults ⊢
  generalize u.types.length.toUInt32 = next at hresults ⊢
  generalize activeTops u = ts at hresults ⊢
  induction ts generalizing next rs with
  | nil =>
    cases hresults
    exact ⟨[], _, .nil, .refl _⟩
  | cons t ts ih =>
    rw [number] at hresults
    cases hresults with
    | @cons _ r _ rs hr hrs =>
      obtain ⟨stop, hdecls, hadapters⟩ := lowerPartition_eq_ok hr
      obtain ⟨new, hfirst⟩ := AssignsTo.along (.of_mapM hdecls fun _ _ _ _ _ => assignsTo_decl hu)
      obtain ⟨new', stop', hperm, hrest⟩ := ih _ _ hrs
      have hlen : new.length = siteCount u t := by
        rw [← length_targets_declsOf, ← hfirst.targets, List.length_map]
      have hnext : stop.nextAdapter = next + (siteCount u t).toUInt32 := by rw [← hlen, hfirst.next]
      refine ⟨new ++ new', _, ?_, hfirst.append (hrest.rebase hnext)⟩
      rw [List.flatMap_cons, List.map_append, hadapters]
      have hstop := hfirst.adapters
      rw [List.append_nil] at hstop
      exact ((List.mergeSort_perm ..).trans hstop).append hperm

/-- **The new types are the adapters for the targets, in order.** -/
theorem UnitRun.exists_target (run : UnitRun u policy v summary) (hu : u.NumbersMethods)
    (hroom : u.types.length + summary.sites ≤ 2 ^ 32) {k : Nat} {d : TypeDecl}
    (hd : run.adapters[k]? = some d) :
      ∃ target, u.targets[k]? = some target ∧ Serves u d target := by
  obtain ⟨new, hperm, htargets, hnumbered, hserves⟩ := run.assigns hu
  have hmem : d ∈ new.map (·.1) := hperm.mem_iff.mp (List.mem_of_getElem? hd)
  obtain ⟨x, hx, rfl⟩ := List.mem_map.mp hmem
  obtain ⟨i, hi⟩ := List.mem_iff_getElem?.mp hx
  have hlen : new.length = summary.sites := by
    rw [← run.length_adapters hroom, hperm.length_eq, List.length_map]
  have hlt := (List.getElem?_eq_some_iff.mp hi).1
  -- the numbers do not wrap around, so an adapter stands at the place of its number
  have hid := run.toNat_id_adapters hroom hd
  rw [hnumbered i x hi, ← toUInt32_add] at hid
  have hwrap : (u.types.length + i).toUInt32.toNat = u.types.length + i :=
    Nat.mod_eq_of_lt (by omega)
  have hik : i = k := by omega
  subst hik
  refine ⟨x.2, ?_, hserves x hx⟩
  rw [← htargets, List.getElem?_map, hi]
  rfl

end Units

end Lowering

end Closures
