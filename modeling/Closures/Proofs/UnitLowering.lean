import Mathlib.Data.List.Sort
import Closures.Lowering.Program
import Closures.Proofs.Hierarchy
import Closures.Proofs.SiteRuns

/-!
# Runs of lowering on whole units

A unit is lowered partition by partition. This module says what a run that
succeeds is made of, down to the single declaration:

* the partitions that are lowered are those of the **active** top-level types,
  the ones with sites (`partitions_eq`), in increasing order (`tops_pairwise`);
* their declarations are, up to order, the declarations of the unit that are
  lowered (`activeDecls_perm`);
* the lowered declarations take the places of the given ones, and the others
  stay (`place_perm`), so what refers to a given declaration or to its members
  means the same as before (`UnitRun.extendedBy`).
-/

set_option autoImplicit false

namespace Closures

/-- Every declaration stands at its number. -/
def InPlace (types : List TypeDecl) : Prop :=
  ∀ (i : Nat) (d : TypeDecl), types[i]? = some d → d.id.toNat = i

theorem inPlace_iff {types : List TypeDecl} :
    InPlace types ↔ types.map (·.id.toNat) = List.range types.length := by
  constructor
  · intro h
    refine List.ext_getElem? fun i => ?_
    rw [List.getElem?_map]
    cases hi : types[i]? with
    | none => rw [List.getElem?_eq_none (by simpa using hi)]; rfl
    | some d =>
      have hlt := (List.getElem?_eq_some_iff.mp hi).1
      rw [List.getElem?_range hlt]
      exact congrArg some (h i d hi)
  · intro h i d hd
    have hi : (types.map (·.id.toNat))[i]? = some d.id.toNat := by rw [List.getElem?_map, hd]; rfl
    rw [h, List.getElem?_range (List.getElem?_eq_some_iff.mp hd).1] at hi
    exact (Option.some.inj hi).symm

instance (types : List TypeDecl) : Decidable (InPlace types) := decidable_of_iff' _ inPlace_iff

/-- A unit whose declarations stand at their numbers. -/
def CompilationUnit.IsArena (u : CompilationUnit) : Prop := InPlace u.types

instance (u : CompilationUnit) : Decidable u.IsArena := inferInstanceAs (Decidable (InPlace _))

namespace Lowering

/-! ## Lists -/

theorem nodup_eraseDups {α : Type} [BEq α] [LawfulBEq α] (xs : List α) : xs.eraseDups.Nodup := by
  cases xs with
  | nil => exact List.nodup_nil
  | cons x xs =>
    rw [List.eraseDups_cons, List.nodup_cons]
    refine ⟨fun hx => ?_, nodup_eraseDups _⟩
    rw [List.mem_eraseDups, List.mem_filter] at hx
    simp at hx
termination_by xs.length
decreasing_by exact Nat.lt_succ_of_le (List.length_filter_le ..)

/-- Grouping by a key is a rearrangement. -/
theorem flatMap_filter_perm {α κ : Type} [BEq κ] [LawfulBEq κ] (key : α → κ)
    (xs : List α) {ks : List κ} (hks : ks.Nodup) :
    (ks.flatMap fun k => xs.filter (key · == k)).Perm (xs.filter fun x => ks.contains (key x)) := by
  induction ks with
  | nil =>
    rw [List.filter_eq_nil_iff.mpr (by simp)]
    exact .nil
  | cons k ks ih =>
    rw [List.nodup_cons] at hks
    -- What belongs to `k` is taken apart from the rest.
    have hsplit :=
      List.filter_append_perm (key · == k) (xs.filter fun x => (k :: ks).contains (key x))
    refine List.Perm.trans ?_ hsplit
    rw [List.filter_filter, List.filter_filter, List.flatMap_cons]
    have hk : xs.filter (fun x => (key x == k) && (k :: ks).contains (key x)) =
        xs.filter (key · == k) := by
      refine List.filter_congr fun x _ => ?_
      cases h : key x == k <;> simp [eq_of_beq, h]
    have hrest : xs.filter (fun x => !(key x == k) && (k :: ks).contains (key x)) =
        xs.filter fun x => ks.contains (key x) := by
      refine List.filter_congr fun x _ => ?_
      cases h : key x == k with
      | true =>
        have := eq_of_beq h
        simp [this, hks.1]
      | false => simp [h]
    rw [hk, hrest]
    exact (ih hks.2).append_left _

theorem mergeSort_pairwise_le {α : Type} (key : α → ClassId) (xs : List α) :
    (xs.mergeSort fun a b => key a ≤ key b).Pairwise fun a b => key a ≤ key b := by
  have hsorted := @List.pairwise_mergeSort α (fun a b => decide (key a ≤ key b))
    (fun a b c hab hbc => decide_eq_true
      (UInt32.le_trans (of_decide_eq_true hab) (of_decide_eq_true hbc)))
    (fun a b => by simpa using UInt32.le_total (key a) (key b))
  exact (hsorted xs).imp fun h => of_decide_eq_true h

/-! ## Declarations -/

/-- Where the members of a declaration are lowered. -/
def declContext (u : CompilationUnit) (policy : SingletonInit) (d : TypeDecl) (isStatic : Bool) :
    Context := ⟨u, policy, d.id, u.enclosingChain d.id isStatic⟩

/-- Replace the sites in the initializer of a field. -/
def lowerField (cx : Bool → Context) (f : Field) : Step Field := do
  return { f with init := ← lowerOption (cx f.isStatic) [] f.init }

/-- Replace the sites in an initializer block. -/
def lowerInitializer (cx : Bool → Context) (i : Initializer) : Step Initializer := do
  return { i with body := ← lowerStmts (cx i.isStatic) [] i.body }

/-- Replace the sites in the body of a method. -/
def lowerMethod (cx : Bool → Context) (m : Method) : Step Method := do
  return { m with body := ← lowerBlock (cx m.isStatic) (Scope.enter [] m.params) m.body }

/-- The stages of the lowering of a declaration. -/
structure DeclRun (u : CompilationUnit) (policy : SingletonInit) (d d' : TypeDecl)
    (start stop : Progress) where
  afterFields : Progress
  afterInitializers : Progress
  fields_eq : d.fields.mapM (lowerField (declContext u policy d)) start =
    .ok (d'.fields, afterFields)
  initializers_eq : d.initializers.mapM (lowerInitializer (declContext u policy d)) afterFields =
    .ok (d'.initializers, afterInitializers)
  methods_eq : d.methods.mapM (lowerMethod (declContext u policy d)) afterInitializers =
    .ok (d'.methods, stop)
  /-- Nothing but the members changes. -/
  rest_eq : d' = { d with
    fields := d'.fields, initializers := d'.initializers, methods := d'.methods }

/-- **Lowering a declaration goes through its members in order.** -/
theorem exists_declRun {u : CompilationUnit} {policy : SingletonInit} {d d' : TypeDecl}
    {start stop : Progress} (h : lowerDecl u policy d start = .ok (d', stop)) :
    Nonempty (DeclRun u policy d d' start stop) := by
  rw [lowerDecl] at h
  obtain ⟨fields, p₁, hfields, h⟩ := bind_run_eq_ok.mp h
  obtain ⟨initializers, p₂, hinitializers, h⟩ := bind_run_eq_ok.mp h
  obtain ⟨methods, p₃, hmethods, h⟩ := bind_run_eq_ok.mp h
  cases h
  exact ⟨p₁, p₂, hfields, hinitializers, hmethods, rfl⟩

/-- Lowering leaves the shape of a declaration. -/
theorem DeclRun.sameShape {u : CompilationUnit} {policy : SingletonInit} {d d' : TypeDecl}
    {start stop : Progress} (run : DeclRun u policy d d' start stop) : d.SameShape d' := by
  have hfields : d'.fields.map (·.isStatic) = d.fields.map (·.isStatic) := by
    refine map_eq_of_forall₂ ((forall₂_of_mapM_run_ok run.fields_eq).imp ?_)
    rintro f f' ⟨p, p', h⟩
    obtain ⟨init, p₁, -, h⟩ := bind_run_eq_ok.mp h
    cases h
    rfl
  have hmethods : d'.methods.map (·.isStatic) = d.methods.map (·.isStatic) := by
    refine map_eq_of_forall₂ ((forall₂_of_mapM_run_ok run.methods_eq).imp ?_)
    rintro m m' ⟨p, p', h⟩
    obtain ⟨body, p₁, -, h⟩ := bind_run_eq_ok.mp h
    cases h
    rfl
  have hrest := run.rest_eq
  generalize d'.fields = fields at hrest hfields
  generalize d'.initializers = initializers at hrest
  generalize d'.methods = methods at hrest hmethods
  subst hrest
  exact ⟨rfl, rfl, rfl, rfl, rfl, hfields, hmethods⟩

/-! ## Partitions -/

/-- A lowered partition is a run through its declarations. -/
theorem lowerPartition_eq_ok {u : CompilationUnit} {policy : SingletonInit} {first : LocalId}
    {top next : ClassId} {r : PartitionResult}
    (h : lowerPartition u policy first top next = .ok r) :
    ∃ stop, (declsOf u top).mapM (lowerDecl u policy) ⟨next, first, [], []⟩ = .ok (r.types, stop) ∧
      r.adapters = byId stop.adapters := by
  rw [lowerPartition] at h
  obtain ⟨⟨types, stop⟩, hrun, h⟩ := bind_eq_ok.mp h
  cases h
  exact ⟨stop, hrun, rfl⟩

/-- The top-level types around sites, in order. -/
def activeTops (u : CompilationUnit) : List ClassId := (tops u).filter fun c => siteCount u c != 0

theorem number_filter (u : CompilationUnit) (ts : List ClassId) :
    ∀ next, (number u next ts).filter (fun p => p.sites != 0) =
      number u next (ts.filter fun c => siteCount u c != 0) := by
  induction ts with
  | nil => exact fun _ => rfl
  | cons t ts ih =>
    intro next
    rw [number, List.filter_cons, List.filter_cons, ih]
    split
    · rfl
    · rename_i h
      have hzero : siteCount u t = 0 := by simpa using h
      rw [hzero]
      exact congrArg (number u · _) (UInt32.add_zero next)

/-- **Partitions without sites take no numbers**, so they can be left out
beforehand. -/
theorem partitions_eq (u : CompilationUnit) :
    partitions u = number u u.types.length.toUInt32 (activeTops u) := number_filter u _ _

theorem mem_tops {u : CompilationUnit} {c : ClassId} :
    c ∈ tops u ↔ ∃ d ∈ u.types, isLowered d = true ∧ u.topLevel d.id = c := by
  rw [tops, List.mem_mergeSort, List.mem_eraseDups, List.mem_map]
  simp only [List.mem_filter, and_assoc]

theorem tops_nodup (u : CompilationUnit) : (tops u).Nodup :=
  (List.mergeSort_perm ..).nodup_iff.mpr (nodup_eraseDups _)

theorem tops_pairwise (u : CompilationUnit) : (tops u).Pairwise (· < ·) := by
  have hle : (tops u).Pairwise (· ≤ ·) := mergeSort_pairwise_le (fun c : ClassId => c) _
  exact (hle.and (tops_nodup u)).imp fun h => UInt32.lt_of_le_of_ne h.1 h.2

/-- The declarations that are lowered, partition by partition. -/
def activeDecls (u : CompilationUnit) : List TypeDecl := (activeTops u).flatMap (declsOf u)

/-- Whether a declaration is lowered: it is no adapter, and there is a site in
its partition. -/
def isActive (u : CompilationUnit) (d : TypeDecl) : Bool :=
  isLowered d && siteCount u (u.topLevel d.id) != 0

/-- **The partitions hold every declaration that is lowered once.** -/
theorem activeDecls_perm (u : CompilationUnit) :
    (activeDecls u).Perm (u.types.filter (isActive u)) := by
  have hnodup : (activeTops u).Nodup := (tops_nodup u).sublist List.filter_sublist
  have hperm := flatMap_filter_perm (fun d : TypeDecl => u.topLevel d.id)
    (u.types.filter isLowered) hnodup
  have hdecls : activeDecls u = (activeTops u).flatMap fun c =>
      (u.types.filter isLowered).filter (fun d => u.topLevel d.id == c) := by
    refine congrArg (List.flatMap · (activeTops u)) (funext fun c => ?_)
    rw [declsOf, List.filter_filter]
    exact List.filter_congr fun d _ => Bool.and_comm ..
  have hactive : (u.types.filter isLowered).filter (fun d =>
      (activeTops u).contains (u.topLevel d.id)) = u.types.filter (isActive u) := by
    rw [List.filter_filter]
    refine List.filter_congr fun d hd => ?_
    rw [isActive, Bool.and_comm]
    cases hl : isLowered d with
    | false => rfl
    | true =>
      have htop : u.topLevel d.id ∈ tops u := mem_tops.mpr ⟨d, hd, hl, rfl⟩
      rw [Bool.eq_iff_iff]
      simp [activeTops, htop]
  rw [hdecls, ← hactive]
  exact hperm

theorem mem_activeDecls {u : CompilationUnit} {d : TypeDecl} :
    d ∈ activeDecls u ↔ d ∈ u.types ∧ isActive u d = true := by
  rw [(activeDecls_perm u).mem_iff, List.mem_filter]

end Lowering

/-! ## Putting declarations in place -/

section Place

open Lowering

variable {types ds : List TypeDecl}

theorem length_place : (place types ds).length = types.length := by
  induction ds generalizing types with
  | nil => rfl
  | cons d ds ih => exact ih.trans (List.length_set ..)

theorem InPlace.nodup (h : InPlace types) : (types.map (·.id)).Nodup := by
  refine .of_map UInt32.toNat ?_
  rw [List.map_map]
  exact inPlace_iff.mp h ▸ List.nodup_range

theorem InPlace.mem_iff (h : InPlace types) {d : TypeDecl} :
    d ∈ types ↔ types[d.id.toNat]? = some d := by
  refine ⟨fun hd => ?_, List.mem_of_getElem?⟩
  obtain ⟨i, hi⟩ := List.mem_iff_getElem?.mp hd
  rwa [h i d hi]

/-- Declarations in place are told apart by their numbers. -/
theorem InPlace.eq_of_id (h : InPlace types) {d d' : TypeDecl} (hd : d ∈ types) (hd' : d' ∈ types)
    (hid : d.id = d'.id) : d = d' := by
  rw [h.mem_iff] at hd hd'
  rw [hid, hd'] at hd
  exact (Option.some.inj hd).symm

theorem set_perm {i : Nat} (d : TypeDecl) (hi : i < types.length) :
    (types.set i d).Perm (d :: types.eraseIdx i) := by
  rw [List.set_eq_take_append_cons_drop, if_pos hi, List.eraseIdx_eq_take_drop_succ]
  exact List.perm_middle

theorem perm_cons_eraseIdx {i : Nat} (hi : i < types.length) :
    types.Perm (types[i] :: types.eraseIdx i) := by
  have hset := set_perm types[i] hi
  rwa [List.set_getElem_self] at hset

theorem InPlace.set (h : InPlace types) (d : TypeDecl) : InPlace (types.set d.id.toNat d) := by
  intro i e he
  rw [List.getElem?_set] at he
  split at he
  · split at he <;> cases he
    assumption
  · exact h i e he

theorem InPlace.place (h : InPlace types) : InPlace (Lowering.place types ds) := by
  induction ds generalizing types with
  | nil => exact h
  | cons d ds ih => exact ih (h.set d)

/-- Declarations with different numbers take the places of those with their
numbers, and the others stay. -/
theorem InPlace.place_perm (h : InPlace types) (hds : (ds.map (·.id)).Nodup)
    (hlt : ∀ d ∈ ds, d.id.toNat < types.length) :
    (Lowering.place types ds).Perm
      (ds ++ types.filter fun t => !(ds.map (·.id)).contains t.id) := by
  induction ds generalizing types with
  | nil =>
    rw [List.filter_eq_self.mpr (by simp)]
    exact .refl _
  | cons d ds ih =>
    rw [List.map_cons, List.nodup_cons] at hds
    rw [List.forall_mem_cons] at hlt
    have hnew := (set_perm d hlt.1).filter fun t => !(ds.map (·.id)).contains t.id
    rw [List.filter_cons_of_pos (by simpa using hds.1)] at hnew
    have hold := (perm_cons_eraseIdx hlt.1).filter fun t => !((d :: ds).map (·.id)).contains t.id
    have hid : types[d.id.toNat].id = d.id :=
      UInt32.toNat_inj.mp (h _ _ (List.getElem?_eq_getElem hlt.1))
    rw [List.filter_cons_of_neg (by simp [hid])] at hold
    have hrest : (types.eraseIdx d.id.toNat).filter
        (fun t => !((d :: ds).map (·.id)).contains t.id) =
        (types.eraseIdx d.id.toNat).filter fun t => !(ds.map (·.id)).contains t.id := by
      refine List.filter_congr fun t ht => ?_
      obtain ⟨i, hi, ht⟩ := List.mem_eraseIdx_iff_getElem?.mp ht
      have hne : t.id ≠ d.id := fun heq => hi (by rw [← h i t ht, heq])
      simp [hne]
    refine (ih (h.set d) hds.2 (by simpa using hlt.2)).trans ?_
    refine (hnew.append_left ds).trans (List.perm_middle.trans (.cons d ?_))
    rw [← hrest]
    exact hold.symm.append_left ds

end Place

namespace Lowering

/-! ## Units -/

/-- What the lowering of a unit went through, with the result of each
partition. -/
structure UnitRun (u : CompilationUnit) (policy : SingletonInit) (v : CompilationUnit)
    (summary : Summary) where
  results : List PartitionResult
  results_eq : List.Forall₂
    (fun p r => lowerPartition u policy (firstLocal u) p.top p.firstAdapter = .ok r)
    (number u u.types.length.toUInt32 (activeTops u)) results
  types_eq : v.types =
    place u.types (results.flatMap (·.types)) ++ byId (results.flatMap (·.adapters))
  summary_eq : summary = .ofAdapters (totalSites (partitions u))
    (byId (results.flatMap (·.adapters)))

theorem exists_unitRun {u v : CompilationUnit} {policy : SingletonInit} {summary : Summary}
    (h : u.lower policy = .ok (v, summary)) : Nonempty (UnitRun u policy v summary) := by
  rw [CompilationUnit.lower] at h
  obtain ⟨results, hresults, h⟩ := bind_eq_ok.mp h
  cases h
  rw [partitions_eq] at hresults
  exact ⟨results, forall₂_of_mapM_ok hresults, rfl, rfl⟩

namespace UnitRun

variable {u v : CompilationUnit} {policy : SingletonInit} {summary : Summary}
  (run : UnitRun u policy v summary)

/-- The lowered declarations. -/
def lowered : List TypeDecl := run.results.flatMap (·.types)

/-- The adapters. -/
def adapters : List TypeDecl := byId (run.results.flatMap (·.adapters))

/-- Each declaration of an active partition was lowered, at some point of the
work. -/
theorem forall₂_lowered : List.Forall₂
    (fun d d' => ∃ p p', lowerDecl u policy d p = .ok (d', p')) (activeDecls u) run.lowered := by
  rw [activeDecls, lowered]
  have hresults := run.results_eq
  generalize run.results = rs at hresults ⊢
  generalize u.types.length.toUInt32 = next at hresults
  generalize activeTops u = ts at hresults ⊢
  induction ts generalizing next rs with
  | nil =>
    cases hresults
    exact .nil
  | cons t ts ih =>
    rw [number] at hresults
    cases hresults with
    | cons hr hrs =>
      obtain ⟨stop, hdecls, -⟩ := lowerPartition_eq_ok hr
      exact List.rel_append (forall₂_of_mapM_run_ok hdecls) (ih _ _ hrs)

theorem id_lowered : run.lowered.map (·.id) = (activeDecls u).map (·.id) := by
  refine map_eq_of_forall₂ (run.forall₂_lowered.imp ?_)
  rintro d d' ⟨p, p', h⟩
  obtain ⟨declRun⟩ := exists_declRun h
  rw [declRun.rest_eq]

/-- The places of the given declarations are taken by the lowered ones and by
those that are left as they were. -/
theorem place_perm (hu : u.IsArena) :
    (place u.types run.lowered).Perm (run.lowered ++ u.types.filter fun d => !isActive u d) := by
  have hperm := activeDecls_perm u
  have hids : (u.types.map (·.id)).Nodup := hu.nodup
  have hnodup : (run.lowered.map (·.id)).Nodup := by
    rw [run.id_lowered, (hperm.map _).nodup_iff]
    exact hids.sublist (List.filter_sublist.map _)
  have hlt : ∀ d ∈ run.lowered, d.id.toNat < u.types.length := by
    intro d hd
    obtain ⟨d₀, hd₀, hid⟩ : ∃ d₀ ∈ u.types, d₀.id = d.id := by
      have hmem : d.id ∈ run.lowered.map (·.id) := List.mem_map_of_mem hd
      rw [run.id_lowered] at hmem
      obtain ⟨d₀, hd₀, hid⟩ := List.mem_map.mp hmem
      exact ⟨d₀, (mem_activeDecls.mp hd₀).1, hid⟩
    rw [← hid]
    exact (List.getElem?_eq_some_iff.mp (hu.mem_iff.mp hd₀)).1
  have hrest : u.types.filter (fun t => !(run.lowered.map (·.id)).contains t.id) =
      u.types.filter fun d => !isActive u d := by
    refine List.filter_congr fun d hd => congrArg _ (Bool.eq_iff_iff.mpr ?_)
    rw [List.contains_iff_mem, run.id_lowered, List.mem_map]
    constructor
    · rintro ⟨d₀, hd₀, hid⟩
      obtain ⟨hmem, hactive⟩ := mem_activeDecls.mp hd₀
      have heq := hu.mem_iff.mp hmem
      rw [hid, hu.mem_iff.mp hd] at heq
      cases heq
      exact hactive
    · exact fun hactive => ⟨d, mem_activeDecls.mpr ⟨hd, hactive⟩, rfl⟩
  rw [← hrest]
  exact InPlace.place_perm hu hnodup hlt

/-- **The types of a lowered unit** are the lowered declarations, those that are
left as they were, and the adapters. -/
theorem types_perm (hu : u.IsArena) :
    v.types.Perm (run.lowered ++ u.types.filter (fun d => !isActive u d) ++ run.adapters) := by
  rw [run.types_eq]
  exact (run.place_perm hu).append_right _

theorem types_drop : v.types.drop u.types.length = run.adapters := by
  rw [run.types_eq, List.drop_left' length_place]
  rfl

/-- In the place of a given declaration is what it was lowered to, or the
declaration itself if it is not lowered. -/
theorem exists_placed (hu : u.IsArena) {i : Nat} {d : TypeDecl} (hd : u.types[i]? = some d) :
    ∃ d', v.types[i]? = some d' ∧ (d' ∈ run.lowered ∧ d'.id = d.id ∨ d' = d ∧
      isActive u d = false) := by
  have hlt : i < u.types.length := (List.getElem?_eq_some_iff.mp hd).1
  have hplace : i < (place u.types run.lowered).length := by rwa [length_place]
  have hget : v.types[i]? = some (place u.types run.lowered)[i] := by
    rw [run.types_eq]
    exact (List.getElem?_append_left hplace).trans (List.getElem?_eq_getElem hplace)
  have hid := InPlace.place hu _ _ (List.getElem?_eq_getElem hplace)
  have hmem := List.getElem_mem hplace
  generalize (place u.types run.lowered)[i] = d' at hget hid hmem
  have hid : d'.id = d.id := UInt32.toNat_inj.mp (hid.trans (hu i d hd).symm)
  refine ⟨d', hget, ?_⟩
  rw [(run.place_perm hu).mem_iff, List.mem_append, List.mem_filter] at hmem
  rcases hmem with hmem | ⟨hmem, hactive⟩
  · exact .inl ⟨hmem, hid⟩
  · obtain rfl := InPlace.eq_of_id hu hmem (List.mem_of_getElem? hd) hid
    exact .inr ⟨rfl, by simpa using hactive⟩

include run in
/-- **A lowered unit extends the given one.** -/
theorem extendedBy (hu : u.IsArena) : u.ExtendedBy v := by
  intro id d hd
  obtain ⟨d', hd', h⟩ := run.exists_placed hu hd
  refine ⟨d', hd', ?_⟩
  rcases h with ⟨hmem, hid⟩ | ⟨rfl, -⟩
  · obtain ⟨d₀, hd₀, p, p', hrun⟩ := exists_of_forall₂_right run.forall₂_lowered hmem
    obtain ⟨declRun⟩ := exists_declRun hrun
    have hid₀ : d'.id = d₀.id := by rw [declRun.rest_eq]
    obtain rfl := InPlace.eq_of_id hu (mem_activeDecls.mp hd₀).1 (List.mem_of_getElem? hd)
      (hid₀.symm.trans hid)
    exact declRun.sameShape
  · exact .refl _

end UnitRun

end Lowering

end Closures
