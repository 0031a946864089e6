import Mathlib.Data.List.TakeWhile
import Closures.Proofs.SearchDistance
import Closures.Proofs.SuperDispatch
import Closures.Proofs.Superclasses

/-!
# Which default methods are run

Where no superclass implements a method, dispatch goes through the interfaces
that a type inherits and runs the first default method of the same name and
erased parameters. The order of the interfaces is by **depth**, the number of
`extends` edges from an interface that the type or a superclass names, and at
the same depth by the order in which they are named. It knows nothing of
overriding: an interface can come before one that extends it and overrides its
default, and then the overridden default is run.

* What is run stands no deeper than any other default that would fit, and an
  interface that overrides it comes later in the order (`firstDefault_before`).
* If every interface comes after those that extend it (`SubinterfacesFirst`), no
  overridden default is run. For the types of a hierarchy this is necessary as
  well: otherwise there are methods for them with which an overridden default is
  run (`runs_overridden_exposing`).

`default_dispatch` puts this together.
-/

set_option autoImplicit false

namespace Closures

namespace CompilationUnit

section Statement

variable (u : CompilationUnit)

/-- One type names another among its interfaces. -/
def Extends (a b : ClassId) : Prop := b ∈ u.interfacesOf a

/-- An interface that a type inherits, directly, through superinterfaces or
through superclasses. -/
def InheritsInterface (type i : ClassId) : Prop :=
  ∃ c, u.Inherits type c ∧ Relation.TransGen u.Extends c i

/-- The interfaces that dispatch goes through, in order. -/
def dispatchOrder (type : ClassId) : List ClassId := u.interfaceOrder (u.lineage type)

/-- How many edges lead to an interface, at the least, from those that a type
and its superclasses name. -/
def Depth (type : ClassId) : Nat → ClassId → Prop :=
  Distance u.Extends ((u.lineage type).flatMap u.interfacesOf)

/-- Dispatch of a method on a type runs a default method, by name and erased
parameters. -/
structure RunsDefault (type : ClassId) (t : MethodId) (m : Method) (r : MethodId) : Prop where
  target : u.method? t = some m
  runs : u.findImplementation? type (u.hasSignature m.name (u.erasedParams t)) = some r
  unimplemented : ∀ c ∈ u.lineage type, u.provides isConcrete m.name (u.erasedParams t) c = false

/-- Another interface that a type inherits extends the one of a default method
and has a default of the same name and erased parameters. -/
structure Overrides (type : ClassId) (t : MethodId) (m : Method) (r : MethodId) (j : ClassId) :
    Prop where
  inherited : u.InheritsInterface type j
  proper : j ≠ r.owner
  below : Relation.ReflTransGen u.Edge j r.owner
  declares : u.provides (·.isDefault) m.name (u.erasedParams t) j = true

/-- Dispatch on a type never runs an overridden default. -/
def RespectsOverrides (type : ClassId) : Prop :=
  ∀ t m r j, u.RunsDefault type t m r → ¬u.Overrides type t m r j

/-- No declared interface comes before one that extends it. -/
def SubinterfacesFirst (type : ClassId) : Prop :=
  (u.dispatchOrder type).Pairwise fun i j => (u.decl? i).isSome = true → u.isSubclass j i = false

instance (type : ClassId) : Decidable (u.SubinterfacesFirst type) :=
  inferInstanceAs (Decidable (List.Pairwise _ _))

/-- The same hierarchy with other methods. -/
def withMethods (methods : ClassId → List Method) : CompilationUnit :=
  { u with types := u.types.mapIdx fun i d => { d with methods := methods i.toUInt32 } }

/-- What dispatch to default methods comes to. -/
structure DefaultDispatch (type : ClassId) : Prop where
  /-- The order lists what is inherited. -/
  listed : ∀ i, i ∈ u.dispatchOrder type ↔ u.InheritsInterface type i
  /-- What is run is a default of an inherited interface, -/
  selects : ∀ t m r, u.RunsDefault type t m r → u.resolveVirtual? type t = some r ∧
    u.InheritsInterface type r.owner ∧ u.provides (·.isDefault) m.name
      (u.erasedParams t) r.owner = true
  /-- and no other that fits stands less deep. -/
  nearest : ∀ t m r, u.RunsDefault type t m r → ∀ j, u.InheritsInterface type j →
    u.provides (·.isDefault) m.name (u.erasedParams t) j = true →
    ∀ k n, u.Depth type k r.owner → u.Depth type n j → k ≤ n
  /-- An interface that overrides what is run comes later. -/
  later : ∀ t m r j, u.RunsDefault type t m r → u.Overrides type t m r j →
    [r.owner, j].Sublist (u.dispatchOrder type)
  /-- With subinterfaces first, nothing overridden is run; -/
  respects : u.SubinterfacesFirst type → u.RespectsOverrides type
  /-- they come first if they stand less deep than what they extend; -/
  shallower : (∀ i j, u.InheritsInterface type i → u.InheritsInterface type j → j ≠ i →
      Relation.ReflTransGen u.Edge j i → ∀ k n, u.Depth type k i → u.Depth type n j → n < k) →
    u.SubinterfacesFirst type
  /-- and a hierarchy in which they do not runs something overridden for some
  methods. -/
  exact : u.WellDeclared → u.isClass type = true →
    ((∀ methods, (u.withMethods methods).WellDeclared →
      (u.withMethods methods).RespectsOverrides type) ↔
      u.SubinterfacesFirst type)

end Statement

variable {u : CompilationUnit} {type : ClassId}

/-! ## The order -/

theorem inherits_of_mem_follow {n : Nat} {c x : ClassId} (h : x ∈ follow u.superclass? n c) :
    u.Inherits c x := by
  induction n generalizing c with
  | zero =>
    obtain rfl := List.mem_singleton.mp h
    exact .refl
  | succ n ih =>
    rw [follow] at h
    cases hs : u.superclass? c with
    | none =>
      rw [hs] at h
      obtain rfl := List.mem_singleton.mp h
      exact .refl
    | some next =>
      rw [hs] at h
      rcases List.mem_cons.mp h with rfl | h
      · exact .refl
      · exact (ih h).head hs

theorem mem_lineage_iff {c : ClassId} : c ∈ u.lineage type ↔ u.Inherits type c :=
  ⟨inherits_of_mem_follow, mem_lineage_of_inherits⟩

theorem searches_dispatchOrder (u : CompilationUnit) (type : ClassId) :
    Searches (fun c : ClassId => c) u.interfacesOf ((u.lineage type).flatMap u.interfacesOf) []
      (u.dispatchOrder type) := by
  refine searches_breadthFirst u.interfacesOf_length_add_edgesOutside_le _ _ _ ?_
  rw [edgesOutside_nil]

theorem nodup_dispatchOrder (u : CompilationUnit) (type : ClassId) : (u.dispatchOrder type).Nodup :=
  (u.searches_dispatchOrder type).nodup

/-- **The order lists what is inherited.** -/
theorem mem_dispatchOrder_iff {i : ClassId} :
    i ∈ u.dispatchOrder type ↔ u.InheritsInterface type i := by
  -- a path starts at an interface that a superclass names
  rw [(u.searches_dispatchOrder type).mem_iff_leads]
  constructor
  · rintro ⟨n, s, hs, hpath⟩
    obtain ⟨c, hc, hcs⟩ := List.mem_flatMap.mp hs
    exact ⟨c, mem_lineage_iff.mp hc, .head' hcs hpath.reaches⟩
  · rintro ⟨c, hc, hpath⟩
    obtain ⟨s, hcs, hreaches⟩ := Relation.TransGen.head'_iff.mp hpath
    obtain ⟨n, hn⟩ := exists_leads hreaches
    exact ⟨n, s, List.mem_flatMap.mpr ⟨c, mem_lineage_iff.mpr hc, hcs⟩, hn⟩

theorem ne_of_sublist {i j : ClassId} (h : [i, j].Sublist (u.dispatchOrder type)) : j ≠ i := by
  have hnodup := (u.nodup_dispatchOrder type).sublist h
  simp only [List.nodup_cons, List.mem_singleton] at hnodup
  exact Ne.symm hnodup.1

theorem mem_of_pair_sublist {i j : ClassId} {order : List ClassId} (h : [i, j].Sublist order) :
    i ∈ order ∧ j ∈ order :=
  ⟨h.subset List.mem_cons_self, h.subset (List.mem_cons_of_mem i (List.mem_singleton_self j))⟩

theorem exists_depth {i : ClassId} (h : i ∈ u.dispatchOrder type) : ∃ n, u.Depth type n i := by
  obtain ⟨n, hpath⟩ := (u.searches_dispatchOrder type).mem_iff_leads.mp h
  obtain ⟨k, -, hk⟩ := exists_distance hpath
  exact ⟨k, hk⟩

/-- The order is by depth. -/
theorem depth_le_of_sublist {i j : ClassId} (h : [i, j].Sublist (u.dispatchOrder type)) {k n : Nat}
    (hk : u.Depth type k i) (hn : u.Depth type n j) : k ≤ n :=
  List.pairwise_iff_forall_sublist.mp (u.searches_dispatchOrder type).pairwise_distance h k n hk hn

/-! ## What is run -/

section Runs

variable {t r : MethodId} {m : Method}

/-- **Of the defaults that fit, the first is run**: all others come later. -/
theorem firstDefault_before {name : String} {erased : List Ty} {types : List ClassId}
    (h : u.firstMethod? types (fun id m => m.isDefault && u.hasSignature name erased id m) = some r)
    {j : ClassId} (hj : j ∈ types) (hprovides : u.provides (·.isDefault) name erased j = true) :
    j = r.owner ∨ [r.owner, j].Sublist types := by
  obtain ⟨before, c, after, hsplit, hc, hbefore⟩ := List.findSome?_eq_some_iff.mp h
  obtain ⟨⟨r, d⟩, hfind, rfl⟩ := Option.map_eq_some_iff.mp hc
  obtain rfl : r.owner = c := owner_of_mem_methodsOf (List.mem_of_find?_eq_some hfind)
  rw [hsplit] at hj ⊢
  rcases List.mem_append.mp hj with hmem | hmem
  · -- a type that provides one stops the search
    have hnone := List.find?_eq_none.mp (Option.map_eq_none_iff.mp (hbefore j hmem))
    rw [provides, List.any_eq_false.mpr fun x hx => hnone x hx] at hprovides
    cases hprovides
  · rcases List.mem_cons.mp hmem with rfl | hmem
    · exact .inl rfl
    · exact .inr (((List.singleton_sublist.mpr hmem).cons_cons r.owner).trans
        (List.sublist_append_right _ _))

theorem RunsDefault.first (h : u.RunsDefault type t m r) :
    u.firstMethod? (u.dispatchOrder type)
      (fun id d => d.isDefault && u.hasSignature m.name (u.erasedParams t) id d) = some r := by
  have hruns := h.runs
  rw [findImplementation?, firstMethod?_eq_none.mpr h.unimplemented] at hruns
  dsimp only at hruns
  split at hruns
  · exact hruns
  · cases hruns

theorem RunsDefault.resolveVirtual? (h : u.RunsDefault type t m r) :
    u.resolveVirtual? type t = some r := by
  rw [resolveVirtual?_of_method? h.target, h.runs]
  rfl

theorem RunsDefault.owner (h : u.RunsDefault type t m r) :
    r.owner ∈ u.dispatchOrder type ∧ u.provides (·.isDefault) m.name (u.erasedParams t)
      r.owner = true := by
  obtain ⟨howner, d, hmem, htest⟩ := mem_of_firstMethod? h.first
  exact ⟨howner, List.any_eq_true.mpr ⟨_, hmem, htest⟩⟩

theorem RunsDefault.isSome_decl? (h : u.RunsDefault type t m r) :
    (u.decl? r.owner).isSome = true := by
  obtain ⟨-, d, hmem, -⟩ := mem_of_firstMethod? h.first
  obtain ⟨d', hd', -⟩ := exists_decl?_of_mem_methodsOf hmem
  exact Option.isSome_of_eq_some hd'

theorem RunsDefault.before (h : u.RunsDefault type t m r) {j : ClassId}
    (hj : u.Overrides type t m r j) : [r.owner, j].Sublist (u.dispatchOrder type) :=
  (firstDefault_before h.first (mem_dispatchOrder_iff.mpr hj.inherited) hj.declares).resolve_left
    hj.proper

theorem SubinterfacesFirst.respectsOverrides (h : u.SubinterfacesFirst type) :
    u.RespectsOverrides type := by
  intro t m r j hruns hj
  have hnot := List.pairwise_iff_forall_sublist.mp h (hruns.before hj) hruns.isSome_decl?
  rw [(u.isSubclass_iff).mpr hj.below] at hnot
  cases hnot

/-- Subinterfaces come first if they stand less deep than what they extend. -/
theorem subinterfacesFirst_of_depth
    (h : ∀ i j, u.InheritsInterface type i → u.InheritsInterface type j → j ≠ i →
      Relation.ReflTransGen u.Edge j i → ∀ k n, u.Depth type k i → u.Depth type n j → n < k) :
    u.SubinterfacesFirst type := by
  refine List.pairwise_iff_forall_sublist.mpr fun {i j} hbefore _ =>
    Bool.eq_false_iff.mpr fun hsub => ?_
  -- what comes first stands no deeper, so nothing that comes later extends it
  obtain ⟨hi, hj⟩ := mem_of_pair_sublist hbefore
  obtain ⟨k, hk⟩ := exists_depth hi
  obtain ⟨n, hn⟩ := exists_depth hj
  have hlt :=
    h i j (mem_dispatchOrder_iff.mp hi) (mem_dispatchOrder_iff.mp hj) (ne_of_sublist hbefore)
    (u.isSubclass_iff.mp hsub) k n hk hn
  exact absurd (depth_le_of_sublist hbefore hk hn) (Nat.not_le.mpr hlt)

end Runs

/-! ## The same hierarchy with other methods -/

section WithMethods

variable (u) (methods : ClassId → List Method)

@[simp] theorem decl?_withMethods (c : ClassId) :
    (u.withMethods methods).decl? c = (u.decl? c).map fun d => { d with methods := methods c } := by
  simp only [decl?, withMethods, List.getElem?_mapIdx, Nat.toUInt32_eq, UInt32.ofNat_toNat]

@[simp] theorem supertypesOf_withMethods :
    (u.withMethods methods).supertypesOf = u.supertypesOf := by
  funext c
  rw [supertypesOf, supertypesOf, decl?_withMethods]
  cases u.decl? c <;> rfl

@[simp] theorem interfacesOf_withMethods :
    (u.withMethods methods).interfacesOf = u.interfacesOf := by
  funext c
  rw [interfacesOf, interfacesOf, decl?_withMethods]
  cases u.decl? c <;> rfl

@[simp] theorem superclass?_withMethods : (u.withMethods methods).superclass? = u.superclass? := by
  funext c
  rw [superclass?, superclass?, decl?_withMethods]
  cases u.decl? c <;> rfl

@[simp] theorem length_types_withMethods : (u.withMethods methods).types.length = u.types.length :=
  List.length_mapIdx

@[simp] theorem edgeCount_withMethods : (u.withMethods methods).edgeCount = u.edgeCount := by
  have hmap : (u.withMethods methods).types.map TypeDecl.supertypes =
      u.types.map TypeDecl.supertypes := by
    refine List.ext_getElem? fun i => ?_
    simp only [withMethods, List.getElem?_map, List.getElem?_mapIdx, Option.map_map]
    rfl
  rw [edgeCount, edgeCount, List.flatMap_def, List.flatMap_def, hmap]

theorem dispatchOrder_withMethods : (u.withMethods methods).dispatchOrder = u.dispatchOrder := by
  funext type
  simp [dispatchOrder, interfaceOrder, lineage]

theorem isSubclass_withMethods : (u.withMethods methods).isSubclass = u.isSubclass := by
  funext sub sup
  simp [isSubclass, ancestors]

theorem isClass_withMethods : (u.withMethods methods).isClass = u.isClass := by
  funext c
  rw [isClass, isClass, decl?_withMethods, Option.any_map]

theorem subinterfacesFirst_withMethods :
    (u.withMethods methods).SubinterfacesFirst type ↔ u.SubinterfacesFirst type := by
  simp only [SubinterfacesFirst, dispatchOrder_withMethods, isSubclass_withMethods,
    decl?_withMethods, Option.isSome_map]

theorem methodsOf_withMethods_of_singleton {c : ClassId} {m : Method}
    (hc : (u.decl? c).isSome = true)
    (hm : methods c = [m]) : (u.withMethods methods).methodsOf c = [(⟨c, 0⟩, m)] := by
  obtain ⟨d, hd⟩ := Option.isSome_iff_exists.mp hc
  rw [methodsOf, decl?_withMethods, hd]
  simp only [Option.map_some, TypeDecl.methodIds, hm]
  rfl

theorem methodsOf_withMethods_of_nil {c : ClassId} (hm : methods c = []) :
    (u.withMethods methods).methodsOf c = [] := by
  rw [methodsOf, decl?_withMethods]
  cases u.decl? c with
  | none => rfl
  | some d =>
    simp only [Option.map_some, TypeDecl.methodIds, hm]
    rfl

end WithMethods

/-! ## Methods that expose an overridden default -/

section Exposing

/-- A default method without parameters. -/
def plainDefault : Method :=
  ⟨"m", [], [], .void, [], .method, false, false, true, false, some [], .dummy⟩

/-- The default method in two types, and no other methods. -/
def defaultsIn (i j c : ClassId) : List Method := if c = i ∨ c = j then [plainDefault] else []

/-- A hierarchy with only these methods. -/
abbrev exposing (u : CompilationUnit) (i j : ClassId) : CompilationUnit :=
  u.withMethods (defaultsIn i j)

variable {i j c : ClassId}

theorem eq_of_mem_defaultsIn {m : Method} (h : m ∈ defaultsIn i j c) : m = plainDefault := by
  rw [defaultsIn] at h
  split at h
  · exact List.mem_singleton.mp h
  · cases h

theorem WellDeclared.exposing (hwell : u.WellDeclared) (i j : ClassId) :
    (u.exposing i j).WellDeclared := by
  have htypes : ∀ d ∈ (u.exposing i j).types,
      ∃ d₀ ∈ u.types, ∃ c, d = { d₀ with methods := defaultsIn i j c } := by
    intro d hd
    obtain ⟨n, hn, rfl⟩ := List.mem_mapIdx.mp hd
    exact ⟨_, List.getElem_mem hn, _, rfl⟩
  constructor
  · intro d hd s hs
    obtain ⟨d₀, hd₀, c, rfl⟩ := htypes d hd
    rw [decl?_withMethods, Option.any_map]
    exact hwell.superclass d₀ hd₀ s hs
  · intro d hd s hs
    obtain ⟨d₀, hd₀, c, rfl⟩ := htypes d hd
    rw [decl?_withMethods, Option.all_map]
    exact hwell.interfaces d₀ hd₀ s hs
  · intro d hd m hm _ _
    obtain ⟨d₀, hd₀, c, rfl⟩ := htypes d hd
    rw [eq_of_mem_defaultsIn hm]
    rfl
  · intro d hd _ m hm
    obtain ⟨d₀, hd₀, c, rfl⟩ := htypes d hd
    rw [eq_of_mem_defaultsIn hm]
    rfl
  · intro d hd
    obtain ⟨d₀, hd₀, c, rfl⟩ := htypes d hd
    dsimp only [defaultsIn]
    split <;> decide

theorem provides_exposing {runs : Method → Bool} {name : String} {erased : List Ty}
    (hi : c ≠ i) (hj : c ≠ j) :
    (u.exposing i j).provides runs name erased c = false := by
  rw [provides, methodsOf_withMethods_of_nil]
  · rfl
  · rw [defaultsIn, if_neg (not_or.mpr ⟨hi, hj⟩)]

theorem methodsOf_exposing (hc : (u.decl? c).isSome = true) (hmem : c = i ∨ c = j) :
    (u.exposing i j).methodsOf c = [(⟨c, 0⟩, plainDefault)] :=
  u.methodsOf_withMethods_of_singleton _ hc (if_pos hmem)

theorem method?_exposing (hwell : u.WellDeclared) (hc : (u.decl? c).isSome = true)
    (hmem : c = i ∨ c = j) :
    (u.exposing i j).method? ⟨c, 0⟩ = some plainDefault := by
  have hdeclared : (⟨c, 0⟩, plainDefault) ∈ (u.exposing i j).methodsOf c := by
    rw [methodsOf_exposing hc hmem]
    exact List.mem_singleton_self _
  exact method?_of_mem_methodsOf (hwell.exposing i j).numbers hdeclared

theorem erasedParams_exposing (hwell : u.WellDeclared) (hc : (u.decl? c).isSome = true)
    (hmem : c = i ∨ c = j) : (u.exposing i j).erasedParams ⟨c, 0⟩ = [] := by
  rw [erasedParams, method?_exposing hwell hc hmem]
  rfl

/-- The superclasses are no interfaces, so they have no methods. -/
theorem unimplemented_exposing (hwell : u.WellDeclared) (hclass : u.isClass type = true)
    (hi : i ∈ u.dispatchOrder type) (hj : j ∈ u.dispatchOrder type) (name : String)
    (erased : List Ty) :
    ∀ c ∈ (u.exposing i j).lineage type, (u.exposing i j).provides isConcrete name erased c =
      false := by
  have hinterface : ∀ x ∈ u.dispatchOrder type, u.isClass x = false := by
    intro x hx
    obtain ⟨a, ha⟩ := exists_interfacesOf_of_mem hx
    exact hwell.not_isClass ha
  intro c hc
  have hc := (hwell.exposing i j).isClass_lineage (by rwa [isClass_withMethods]) c hc
  rw [isClass_withMethods] at hc
  refine provides_exposing ?_ ?_
  · exact ne_of_apply_ne u.isClass (by rw [hc, hinterface i hi]; decide)
  · exact ne_of_apply_ne u.isClass (by rw [hc, hinterface j hj]; decide)

/-- What comes before the first of two entries is neither of them. -/
theorem ne_of_mem_takeWhile {order : List ClassId} (hnodup : order.Nodup)
    (hbefore : [i, j].Sublist order) (hc : c ∈ order.takeWhile (· != i)) : c ≠ i ∧ c ≠ j := by
  have hci : (c != i) = true := List.mem_takeWhile_imp (p := (· != i)) hc
  refine ⟨bne_iff_ne.mp hci, ?_⟩
  rintro rfl
  -- otherwise the second would stand on both sides of the first
  obtain ⟨front, rest, rfl, hi, hj⟩ := List.cons_sublist_iff.mp hbefore
  obtain ⟨before, after, rfl⟩ := List.append_of_mem hi
  rw [List.append_assoc, List.cons_append] at hc
  have hfront : c ∈ before ++ i :: after := List.mem_append_left _ (mem_of_mem_takeWhile_ne hc)
  exact (List.nodup_append.mp hnodup).2.2 c hfront c (List.singleton_sublist.mp hj) rfl

theorem firstMethod?_exposing (hwell : u.WellDeclared)
    (hbefore : [i, j].Sublist (u.dispatchOrder type)) (hi : (u.decl? i).isSome = true) :
    (u.exposing i j).firstMethod? (u.dispatchOrder type)
      (fun id m => m.isDefault && (u.exposing i j).hasSignature "m" [] id m) = some ⟨i, 0⟩ := by
  have hdeclared : (u.exposing i j).declaredAs? "m" [] i = some (⟨i, 0⟩, plainDefault) := by
    rw [declaredAs?, methodsOf_exposing hi (.inl rfl), List.find?_singleton,
      erasedParams_exposing hwell hi (.inl rfl)]
    rfl
  refine (firstMethod?_eq_some (t := ⟨i, 0⟩) _ hdeclared rfl fun x hx _ => ?_).mpr
    ⟨(mem_of_pair_sublist hbefore).1, fun c hc => ?_⟩
  · rw [methodsOf_exposing hi (.inl rfl)] at hx
    rw [List.mem_singleton.mp hx]
    rfl
  · obtain ⟨hci, hcj⟩ := ne_of_mem_takeWhile (u.nodup_dispatchOrder type) hbefore hc
    exact provides_exposing hci hcj

theorem isSome_decl?_of_isSubclass (hsub : u.isSubclass j i = true) (hne : j ≠ i) :
    (u.decl? j).isSome = true := by
  rcases Relation.ReflTransGen.cases_head (u.isSubclass_iff.mp hsub) with heq | ⟨x, hedge, -⟩
  · exact absurd heq hne
  · rw [Edge, supertypesOf] at hedge
    cases hd : u.decl? j with
    | none => simp [hd] at hedge
    | some d => rfl

/-- **An interface that comes before one that extends it can be run although it
is overridden.** -/
theorem runs_overridden_exposing (hwell : u.WellDeclared) (hclass : u.isClass type = true)
    (hbefore : [i, j].Sublist (u.dispatchOrder type)) (hi : (u.decl? i).isSome = true)
    (hsub : u.isSubclass j i = true) :
    (u.exposing i j).RunsDefault type ⟨i, 0⟩ plainDefault ⟨i, 0⟩ ∧
      (u.exposing i j).Overrides type ⟨i, 0⟩ plainDefault ⟨i, 0⟩ j := by
  have hne := ne_of_sublist hbefore
  have hj := isSome_decl?_of_isSubclass hsub hne
  obtain ⟨hiorder, hjorder⟩ := mem_of_pair_sublist hbefore
  have herased := erasedParams_exposing (j := j) hwell hi (.inl rfl)
  have hnone :=
    unimplemented_exposing hwell hclass hiorder hjorder "m" ((u.exposing i j).erasedParams ⟨i, 0⟩)
  refine ⟨⟨method?_exposing hwell hi (.inl rfl), ?_, hnone⟩, ?_, hne, ?_, ?_⟩
  · rw [findImplementation?, show plainDefault.name = "m" from rfl, firstMethod?_eq_none.mpr hnone]
    dsimp only
    rw [(hwell.exposing i j).lineage_declared (by rwa [isClass_withMethods]), if_pos rfl, herased]
    have hfirst := firstMethod?_exposing hwell hbefore hi
    rw [← dispatchOrder_withMethods u (defaultsIn i j)] at hfirst
    exact hfirst
  · rw [← mem_dispatchOrder_iff, dispatchOrder_withMethods]
    exact hjorder
  · rw [← isSubclass_iff, isSubclass_withMethods]
    exact hsub
  · rw [herased, provides, methodsOf_exposing hj (.inr rfl)]
    simp [hasSignature, erasedParams_exposing hwell hj (.inr rfl), plainDefault]

/-- Without that, a hierarchy runs something overridden for some methods. -/
theorem subinterfacesFirst_of_respects (hwell : u.WellDeclared) (hclass : u.isClass type = true)
    (h : ∀ methods, (u.withMethods methods).WellDeclared →
      (u.withMethods methods).RespectsOverrides type) :
    u.SubinterfacesFirst type := by
  refine List.pairwise_iff_forall_sublist.mpr fun {i j} hbefore hi =>
    Bool.eq_false_iff.mpr fun hsub => ?_
  obtain ⟨hruns, hoverrides⟩ := runs_overridden_exposing hwell hclass hbefore hi hsub
  exact h _ (hwell.exposing i j) _ _ _ _ hruns hoverrides

end Exposing

end CompilationUnit

open CompilationUnit

/-- **What dispatch to default methods comes to**, on every hierarchy: it runs a
default that stands least deep, and it runs no overridden one, whatever the
methods, exactly if the interfaces that extend another come before it. -/
theorem default_dispatch (u : CompilationUnit) (type : ClassId) : u.DefaultDispatch type where
  listed _ := mem_dispatchOrder_iff
  selects t m r h := ⟨h.resolveVirtual?, mem_dispatchOrder_iff.mp h.owner.1, h.owner.2⟩
  nearest t m r h j hj hprovides k n hk hn := by
    rcases firstDefault_before h.first (mem_dispatchOrder_iff.mpr hj) hprovides with rfl | hbefore
    · exact Nat.le_of_eq (hk.unique hn)
    · exact depth_le_of_sublist hbefore hk hn
  later t m r j h hj := h.before hj
  respects h := h.respectsOverrides
  shallower := subinterfacesFirst_of_depth
  exact hwell hclass := by
    refine ⟨subinterfacesFirst_of_respects hwell hclass, fun h methods _ => ?_⟩
    exact ((u.subinterfacesFirst_withMethods methods).mpr h).respectsOverrides

namespace Heirs

/-- An interface that overrides the default of another, a class that names both,
and a class that has the one from its superclass and names the other. -/
def unit (named : List ClassId) : CompilationUnit where
  name := "heirs"
  sourcePath := none
  types := [
    { TypeDecl.empty 0 "Base" .topLevel with isInterface := true, methods := [plainDefault] },
    { TypeDecl.empty 1 "Refined" .topLevel with
      isInterface := true
      interfaces := [.raw 0]
      methods := [plainDefault] },
    { TypeDecl.empty 2 "Leaf" .topLevel with interfaces := named.map .raw },
    { TypeDecl.empty 3 "Stem" .topLevel with interfaces := [.raw 1] },
    { TypeDecl.empty 4 "Twig" .topLevel with superclass := some (.raw 3), interfaces := [.raw 0] }]

theorem wellDeclared : (unit [0, 1]).WellDeclared where
  superclass := by decide
  interfaces := by decide
  abstracts := by decide
  defaults := by decide
  numbers := by decide

/-- **An overridden default is run**, if a class names its interface first, or
names it below a superclass that has the other one. In the other order the class
runs the override. -/
theorem overridden_runs :
    (unit [0, 1]).Acyclic ∧
    (∀ type, type = 2 ∨ type = 4 → (unit [0, 1]).RunsDefault type ⟨1, 0⟩ plainDefault ⟨0, 0⟩ ∧
      (unit [0, 1]).Overrides type ⟨1, 0⟩ plainDefault ⟨0, 0⟩ 1) ∧
    (unit [1, 0]).resolveVirtual? 2 ⟨1, 0⟩ = some ⟨1, 0⟩ := by
  have hbelow : Relation.ReflTransGen (unit [0, 1]).Edge 1 0 := (isSubclass_iff _).mp (by decide)
  refine ⟨acyclic_of_lt (by decide), ?_, by decide⟩
  rintro type (rfl | rfl)
  · exact ⟨⟨rfl, by decide, firstMethod?_eq_none.mp (by decide)⟩,
      mem_dispatchOrder_iff.mp (by decide), by decide, hbelow, by decide⟩
  · exact ⟨⟨rfl, by decide, firstMethod?_eq_none.mp (by decide)⟩,
      mem_dispatchOrder_iff.mp (by decide), by decide, hbelow, by decide⟩

end Heirs

/-- With the override named first no overridden default is run; with the other
order some methods would have one run. -/
theorem default_dispatch_heirs :
    (Heirs.unit [1, 0]).SubinterfacesFirst 2 ∧ (Heirs.unit [1, 0]).RespectsOverrides 2 ∧
      ¬∀ methods, ((Heirs.unit [0, 1]).withMethods methods).WellDeclared →
        ((Heirs.unit [0, 1]).withMethods methods).RespectsOverrides 2 := by
  have hfirst : (Heirs.unit [1, 0]).SubinterfacesFirst 2 := by decide
  refine ⟨hfirst, (default_dispatch _ 2).respects hfirst, ?_⟩
  rw [(default_dispatch (Heirs.unit [0, 1]) 2).exact Heirs.wellDeclared (by decide)]
  decide

end Closures
