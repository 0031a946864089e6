import Closures.Proofs.MemberSearch
import Closures.Proofs.SearchDistance
import Closures.Proofs.SingleAbstractMethod

/-!
# Nearest members

`findMethods` goes through a type and its supertypes breadth first, and of the
methods of a name with the same erased parameters it keeps the one that it meets
first. `Finds` is this loop without a count of its steps. What it keeps is told
by paths alone (`NearestMembers`): of each list of erased parameters one method,
declared where the shortest paths lead, and nearer ones first.

**The loop comes to an end with the nearest members** (`nearest_members`), on
cyclic hierarchies too; the bounds of type parameters have to end, or there are
no erased parameters.
-/

set_option autoImplicit false

namespace Closures

namespace CompilationUnit

variable (u : CompilationUnit)

/-- The methods of a name that a type itself declares, constructors apart. -/
def declaredNamed (name : String) (c : ClassId) : List MethodId :=
  ((u.methodsOf c).filter fun (_, m) => m.name == name && m.kind == .method).map (·.1)

/-- The search for the methods of a name: the types that are left, those that
were met, the methods that were kept so far, and those that are kept in the
end. -/
inductive Finds (name : String) :
    List ClassId → List ClassId → List MethodId → List MethodId → Prop where
  | done (met : List ClassId) (kept : List MethodId) : Finds name [] met kept kept
  | skip {c : ClassId} {left met : List ClassId} {kept found : List MethodId} (hc : c ∈ met)
    (h : Finds name left met kept found) : Finds name (c :: left) met kept found
  | visit {c : ClassId} {left met : List ClassId} {kept found : List MethodId} (hc : c ∉ met)
    (h : Finds name (left ++ u.supertypesOf c) (c :: met)
      ((u.declaredNamed name c).foldl u.addUnlessOverridden kept) found) :
        Finds name (c :: left) met kept found

/-- A method of a name, no constructor, in the type that declares it. -/
def IsNamed (name : String) (t : MethodId) : Prop :=
  ∃ m, (t, m) ∈ u.methodsOf t.owner ∧ m.name = name ∧ m.kind = .method

/-- The methods of a name that are nearest to a type, nearer ones first. -/
structure NearestMembers (type : ClassId) (name : String) (found : List MethodId) : Prop where
  /-- They have the name, and no path leads sooner to another of their erased
  parameters. -/
  nearest : ∀ f ∈ found, u.IsNamed name f ∧ ∃ n, Distance u.Edge [type] n f.owner ∧
    ∀ t, u.IsNamed name t → u.erasedParams t = u.erasedParams f →
      ∀ k, Leads u.Edge k type t.owner → n ≤ k
  /-- No two have the same erased parameters. -/
  distinct : found.Pairwise fun a b => u.erasedParams a ≠ u.erasedParams b
  /-- The erased parameters of whatever can be reached are among theirs. -/
  covers : ∀ t, u.IsNamed name t → Relation.ReflTransGen u.Edge type t.owner →
    ∃ f ∈ found, u.erasedParams f = u.erasedParams t
  /-- They stand in the order of their distance. -/
  ordered : found.Pairwise fun a b => ∀ m n, Distance u.Edge [type] m a.owner →
    Distance u.Edge [type] n b.owner → m ≤ n

variable {u} {name : String} {type : ClassId}

/-! ## The loop -/

theorem Finds.eq {left met : List ClassId} {kept a b : List MethodId}
    (ha : u.Finds name left met kept a) (hb : u.Finds name left met kept b) : a = b := by
  induction ha with
  | done =>
    cases hb
    rfl
  | skip hc _ ih =>
    cases hb with
    | skip _ hb => exact ih hb
    | visit hnew _ => exact absurd hc hnew
  | visit hnew _ ih =>
    cases hb with
    | skip hc _ => exact absurd hc hnew
    | visit _ hb => exact ih hb

/-- The loop goes with the search for the types. -/
theorem finds_of_searches {left met out : List ClassId}
    (h : Searches (fun c : ClassId => c) u.supertypesOf left met out) (kept : List MethodId) :
    u.Finds name left met kept ((out.flatMap (u.declaredNamed name)).foldl u.addUnlessOverridden
      kept) := by
  induction h generalizing kept with
  | done met => exact .done met kept
  | skip hc _ ih => exact .skip hc (ih kept)
  | visit hc _ ih =>
    refine .visit hc ?_
    rw [List.flatMap_cons, List.foldl_append]
    exact ih _

theorem searches_ancestors (u : CompilationUnit) (type : ClassId) :
    Searches (fun c : ClassId => c) u.supertypesOf [type] [] (u.ancestors type) := by
  refine searches_breadthFirst u.supertypesOf_length_add_edgesOutside_le _ _ _ ?_
  rw [edgesOutside_nil, List.length_singleton, Nat.add_comm]

/-- **The loop comes to an end**, with the methods that are found. -/
theorem finds_iff {found : List MethodId} :
    u.Finds name [type] [] [] found ↔ found = u.findMethods type name := by
  have hfinds : u.Finds name [type] [] [] (u.findMethods type name) :=
    finds_of_searches (u.searches_ancestors type) []
  constructor
  · exact fun h => h.eq hfinds
  · rintro rfl
    exact hfinds

/-- The erased parameters are what erasure leads to, however many bounds it
follows. -/
theorem erasedParams_iff (hends : u.BoundsEnd) {t : MethodId} {m : Method}
    (hm : u.method? t = some m) {erased : List Ty} :
    List.Forall₂ (fun p ty => Ty.Erases (u.typeParamsOf t) p.ty ty) m.params erased ↔
      erased = u.erasedParams t := by
  simp only [erasedParams, hm, Ty.erases_iff (hends t)]
  rw [← List.forall₂_eq_eq_eq, List.forall₂_map_right_iff]
  exact ⟨List.Forall₂.flip, List.Forall₂.flip⟩

/-! ## What is kept -/

/-- Adding along a list keeps the first of each list of erased parameters. -/
theorem foldl_addUnlessOverridden (ids kept : List MethodId) :
    ids.foldl u.addUnlessOverridden kept = kept ++ keepFirst u.erasedParams
      (kept.map u.erasedParams) ids := by
  induction ids generalizing kept with
  | nil => rw [List.foldl_nil, keepFirst, List.append_nil]
  | cons id ids ih =>
    rw [List.foldl_cons, ih, addUnlessOverridden]
    by_cases hid : u.erasedParams id ∈ kept.map u.erasedParams
    · rw [keepFirst_of_mem hid, if_pos]
      simpa using hid
    · rw [keepFirst_of_not_mem hid, if_neg]
      · rw [List.append_assoc, List.singleton_append]
        refine congrArg (kept ++ id :: ·) (keepFirst_congr (fun k => ?_) ids)
        simp [or_comm]
      · simpa using hid

theorem findMethods_eq (u : CompilationUnit) (type : ClassId) (name : String) :
    u.findMethods type name = keepFirst u.erasedParams [] (u.methodsNamed type name) :=
  foldl_addUnlessOverridden _ []

theorem mem_declaredNamed {c : ClassId} {t : MethodId} :
    t ∈ u.declaredNamed name c ↔ u.IsNamed name t ∧ t.owner = c := by
  simp only [declaredNamed, List.mem_map, List.mem_filter, Bool.and_eq_true, beq_iff_eq]
  constructor
  · rintro ⟨⟨t, m⟩, ⟨hmem, hname, hkind⟩, rfl⟩
    obtain rfl := owner_of_mem_methodsOf hmem
    exact ⟨⟨m, hmem, hname, hkind⟩, rfl⟩
  · rintro ⟨⟨m, hmem, hname, hkind⟩, rfl⟩
    exact ⟨(t, m), ⟨hmem, hname, hkind⟩, rfl⟩

/-- The search meets the methods of the types that can be reached. -/
theorem mem_methodsNamed {t : MethodId} :
    t ∈ u.methodsNamed type name ↔ u.IsNamed name t ∧
      Relation.ReflTransGen u.Edge type t.owner := by
  rw [← u.mem_ancestors_iff]
  constructor
  · intro h
    obtain ⟨c, hc, ht⟩ := List.mem_flatMap.mp h
    obtain ⟨hnamed, rfl⟩ := mem_declaredNamed.mp ht
    exact ⟨hnamed, hc⟩
  · rintro ⟨hnamed, hc⟩
    exact List.mem_flatMap.mpr ⟨t.owner, hc, mem_declaredNamed.mpr ⟨hnamed, rfl⟩⟩

/-- The search meets methods in the order of distance. -/
theorem pairwise_methodsNamed (u : CompilationUnit) (type : ClassId) (name : String) :
    (u.methodsNamed type name).Pairwise fun a b => ∀ m n, Distance u.Edge [type] m a.owner →
      Distance u.Edge [type] n b.owner → m ≤ n := by
  refine List.pairwise_flatMap.mpr ⟨fun c _ => ?_, ?_⟩
  · refine List.pairwise_of_forall_mem_list fun a ha b hb m n hm hn => ?_
    rw [(mem_declaredNamed.mp ha).2] at hm
    rw [(mem_declaredNamed.mp hb).2] at hn
    exact Nat.le_of_eq (hm.unique hn)
  · refine (u.searches_ancestors type).pairwise_distance.imp fun {c d} hcd a ha b hb => ?_
    obtain ⟨-, rfl⟩ := mem_declaredNamed.mp ha
    obtain ⟨-, rfl⟩ := mem_declaredNamed.mp hb
    exact hcd

theorem distance_of_reaches {r : ClassId → ClassId → Prop} {c : ClassId}
    (h : Relation.ReflTransGen r type c) : ∃ n, Distance r [type] n c := by
  obtain ⟨n, hn⟩ := exists_leads h
  obtain ⟨k, -, hk⟩ := exists_distance ⟨type, List.mem_singleton_self type, hn⟩
  exact ⟨k, hk⟩

/-- What is kept is nearest: what comes before it has other erased parameters,
and what comes after it is no nearer. -/
theorem nearestMembers_findMethods (u : CompilationUnit) (type : ClassId) (name : String) :
    u.NearestMembers type name (u.findMethods type name) where
  nearest f hf := by
    rw [findMethods_eq] at hf
    obtain ⟨-, before, after, hsplit, hbefore⟩ := mem_keepFirst.mp hf
    have hordered := u.pairwise_methodsNamed type name
    have hmem : ∀ t, t ∈ u.methodsNamed type name ↔ t ∈ before ∨ t = f ∨ t ∈ after := by
      intro t
      rw [hsplit, List.mem_append, List.mem_cons]
    obtain ⟨hnamed, hreaches⟩ := mem_methodsNamed.mp ((hmem f).mpr (.inr (.inl rfl)))
    obtain ⟨n, hn⟩ := distance_of_reaches hreaches
    refine ⟨hnamed, n, hn, fun t ht herased k hk => ?_⟩
    obtain ⟨j, hjk, hj⟩ := exists_distance ⟨type, List.mem_singleton_self type, hk⟩
    refine Nat.le_trans ?_ hjk
    rcases (hmem t).mp (mem_methodsNamed.mpr ⟨ht, hk.reaches⟩) with hmem | rfl | hmem
    · exact absurd herased (hbefore t hmem)
    · exact Nat.le_of_eq (hn.unique hj)
    · rw [hsplit, List.pairwise_append] at hordered
      exact (List.pairwise_cons.mp hordered.2.1).1 t hmem n j hn hj
  distinct := by
    rw [findMethods_eq]
    exact pairwise_keepFirst _ _
  covers t ht hreaches := by
    have hkey : u.erasedParams t ∈ (u.methodsNamed type name).map u.erasedParams ∨
      u.erasedParams t ∈ [] :=
      .inl (List.mem_map_of_mem (mem_methodsNamed.mpr ⟨ht, hreaches⟩))
    rw [← mem_keys_keepFirst, ← findMethods_eq] at hkey
    rcases hkey with hkey | hkey
    · exact List.mem_map.mp hkey
    · cases hkey
  ordered := by
    rw [findMethods_eq]
    exact (u.pairwise_methodsNamed type name).sublist (keepFirst_sublist _ _)

end CompilationUnit

/-- **The search for members comes to an end with the nearest ones**, on every
hierarchy whose type variables have bounds that end. -/
theorem nearest_members {u : CompilationUnit} (hends : u.BoundsEnd) (type : ClassId)
    (name : String) :
    (∀ found, u.Finds name [type] [] [] found ↔ found = u.findMethods type name) ∧
    (∀ t m, u.method? t = some m → ∀ erased,
      List.Forall₂ (fun p ty => Ty.Erases (u.typeParamsOf t) p.ty ty) m.params erased ↔
        erased = u.erasedParams t) ∧
    u.NearestMembers type name (u.findMethods type name) :=
  ⟨fun _ => CompilationUnit.finds_iff, fun _ _ hm _ => CompilationUnit.erasedParams_iff hends hm,
    u.nearestMembers_findMethods type name⟩

namespace Weave

/-- A method of one parameter. -/
def put (typeParams : List TypeParam) (ty : Ty) (kind : MethodKind) : Method :=
  ⟨"put", typeParams, [⟨1, "x", ty, true⟩], .void, [], kind, false, false, false,
    false, some [], .dummy⟩

/-- Two ways lead from a class to an interface that extends what it is reached
from. Each type repeats a method of a nearer one, through type variables too. -/
def unit : CompilationUnit where
  name := "weave"
  sourcePath := none
  types := [
    { TypeDecl.empty 0 "Sub" .topLevel with
      superclass := some (.raw 1)
      interfaces := [.raw 2]
      methods := [put [] .int .constructor, put [] .string .method] },
    { TypeDecl.empty 1 "Base" .topLevel with
      interfaces := [.raw 3]
      methods := [put [] .object .method] },
    { TypeDecl.empty 2 "Side" .topLevel with
      isInterface := true
      interfaces := [.raw 3]
      methods := [put [⟨"T", some .string⟩] (.var "T") .method, put [] .int .method] },
    { TypeDecl.empty 3 "Deep" .topLevel with
      isInterface := true
      interfaces := [.raw 2]
      methods := [put [⟨"T", none⟩] (.var "T") .method, put [] .int .method,
        put [] (.primitive .long) .method] }]

theorem boundsEnd : unit.BoundsEnd := CompilationUnit.boundsEnd_of_headVar? (by decide)

end Weave

/-- The constructor is no member, and of the seven methods four are nearest, two
of them at the same distance. -/
theorem nearest_members_weave :
    Weave.unit.BoundsEnd ∧ Weave.unit.Finds "put" [0] [] [] [⟨0, 1⟩, ⟨1, 0⟩, ⟨2, 1⟩, ⟨3, 2⟩] ∧
      Weave.unit.NearestMembers 0 "put" [⟨0, 1⟩, ⟨1, 0⟩, ⟨2, 1⟩, ⟨3, 2⟩] := by
  obtain ⟨hfinds, -, hnearest⟩ := nearest_members Weave.boundsEnd 0 "put"
  have hrun : Weave.unit.findMethods 0 "put" = [⟨0, 1⟩, ⟨1, 0⟩, ⟨2, 1⟩, ⟨3, 2⟩] := by decide +kernel
  rw [hrun] at hnearest
  exact ⟨Weave.boundsEnd, (hfinds _).mpr hrun.symm, hnearest⟩

end Closures
