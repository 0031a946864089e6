import Closures.Proofs.AdapterDispatch
import Closures.Proofs.SearchOrder

/-!
# The single abstract method of a target

What a closure must implement, told without search and without a count of steps.

* The erasure of a type follows the bounds of type variables. If the bounds run
  in no circle it comes to an end, and the steps that `Ty.erasure` is given are
  enough (`Ty.erases_iff`).
* From a member of the target every type that supertype edges lead to is **met**
  once, at the use that is first in the order of the levels
  (`CompilationUnit.FirstReached`), also where the edges run in a circle and the
  type arguments grow along it.
* A method is **open** if it is abstract, no method that every object has, and
  not overridden by a default method of a proper subinterface that is met as
  well (`Candidate.Open`).

Resolution succeeds exactly if the open methods agree on name and erased
parameters, and there is one (`single_abstract_method`).
-/

set_option autoImplicit false

namespace Closures

/-! ## Erasure comes to an end -/

namespace Ty

/-- A type that is its own erasure. -/
def isPlain : Ty → Bool
  | void | null | primitive _ | boxed _ | object | string => true
  | _ => false

/-- Erasure, without a count of the bounds that are followed. -/
inductive Erases (params : List TypeParam) : Ty → Ty → Prop where
  | plain {t : Ty} (h : t.isPlain = true) : Erases params t t
  | declared (id : ClassId) (args : List Ty) : Erases params (.declared id args) (.raw id)
  | array {t t' : Ty} (h : Erases params t t') : Erases params (.array t) (.array t')
  | noMember : Erases params (.inter []) .object
  | firstMember {t t' : Ty} (ts : List Ty) (h : Erases params t t') :
    Erases params (.inter (t :: ts)) t'
  | unbounded {name : String} (h : boundOf params name = none) : Erases params (.var name) .object
  | bounded {name : String} {bound t : Ty} (h : boundOf params name = some bound)
    (hb : Erases params bound t) : Erases params (.var name) t

/-- The type variable that the erasure of a type leads to. -/
def headVar? : Ty → Option String
  | var name => some name
  | array t => headVar? t
  | inter (t :: _) => headVar? t
  | _ => none

/-- One type variable leads to another through its bound. -/
def BoundLink (params : List TypeParam) (a b : String) : Prop :=
  (boundOf params a).bind headVar? = some b

/-- The bounds of type parameters run in no circle. -/
def BoundsEnd (params : List TypeParam) : Prop :=
  ∀ name, ¬Relation.TransGen (BoundLink params) name name

variable {params : List TypeParam}

theorem erases_eraseWith {f : String → Ty} :
    ∀ t : Ty, (∀ name, t.headVar? = some name → Erases params (.var name) (f name)) →
      Erases params t (t.eraseWith f)
  | .var name, h => h name rfl
  | .array t, h => .array (erases_eraseWith t h)
  | .inter [], _ => .noMember
  | .inter (t :: ts), h => .firstMember ts (erases_eraseWith t h)
  | .declared id args, _ => .declared id args
  | .void, _ | .null, _ | .primitive _, _ | .boxed _, _ | .object, _ | .string, _ => .plain rfl

theorem mem_of_boundOf {name : String} {bound : Ty} (h : boundOf params name = some bound) :
    name ∈ params.map (·.name) := by
  rw [boundOf] at h
  cases hp : params.find? (·.name == name) with
  | none =>
    rw [hp] at h
    cases h
  | some p =>
    have hname := List.find?_some hp
    exact List.mem_map.mpr ⟨p, List.mem_of_find?_eq_some hp, beq_iff_eq.mp hname⟩

/-- The steps suffice if each parameter that was passed has one less to
follow. -/
theorem erases_eraseVar (hends : BoundsEnd params) :
    ∀ (steps : Nat) (passed : List String) (name : String), passed.Nodup →
      (∀ a ∈ passed, a ∈ params.map (·.name) ∧ Relation.TransGen (BoundLink params) a name) →
      params.length ≤ steps + passed.length → Erases params (.var name)
        (eraseVar params steps name) := by
  intro steps
  induction steps with
  | zero =>
    intro passed name hnodup hpassed hlen
    cases hb : boundOf params name with
    | none => exact .unbounded hb
    | some bound =>
      -- the parameters that were passed, and this one, are more than there are
      have hnew : name ∉ passed := fun h => hends name (hpassed name h).2
      have hsub : (name :: passed) ⊆ params.map (·.name) :=
        List.cons_subset.mpr ⟨mem_of_boundOf hb, fun a ha => (hpassed a ha).1⟩
      have hle := (List.subperm_of_subset (List.nodup_cons.mpr ⟨hnew, hnodup⟩) hsub).length_le
      rw [List.length_cons, List.length_map] at hle
      omega
  | succ steps ih =>
    intro passed name hnodup hpassed hlen
    rw [eraseVar]
    cases hb : boundOf params name with
    | none => exact .unbounded hb
    | some bound =>
      refine .bounded hb (erases_eraseWith bound fun next hnext => ?_)
      have hlink : BoundLink params name next := by
        rw [BoundLink, hb]
        exact hnext
      have hnew : name ∉ passed := fun h => hends name (hpassed name h).2
      refine ih (name :: passed) next (List.nodup_cons.mpr ⟨hnew, hnodup⟩) ?_ ?_
      · refine List.forall_mem_cons.mpr ⟨⟨mem_of_boundOf hb, .single hlink⟩, fun a ha => ?_⟩
        exact ⟨(hpassed a ha).1, (hpassed a ha).2.tail hlink⟩
      · rw [List.length_cons]
        omega

/-- A type has at most one erasure. -/
theorem Erases.eq {t a b : Ty} (ha : Erases params t a) (hb : Erases params t b) : a = b := by
  induction ha generalizing b with
  | plain hplain => cases hb <;> first | rfl | cases hplain
  | declared => cases hb with
    | plain hplain => cases hplain
    | declared => rfl
  | array _ ih => cases hb with
    | plain hplain => cases hplain
    | array hb => rw [ih hb]
  | noMember => cases hb with
    | plain hplain => cases hplain
    | noMember => rfl
  | firstMember _ _ ih => cases hb with
    | plain hplain => cases hplain
    | firstMember _ hb => exact ih hb
  | unbounded h => cases hb with
    | plain hplain => cases hplain
    | unbounded => rfl
    | bounded h' => cases h.symm.trans h'
  | bounded h _ ih => cases hb with
    | plain hplain => cases hplain
    | unbounded h' => cases h.symm.trans h'
    | bounded h' hb =>
      cases h.symm.trans h'
      exact ih hb

/-- **Erasure comes to an end where the bounds do**, and the steps that it is
given are enough. -/
theorem erases_iff (hends : BoundsEnd params) {t t' : Ty} :
    Erases params t t' ↔ t' = t.erasure params := by
  have herases : Erases params t (t.erasure params) :=
    erases_eraseWith t fun name _ => erases_eraseVar hends params.length []
      name List.nodup_nil nofun (Nat.le_refl _)
  constructor
  · exact fun h => h.eq herases
  · rintro rfl
    exact herases

end Ty

/-! ## What a member leads to -/

namespace CompilationUnit

/-- The bounds of the type parameters that any method can see run in no
circle. -/
def BoundsEnd (u : CompilationUnit) : Prop := ∀ id, Ty.BoundsEnd (u.typeParamsOf id)

/-- A use of a type that is reached from another along supertypes, and no use of
the same type in fewer steps or before it. -/
def FirstReached (u : CompilationUnit) (m t : ClassType) : Prop :=
  Closures.FirstReached (·.id) u.directSupertypes [m] t

variable (u : CompilationUnit)

theorem map_id_directSupertypes_eq (a b : ClassType) (h : a.id = b.id) :
    (u.directSupertypes a).map (·.id) = (u.directSupertypes b).map (·.id) := by
  rw [map_id_directSupertypes, map_id_directSupertypes, h]

/-- The edges of a use are paid for by its type no longer being unseen. -/
theorem directSupertypes_length_add_edgesOutside_le (seen : List ClassId) (t : ClassType)
    (ht : t.id ∉ seen) :
    (u.directSupertypes t).length + u.edgesOutside (t.id :: seen) ≤ u.edgesOutside seen := by
  have hlen : (u.directSupertypes t).length = (u.supertypesOf t.id).length := by
    rw [← map_id_directSupertypes, List.length_map]
  rw [hlen]
  exact u.supertypesOf_length_add_edgesOutside_le seen t.id ht

theorem steps_suffice (m : ClassType) : [m].length + u.edgesOutside [] ≤ u.edgeCount + 1 := by
  rw [edgesOutside_nil, List.length_singleton, Nat.add_comm]

/-- **The search from a member comes to an end**, whatever the supertype edges
do. -/
theorem searches_reachable (m : ClassType) :
    Searches (·.id) u.directSupertypes [m] [] (FunctionalInterface.reachable u m) :=
  searches_breadthFirst u.directSupertypes_length_add_edgesOutside_le _ [m] [] (u.steps_suffice m)

theorem mem_reachable_iff {m t : ClassType} :
    t ∈ FunctionalInterface.reachable u m ↔ u.FirstReached m t :=
  (u.searches_reachable m).mem_iff u.map_id_directSupertypes_eq

/-- **Every type that supertype edges lead to is met**, at one use. -/
theorem existsUnique_firstReached {m : ClassType} {c : ClassId}
    (h : Relation.ReflTransGen u.Edge m.id c) :
    ∃! t, u.FirstReached m t ∧ t.id = c := by
  obtain ⟨hstart, hclosed⟩ := breadthFirst_covers u.directSupertypes_length_add_edgesOutside_le
    (u.edgeCount + 1) [m] [] (u.steps_suffice m)
  have hmet : c ∈ (FunctionalInterface.reachable u m).map (·.id) := by
    induction h with
    | refl => exact (hstart m List.mem_cons_self).resolve_left List.not_mem_nil
    | tail _ hedge ih =>
      obtain ⟨t, ht, rfl⟩ := List.mem_map.mp ih
      rw [Edge, ← map_id_directSupertypes] at hedge
      obtain ⟨y, hy, rfl⟩ := List.mem_map.mp hedge
      exact (hclosed t ht y hy).resolve_left List.not_mem_nil
  obtain ⟨t, ht, rfl⟩ := List.mem_map.mp hmet
  refine ⟨t, ⟨u.mem_reachable_iff.mp ht, rfl⟩, ?_⟩
  rintro t' ⟨ht', hid⟩
  exact ht'.eq (u.mem_reachable_iff.mp ht) hid

end CompilationUnit

namespace FunctionalInterface

variable {u : CompilationUnit} {ms : List ClassType}

/-! ## Open methods -/

namespace Candidate

/-- A method that is declared by an interface that some member of the target
leads to, as seen from there. -/
structure Met (u : CompilationUnit) (ms : List ClassType) (c : Candidate) : Prop where
  reached : ∃ m, ms[c.member]? = some m ∧ u.FirstReached m c.owner
  declared : (c.id, c.method) ∈ u.methodsOf c.owner.id
  isStatic : c.method.isStatic = false
  kind : c.method.kind = .method
  erased : c.erased = u.erasedParams c.id
  signature : c.signature = signatureIn u c.owner (c.id, c.method)

/-- A method that every object has. -/
def IsObjectMethod (c : Candidate) : Prop :=
  c.method.name = "equals" ∧ c.erased = [.object] ∨ c.method.name = "hashCode" ∧ c.erased = [] ∨
    c.method.name = "toString" ∧ c.erased = []

/-- A default method of a proper subinterface with the same name and the same
erased parameters. -/
structure OverriddenBy (u : CompilationUnit) (c other : Candidate) : Prop where
  isDefault : other.method.isDefault = true
  name : other.method.name = c.method.name
  signature : other.signature = c.signature
  below : Relation.ReflTransGen u.Edge other.owner.id c.owner.id
  proper : other.owner.id ≠ c.owner.id

/-- A method that is left to implement. -/
structure Open (u : CompilationUnit) (ms : List ClassType) (c : Candidate) :
    Prop extends c.Met u ms where
  isAbstract : c.method.isAbstract = true
  isDefault : c.method.isDefault = false
  not_objectMethod : ¬c.IsObjectMethod
  not_overridden : ∀ other : Candidate, other.Met u ms → ¬c.OverriddenBy u other

theorem isObjectMethod_iff {c : Candidate} : c.isObjectMethod = true ↔ c.IsObjectMethod := by
  rw [isObjectMethod, IsObjectMethod]
  split
  · simp [*]
  · simp [*]
  · simp [*]
  · rename_i h₁ h₂ h₃
    refine ⟨fun h => absurd h Bool.false_ne_true, ?_⟩
    rintro (⟨hname, herased⟩ | ⟨hname, herased⟩ | ⟨hname, herased⟩)
    · exact absurd herased (h₁ hname)
    · exact absurd herased (h₂ hname)
    · exact absurd herased (h₃ hname)

theorem retires_iff {c other : Candidate} : other.retires u c = true ↔ c.OverriddenBy u other := by
  rw [retires]
  simp only [Bool.and_eq_true, bne_iff_ne, beq_iff_eq, u.isSubclass_iff]
  constructor
  · rintro ⟨⟨⟨⟨hdefault, hne⟩, hbelow⟩, hsig⟩, hname⟩
    exact ⟨hdefault, hname, hsig, hbelow, hne⟩
  · rintro ⟨hdefault, hname, hsig, hbelow, hne⟩
    exact ⟨⟨⟨⟨hdefault, hne⟩, hbelow⟩, hsig⟩, hname⟩

end Candidate

/-- The candidates are the methods that are met and abstract or default. -/
theorem mem_candidates_iff {c : Candidate} :
    c ∈ candidates u ms ↔ c.Met u ms ∧
      (c.method.isAbstract = true ∨ c.method.isDefault = true) := by
  rw [candidates, List.mem_flatMap]
  constructor
  · rintro ⟨⟨m, i⟩, hm, hc⟩
    obtain ⟨owner, howner, hc⟩ := List.mem_flatMap.mp hc
    obtain ⟨⟨id, method⟩, hmethod, rfl⟩ := List.mem_map.mp hc
    obtain ⟨hdeclared, htest⟩ := List.mem_filter.mp hmethod
    simp only [Bool.and_eq_true, Bool.not_eq_true', beq_iff_eq, Bool.or_eq_true] at htest
    obtain ⟨⟨hstatic, hkind⟩, hpart⟩ := htest
    exact ⟨⟨⟨m, List.mk_mem_zipIdx_iff_getElem?.mp hm, u.mem_reachable_iff.mp howner⟩,
      hdeclared, hstatic, hkind, rfl, rfl⟩, hpart⟩
  · rintro ⟨⟨⟨m, hm, hreached⟩, hdeclared, hstatic, hkind, herased, hsig⟩, hpart⟩
    refine ⟨(m, c.member), List.mk_mem_zipIdx_iff_getElem?.mpr hm, List.mem_flatMap.mpr
      ⟨c.owner, u.mem_reachable_iff.mpr hreached, List.mem_map.mpr ⟨(c.id, c.method), ?_, ?_⟩⟩⟩
    · refine List.mem_filter.mpr ⟨hdeclared, ?_⟩
      simp only [hstatic, hkind, Bool.and_eq_true, Bool.or_eq_true]
      exact ⟨⟨rfl, rfl⟩, hpart⟩
    · obtain ⟨member, owner, id, method, erased, signature⟩ := c
      dsimp only at herased hsig
      subst herased hsig
      rfl

/-- **What is left to implement are the open methods.** -/
theorem mem_abstractOnes_iff {c : Candidate} :
    c ∈ abstractOnes u (candidates u ms) ↔ c.Open u ms := by
  rw [abstractOnes, List.mem_filter, mem_candidates_iff]
  simp only [Bool.and_eq_true, Bool.not_eq_true', List.any_eq_false, Candidate.retires_iff]
  constructor
  · rintro ⟨⟨hmet, hpart⟩, ⟨hdefault, hobject⟩, hover⟩
    refine ⟨hmet, hpart.resolve_right (by simp [hdefault]), hdefault,
      ?_, fun other hother hby => ?_⟩
    · rw [← Candidate.isObjectMethod_iff, hobject]
      exact Bool.false_ne_true
    · exact hover other (mem_candidates_iff.mpr ⟨hother, .inr hby.isDefault⟩) hby
  · intro h
    refine ⟨⟨h.toMet, .inl h.isAbstract⟩, ⟨h.isDefault, ?_⟩, fun other hother hby => ?_⟩
    · rw [← Bool.not_eq_true, Candidate.isObjectMethod_iff]
      exact h.not_objectMethod
    · exact h.not_overridden other (mem_candidates_iff.mp hother).1 hby

/-! ## Members -/

/-- What a target must list: interfaces, one at least, and in an intersection
also the root type, which does not count. -/
structure Lists (u : CompilationUnit) (target : Ty) (ms : List ClassType) : Prop where
  listed : ∀ t ∈ namedTypes target, (t = .object ∧ ∃ ts, target = .inter ts) ∨
    ∃ m d, t = ClassType.toTy m ∧ u.decl? m.id = some d ∧ d.isInterface = true
  members : ms = (namedTypes target).filterMap Ty.classType?
  ne_nil : ms ≠ []

/-- Whether a target is an intersection. -/
def isIntersection : Ty → Bool
  | .inter _ => true
  | _ => false

/-- The members as they are listed, each if it may be. -/
def listing (u : CompilationUnit) (target : Ty) : Except Cause (List (Option ClassType)) :=
  (namedTypes target).mapM (listedMember u (isIntersection target))

theorem members_eq (target : Ty) :
    members u target = listing u target >>= fun listed =>
      match listed.filterMap id with
      | [] => throw (.noInterface target)
      | ms => return ms := by
  cases target <;> rfl

theorem listedMember_ok_iff {inIntersection : Bool} {t : Ty} {o : Option ClassType} :
    listedMember u inIntersection t = .ok o ↔
      o = t.classType? ∧ ((t = .object ∧ inIntersection = true) ∨
        ∃ m d, t = ClassType.toTy m ∧ u.decl? m.id = some d ∧ d.isInterface = true) := by
  cases t
  case object =>
    rw [listedMember]
    cases inIntersection with
    | true => exact ⟨fun h => by cases h; exact ⟨rfl, .inl ⟨rfl, rfl⟩⟩, fun h => by rw [h.1]; rfl⟩
    | false =>
      constructor
      · intro h
        cases h
      · rintro ⟨-, ⟨-, h⟩ | ⟨m, d, h, -⟩⟩ <;> cases h
  case declared id args =>
    have hinterface : (u.decl? id).any (·.isInterface) = true ↔
        ∃ m d, Ty.declared id args = ClassType.toTy m ∧ u.decl? m.id = some d ∧
          d.isInterface = true := by
      rw [Option.any_eq_true]
      constructor
      · rintro ⟨d, hd, hi⟩
        exact ⟨⟨id, args⟩, d, rfl, hd, hi⟩
      · rintro ⟨m, d, heq, hd, hi⟩
        cases heq
        exact ⟨d, hd, hi⟩
    rw [listedMember, ← hinterface]
    by_cases h : (u.decl? id).any (·.isInterface) = true
    · rw [if_pos h]
      exact ⟨fun heq => by cases heq; exact ⟨rfl, .inr h⟩, fun heq => by rw [heq.1]; rfl⟩
    · rw [if_neg h]
      constructor
      · intro heq
        cases heq
      · rintro ⟨-, ⟨heq, -⟩ | h'⟩
        · cases heq
        · exact absurd h' h
  all_goals
    constructor
    · intro h
      cases h
    · rintro ⟨-, ⟨heq, -⟩ | ⟨m, d, heq, -⟩⟩ <;> cases heq

theorem isIntersection_iff {target : Ty} :
    isIntersection target = true ↔ ∃ ts, target = .inter ts := by
  cases target <;> simp [isIntersection]

/-- **The members are what the target lists**, if it lists what it must. -/
theorem members_eq_ok_iff {target : Ty} : members u target = .ok ms ↔ Lists u target ms := by
  have hlisting : ∀ listed, listing u target = .ok listed ↔
      listed = (namedTypes target).map Ty.classType? ∧ ∀ t ∈ namedTypes target,
        (t = .object ∧ ∃ ts, target = .inter ts) ∨
          ∃ m d, t = ClassType.toTy m ∧ u.decl? m.id = some d ∧ d.isInterface = true := by
    intro listed
    have hone : ∀ t, (∃ o, listedMember u (isIntersection target) t = .ok o) ↔
        (t = .object ∧ ∃ ts, target = .inter ts) ∨
          ∃ m d, t = ClassType.toTy m ∧ u.decl? m.id = some d ∧ d.isInterface = true := by
      intro t
      simp only [listedMember_ok_iff, exists_eq_left, isIntersection_iff]
    constructor
    · intro h
      refine ⟨?_, fun t ht => ?_⟩
      · have hmap := map_eq_of_forall₂ (f := fun o => o) (g := Ty.classType?)
          ((forall₂_of_mapM_ok h).imp fun t o ho => (listedMember_ok_iff.mp ho).1)
        rwa [List.map_id'] at hmap
      · obtain ⟨o, -, ho⟩ := (exists_of_mapM_ok h).1 t ht
        exact (hone t).mp ⟨o, ho⟩
    · rintro ⟨rfl, hall⟩
      obtain ⟨listed, h⟩ := exists_mapM_ok fun t ht => (hone t).mpr (hall t ht)
      have hmap := map_eq_of_forall₂ (f := fun o => o) (g := Ty.classType?)
        ((forall₂_of_mapM_ok h).imp fun t o ho => (listedMember_ok_iff.mp ho).1)
      rw [List.map_id'] at hmap
      rw [listing, h, hmap]
  have hfilter : ((namedTypes target).map Ty.classType?).filterMap id =
      (namedTypes target).filterMap Ty.classType? := by
    rw [List.filterMap_map]
    rfl
  rw [members_eq, bind_eq_ok]
  constructor
  · rintro ⟨listed, hlisted, h⟩
    obtain ⟨rfl, hall⟩ := (hlisting _).mp hlisted
    rw [hfilter] at h
    split at h
    · cases h
    · rename_i hne
      cases h
      exact ⟨hall, rfl, hne⟩
  · rintro ⟨hall, rfl, hne⟩
    refine ⟨_, (hlisting _).mpr ⟨rfl, hall⟩, ?_⟩
    rw [hfilter]
    split
    · rename_i hnil
      exact absurd hnil hne
    · rfl

/-! ## Resolution -/

theorem eraseDups_eq_singleton_iff {α : Type} [BEq α] [LawfulBEq α] {xs : List α} {k : α} :
    xs.eraseDups = [k] ↔ xs ≠ [] ∧ ∀ x ∈ xs, x = k := by
  constructor
  · intro h
    refine ⟨?_, fun x hx => ?_⟩
    · rintro rfl
      cases h
    · rw [← List.mem_eraseDups, h] at hx
      exact List.mem_singleton.mp hx
  · rintro ⟨hne, hall⟩
    have hk : k ∈ xs := by
      obtain ⟨x, hx⟩ := List.exists_mem_of_ne_nil xs hne
      exact hall x hx ▸ hx
    have hperm : xs.eraseDups.Perm [k] := by
      refine (List.perm_ext_iff_of_nodup (Lowering.nodup_eraseDups xs)
        (List.nodup_singleton k)).mpr fun x => ?_
      rw [List.mem_eraseDups, List.mem_singleton]
      exact ⟨hall x, fun h => h ▸ hk⟩
    exact List.perm_singleton.mp hperm

/-- The result is the first open method, if all of them have one key. -/
theorem resolve_eq_ok_iff {target : Ty} (hms : Lists u target ms) {f : FunctionalInterface} :
    resolve u target = .ok f ↔ ∃ c rest, abstractOnes u (candidates u ms) = c :: rest ∧
      c.Open u ms ∧
      (∀ c' : Candidate, c'.Open u ms → c'.key = c.key) ∧ f = ofCandidate u ms c := by
  rw [resolve, members_eq_ok_iff.mpr hms, ok_bind]
  dsimp only
  cases habs : abstractOnes u (candidates u ms) with
  | nil =>
    constructor
    · intro h
      cases h
    · rintro ⟨_, _, h, -⟩
      cases h
  | cons c rest =>
    have hopen : ∀ c', c' ∈ c :: rest ↔
      c'.Open u ms := fun c' => by rw [← habs, mem_abstractOnes_iff]
    have hone : ∀ k, ((c :: rest).map Candidate.key).eraseDups = [k] ↔
        ∀ c' : Candidate, c'.Open u ms → c'.key = k := by
      intro k
      rw [eraseDups_eq_singleton_iff]
      refine ⟨fun h c' hc' => h.2 _ (List.mem_map_of_mem ((hopen c').mpr hc')),
        fun h => ⟨List.cons_ne_nil _ _, ?_⟩⟩
      rw [List.forall_mem_map]
      exact fun c' hc' => h c' ((hopen c').mp hc')
    have hself : c.Open u ms := (hopen c).mp List.mem_cons_self
    split
    · rename_i heq
      cases heq
    · rename_i c₀ _ k heq hkeys
      cases heq
      have hall := (hone k).mp hkeys
      constructor
      · intro h
        cases h
        exact ⟨c, rest, rfl, hself, fun c' hc' => (hall c' hc').trans (hall c hself).symm, rfl⟩
      · rintro ⟨_, _, heq, -, -, rfl⟩
        cases heq
        rfl
    · rename_i heq hkeys
      cases heq
      constructor
      · intro h
        cases h
      · rintro ⟨_, _, heq, -, hall, -⟩
        cases heq
        exact absurd ((hone c.key).mpr hall) (hkeys _)

/-- Which method of a target a closure implements, and when there is one. -/
structure Resolution (u : CompilationUnit) (target : Ty) : Prop where
  /-- The search from a member and the erasure of a type come to an end. -/
  searches : ∀ m, Searches (·.id) u.directSupertypes [m] [] (reachable u m)
  erases : ∀ id t t', Ty.Erases (u.typeParamsOf id) t t' ↔ t' = t.erasure (u.typeParamsOf id)
  /-- All that supertype edges lead to is met, each type once. -/
  met : ∀ (m : ClassType) c, Relation.ReflTransGen u.Edge m.id c →
    ∃! t, u.FirstReached m t ∧ t.id = c
  /-- A target that does not list what it must is refused. -/
  refused : (∀ ms, ¬Lists u target ms) → ∃ cause, resolve u target = .error cause
  /-- Any other has a method exactly if its open methods are the same method,
  and there is one. -/
  succeeds : ∀ ms, Lists u target ms →
    ((∃ f, resolve u target = .ok f) ↔ ∃! key, ∃ c : Candidate, c.Open u ms ∧ c.key = key)
  /-- The result is an open method of an interface that the member leads to. -/
  result : ∀ ms f, Lists u target ms → resolve u target = .ok f →
    ∃ c : Candidate, c.Open u ms ∧ ms[c.member]? = some f.interface ∧
      u.FirstReached f.interface c.owner ∧
      (f.interface :: f.markers).Perm ms ∧ f.method = c.id ∧ f.name = c.method.name ∧
      f.params = c.method.params.map (·.ty.subst (bindingsOf u c.owner)) ∧
      f.returnType = c.method.returnType.subst (bindingsOf u c.owner) ∧
      f.throws = c.method.throws.map (Ty.subst (bindingsOf u c.owner)) ∧
      f.erasedParams = u.erasedParams c.id ∧
      f.erasedReturn = c.method.returnType.erasure (u.typeParamsOf c.id)
  /-- Every open method has its name, and its parameters up to erasure. -/
  key : ∀ ms f, Lists u target ms → resolve u target = .ok f → ∀ c : Candidate, c.Open u ms →
    c.key = (f.name, f.params.map (·.erasure (u.typeParamsOf f.method)))

/-- The member that a candidate was reached from, followed by the others, are
the members. -/
theorem perm_ofCandidate {c : Candidate} {m : ClassType} (h : ms[c.member]? = some m) :
    (ofCandidate u ms c).interface = m ∧
      ((ofCandidate u ms c).interface :: (ofCandidate u ms c).markers).Perm ms := by
  obtain ⟨hlt, rfl⟩ := List.getElem?_eq_some_iff.mp h
  have hinterface : (ofCandidate u ms c).interface = ms[c.member] := by
    rw [ofCandidate, List.getD_eq_getElem?_getD, h]
    rfl
  refine ⟨hinterface, ?_⟩
  rw [hinterface]
  exact List.getElem_cons_eraseIdx_perm hlt

/-- What identifies a method is read off the result. -/
theorem key_ofCandidate {c : Candidate} (h : c.Met u ms) :
    c.key = ((ofCandidate u ms c).name,
      (ofCandidate u ms c).params.map
        (·.erasure (u.typeParamsOf (ofCandidate u ms c).method))) := by
  rw [Candidate.key, h.signature, signatureIn, ofCandidate, List.map_map]
  rfl

end FunctionalInterface

open FunctionalInterface in
/-- **Resolution finds the single abstract method**, and fails where there is
none or more than one, on every hierarchy whose type variables have bounds that
end. -/
theorem single_abstract_method {u : CompilationUnit} (hu : u.BoundsEnd) (target : Ty) :
    Resolution u target where
  searches := u.searches_reachable
  erases id _ _ := Ty.erases_iff (hu id)
  met _ _ := u.existsUnique_firstReached
  refused hnone := by
    cases hres : resolve u target with
    | error cause => exact ⟨cause, rfl⟩
    | ok f =>
      obtain ⟨ms, hms, -⟩ := resolve_eq_ok hres
      exact absurd (members_eq_ok_iff.mp hms) (hnone ms)
  succeeds ms hms := by
    constructor
    · rintro ⟨f, hf⟩
      obtain ⟨c, -, -, hopen, hall, -⟩ := (resolve_eq_ok_iff hms).mp hf
      refine ⟨c.key, ⟨c, hopen, rfl⟩, ?_⟩
      rintro _ ⟨c', hc', rfl⟩
      exact hall c' hc'
    · rintro ⟨key, ⟨c, hopen, rfl⟩, hunique⟩
      cases habs : abstractOnes u (candidates u ms) with
      | nil =>
        have hmem := mem_abstractOnes_iff.mpr hopen
        rw [habs] at hmem
        cases hmem
      | cons c₀ rest =>
        have hopen₀ : c₀.Open u ms :=
          mem_abstractOnes_iff.mp (by rw [habs]; exact List.mem_cons_self)
        refine ⟨_, (resolve_eq_ok_iff hms).mpr ⟨c₀, rest, habs, hopen₀, fun c' hc' => ?_, rfl⟩⟩
        exact (hunique _ ⟨c', hc', rfl⟩).trans (hunique _ ⟨c₀, hopen₀, rfl⟩).symm
  result ms f hms hf := by
    obtain ⟨c, -, -, hopen, -, rfl⟩ := (resolve_eq_ok_iff hms).mp hf
    obtain ⟨m, hm, hreached⟩ := hopen.reached
    obtain ⟨hinterface, hperm⟩ := perm_ofCandidate (u := u) hm
    exact ⟨c, hopen, by rw [hinterface]; exact hm, by rw [hinterface]; exact hreached,
      hperm, rfl, rfl, rfl, rfl, rfl, hopen.erased, rfl⟩
  key ms f hms hf c' hc' := by
    obtain ⟨c, -, -, hopen, hall, rfl⟩ := (resolve_eq_ok_iff hms).mp hf
    exact (hall c' hc').trans (key_ofCandidate hopen.toMet)

/-- Bounds end where none of them leads to a type variable. -/
theorem Ty.boundsEnd_of_headVar? {params : List TypeParam}
    (h : ∀ p ∈ params, p.bound.bind headVar? = none) :
    BoundsEnd params := by
  intro name hcycle
  obtain ⟨next, hlink, -⟩ := Relation.TransGen.head'_iff.mp hcycle
  rw [BoundLink, boundOf] at hlink
  cases hp : params.find? (·.name == name) with
  | none =>
    rw [hp] at hlink
    cases hlink
  | some p =>
    have hbound := h p (List.mem_of_find?_eq_some hp)
    rw [hp, Option.bind_some] at hlink
    split at hlink
    · rename_i other heq
      rw [heq] at hbound
      cases hbound
    · rw [hbound] at hlink
      cases hlink

theorem CompilationUnit.boundsEnd_of_headVar? {u : CompilationUnit}
    (h : ∀ d ∈ u.types, (∀ p ∈ d.typeParams, p.bound.bind Ty.headVar? = none) ∧
      ∀ m ∈ d.methods, ∀ p ∈ m.typeParams, p.bound.bind Ty.headVar? = none) : u.BoundsEnd := by
  refine fun id => Ty.boundsEnd_of_headVar? fun p hp => ?_
  rcases List.mem_append.mp hp with hp | hp
  · cases hd : u.decl? id.owner with
    | none =>
      rw [hd] at hp
      cases hp
    | some d =>
      rw [hd] at hp
      exact (h d (List.mem_of_getElem? hd)).1 p hp
  · cases hm : u.method? id with
    | none =>
      rw [hm] at hp
      cases hp
    | some m =>
      rw [hm] at hp
      obtain ⟨d, hd, hmem⟩ := Option.bind_eq_some_iff.mp hm
      exact (h d (List.mem_of_getElem? hd)).2 m (List.mem_of_getElem? hmem) p hp

namespace Growing

/-- Two generic interfaces that extend each other with growing type arguments.
One declares an abstract method and redeclares one that every object has, the
other has a default method. -/
def unit : CompilationUnit where
  name := "growing"
  sourcePath := none
  types := [
    { TypeDecl.empty 0 "Grow" .topLevel with
      isInterface := true
      typeParams := [⟨"T", none⟩]
      interfaces := [⟨1, [.array (.var "T")]⟩]
      methods := [
        ⟨"accept", [], [⟨1, "x", .var "T", true⟩], .void, [], .method, false,
          true, false, false, none, .dummy⟩,
        ⟨"toString", [], [], .string, [], .method, false, true, false, false, none, .dummy⟩] },
    { TypeDecl.empty 1 "Shrink" .topLevel with
      isInterface := true
      typeParams := [⟨"U", none⟩]
      interfaces := [⟨0, [.array (.var "U")]⟩]
      methods := [
        ⟨"accept", [], [⟨2, "y", .var "U", true⟩], .void, [], .method, false,
          false, true, false, some [],
          .dummy⟩] }]

theorem boundsEnd : unit.BoundsEnd := CompilationUnit.boundsEnd_of_headVar? (by decide)

/-- An intersection of a use with the root type. -/
def target : Ty := .inter [.object, .declared 0 [.string]]

theorem lists : FunctionalInterface.Lists unit target [⟨0, [.string]⟩] where
  listed := by
    refine List.forall_mem_cons.mpr ⟨.inl ⟨rfl, _, rfl⟩, List.forall_mem_cons.mpr ⟨.inr ?_, nofun⟩⟩
    exact ⟨⟨0, [.string]⟩, _, rfl, rfl, rfl⟩
  members := rfl
  ne_nil := nofun

end Growing

open FunctionalInterface in
/-- The default method has other parameters at the use where it is met, so the
abstract one is open, and it is the only one. -/
theorem single_abstract_method_growing :
    Growing.unit.BoundsEnd ∧ ∃ f, resolve Growing.unit Growing.target = .ok f ∧ f.method = ⟨0, 0⟩ ∧
      f.params = [.string] ∧ f.erasedParams = [.object] ∧
      ∃! key, ∃ c : Candidate, c.Open Growing.unit [⟨0, [.string]⟩] ∧ c.key = key := by
  have hres := single_abstract_method Growing.boundsEnd Growing.target
  have hrun : (resolve Growing.unit Growing.target).map (fun f =>
    (f.method, f.params, f.erasedParams)) =
      .ok (⟨0, 0⟩, [.string], [.object]) := by decide +kernel
  obtain ⟨f, hf, heq⟩ := map_eq_ok.mp hrun
  simp only [Prod.mk.injEq] at heq
  obtain ⟨hmethod, hparams, herased⟩ := heq
  exact ⟨Growing.boundsEnd, f, hf, hmethod.symm, hparams.symm, herased.symm,
    (hres.succeeds _ Growing.lists).mp ⟨f, hf⟩⟩

end Closures
