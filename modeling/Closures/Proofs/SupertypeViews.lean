import Closures.Proofs.MemberSearch
import Closures.Proofs.Redeclaration
import Closures.Proofs.SearchDistance

/-!
# Supertype views

`asSuper?` looks for an ancestor along one path after the other and keeps no
record of where it has been. The steps it is given are never felt in an acyclic
hierarchy: a path has no more edges than there are declared types
(`Acyclic.le_of_leads`), so the search is its own unbounded recursion
(`Acyclic.asSuper?_eq`) and finds an ancestor exactly if the subtype test does
(`Acyclic.isSome_asSuper?`).

On its way the search puts the type arguments of each use into the supertypes of
its declaration. This commutes with putting types in for the type variables of
the use itself, as long as supertypes mention no type variables but those of
their declaration, and all of these are bound: then what is put in twice can be
put in at once (`Ty.subst_ofArgs`).
-/

set_option autoImplicit false

namespace Closures

/-! ## Substitution in two steps -/

/-- Replace the bound type variables in the arguments of a use. -/
def ClassType.subst (s : Bindings) (t : ClassType) : ClassType := ⟨t.id, Ty.substList s t.args⟩

namespace Ty

mutual

/-- The type variables that a type mentions. -/
def vars : Ty → List String
  | var name => [name]
  | declared _ args => varsList args
  | array t => vars t
  | inter ts => varsList ts
  | void | null | primitive _ | boxed _ | object | string => []

/-- The type variables that the types of a list mention. -/
def varsList : List Ty → List String
  | [] => []
  | t :: ts => vars t ++ varsList ts

end

section Compose

variable {a b c : Bindings}

mutual

/-- Substitution in two steps is one substitution, if it is one for each type
variable that is mentioned. -/
theorem subst_subst_eq (t : Ty) (h : ∀ x ∈ t.vars, ((var x).subst a).subst b = (var x).subst c) :
    (t.subst a).subst b = t.subst c := by
  cases t with
  | var x => exact h x (by simp [vars])
  | declared id args =>
    rw [subst, subst, subst, substList_substList_eq args (by simpa [vars] using h)]
  | array t => rw [subst, subst, subst, subst_subst_eq t (by simpa [vars] using h)]
  | inter ts => rw [subst, subst, subst, substList_substList_eq ts (by simpa [vars] using h)]
  | void | null | primitive | boxed | object | string => rfl

theorem substList_substList_eq (ts : List Ty)
    (h : ∀ x ∈ varsList ts, ((var x).subst a).subst b = (var x).subst c) :
    substList b (substList a ts) = substList c ts := by
  cases ts with
  | nil => rfl
  | cons t ts =>
    have ht : (t.subst a).subst b = t.subst c :=
      subst_subst_eq t fun x hx => h x (List.mem_append_left _ hx)
    have hts : substList b (substList a ts) = substList c ts :=
      substList_substList_eq ts fun x hx => h x (List.mem_append_right _ hx)
    rw [substList, substList, substList, ht, hts]

end

end Compose

/-- A bound type variable stands for the argument of the first parameter of its
name, also after a further substitution in the arguments. -/
theorem subst_var_ofArgs {params : List TypeParam} {args : List Ty} (s : Bindings)
    (hlength : params.length = args.length) {x : String} (hx : x ∈ params.map (·.name)) :
    ((var x).subst (.ofArgs params args)).subst s =
      (var x).subst (.ofArgs params (substList s args)) := by
  rw [subst, subst, Bindings.lookup_ofArgs_substList]
  cases hlookup : (Bindings.ofArgs params args).lookup x with
  | none => exact absurd hx (Bindings.not_mem_of_lookup_ofArgs hlength hlookup)
  | some t => rfl

/-- **Types may be put into the arguments before or after these are put in**,
where only type parameters are mentioned. -/
theorem subst_ofArgs {params : List TypeParam} {args : List Ty} (s : Bindings)
    (hlength : params.length = args.length) {ts : List Ty}
    (hts : ∀ x ∈ varsList ts, x ∈ params.map (·.name)) :
    substList s (substList (.ofArgs params args) ts) =
      substList (.ofArgs params (substList s args)) ts :=
  substList_substList_eq ts fun x hx => subst_var_ofArgs s hlength (hts x hx)

theorem length_substList (s : Bindings) (ts : List Ty) : (substList s ts).length = ts.length := by
  rw [substList_eq_map, List.length_map]

end Ty

/-! ## Paths -/

section Paths

variable {α : Type} {r : α → α → Prop} {n : Nat} {a b c : α}

theorem Leads.cons (hab : r a b) (h : Leads r n b c) : Leads r (n + 1) a c := by
  induction h with
  | here => exact (Leads.here a).on hab
  | on _ hbc ih => exact (ih hab).on hbc

theorem Leads.exists_first (h : Leads r (n + 1) a c) : ∃ b, r a b ∧ Leads r n b c := by
  induction n generalizing c with
  | zero =>
    rcases h with _ | ⟨h, hbc⟩
    cases h
    exact ⟨c, hbc, .here c⟩
  | succ n ih =>
    rcases h with _ | ⟨h, hbc⟩
    obtain ⟨b, hab, hpath⟩ := ih h
    exact ⟨b, hab, hpath.on hbc⟩

end Paths

namespace CompilationUnit

variable {u : CompilationUnit}

theorem lt_of_edge {a b : ClassId} (h : u.Edge a b) : a.toNat < u.types.length := by
  rw [Edge, supertypesOf] at h
  cases hd : u.decl? a with
  | none => simp [hd] at h
  | some d => exact (List.getElem?_eq_some_iff.mp hd).1

/-- The types that a path leaves lie below its end. In an acyclic hierarchy they
are all different. -/
theorem Acyclic.exists_left (hu : u.Acyclic) {n : Nat} {a b : ClassId} (h : Leads u.Edge n a b) :
    ∃ left : List ClassId, left.length = n ∧ left.Nodup ∧
      ∀ x ∈ left, Relation.TransGen u.Edge x b ∧ x.toNat < u.types.length := by
  induction h with
  | here => exact ⟨[], rfl, .nil, fun _ hx => absurd hx List.not_mem_nil⟩
  | @on n a b c _ hbc ih =>
    obtain ⟨left, hlength, hnodup, hleft⟩ := ih
    refine ⟨b :: left, by rw [List.length_cons, hlength], List.nodup_cons.mpr ⟨?_, hnodup⟩, ?_⟩
    · exact fun hb => hu b (hleft b hb).1
    · intro x hx
      rcases List.mem_cons.mp hx with rfl | hx
      · exact ⟨.single hbc, lt_of_edge hbc⟩
      · exact ⟨(hleft x hx).1.tail hbc, (hleft x hx).2⟩

/-- **A path in an acyclic hierarchy has no more edges than there are
types.** -/
theorem Acyclic.le_of_leads (hu : u.Acyclic) {n : Nat} {a b : ClassId} (h : Leads u.Edge n a b) :
    n ≤ u.types.length := by
  obtain ⟨left, hlength, hnodup, hleft⟩ := hu.exists_left h
  have hplaces : (left.map UInt32.toNat).Nodup := hnodup.map fun _ _ => UInt32.toNat_inj.mp
  have hsubset : left.map UInt32.toNat ⊆ List.range u.types.length := by
    intro i hi
    obtain ⟨x, hx, rfl⟩ := List.mem_map.mp hi
    exact List.mem_range.mpr (hleft x hx).2
  have hle := hplaces.length_le_of_subset hsubset
  rwa [List.length_map, hlength, List.length_range] at hle

/-! ## The search for an ancestor -/

section Search

variable {ancestor : ClassId} {t : ClassType}

theorem findSome?_congr {α β : Type} {f g : α → Option β} {l : List α} (h : ∀ x ∈ l, f x = g x) :
    l.findSome? f = l.findSome? g := by
  rw [← List.head?_filterMap, ← List.head?_filterMap, List.filterMap_congr h]

theorem edge_iff_directSupertypes {b : ClassId} :
    u.Edge t.id b ↔ ∃ s ∈ u.directSupertypes t, s.id = b := by
  rw [Edge, ← map_id_directSupertypes, List.mem_map]

/-- What is found is a use of the ancestor. -/
theorem id_of_asSuperWithin {n : Nat} {v : ClassType} (h : u.asSuperWithin ancestor n t = some v) :
    v.id = ancestor := by
  induction n generalizing t with
  | zero =>
    rw [asSuperWithin] at h
    split at h
    · cases h
      assumption
    · cases h
  | succ n ih =>
    rw [asSuperWithin] at h
    split at h
    · cases h
      assumption
    · obtain ⟨s, -, hs⟩ := List.exists_of_findSome?_eq_some h
      exact ih hs

/-- The search finds what some path of its number of edges leads to. -/
theorem isSome_asSuperWithin {n : Nat} :
    (u.asSuperWithin ancestor n t).isSome ↔ ∃ k ≤ n, Leads u.Edge k t.id ancestor := by
  induction n generalizing t with
  | zero =>
    rw [asSuperWithin]
    split
    · rename_i heq
      exact iff_of_true rfl ⟨0, Nat.le_refl 0, heq ▸ .here t.id⟩
    · rename_i hne
      refine iff_of_false (by simp) ?_
      rintro ⟨k, hk, hpath⟩
      cases Nat.le_zero.mp hk
      cases hpath
      exact hne rfl
  | succ n ih =>
    rw [asSuperWithin]
    split
    · rename_i heq
      exact iff_of_true rfl ⟨0, Nat.zero_le _, heq ▸ .here t.id⟩
    · rename_i hne
      rw [List.findSome?_isSome_iff]
      constructor
      · rintro ⟨s, hs, hfound⟩
        obtain ⟨k, hk, hpath⟩ := ih.mp hfound
        exact ⟨k + 1, Nat.succ_le_succ hk, hpath.cons (edge_iff_directSupertypes.mpr ⟨s, hs, rfl⟩)⟩
      · rintro ⟨k, hk, hpath⟩
        cases k with
        | zero =>
          cases hpath
          exact absurd rfl hne
        | succ k =>
          obtain ⟨b, hedge, hrest⟩ := hpath.exists_first
          obtain ⟨s, hs, rfl⟩ := edge_iff_directSupertypes.mp hedge
          exact ⟨s, hs, ih.mpr ⟨k, Nat.le_of_succ_le_succ hk, hrest⟩⟩

/-- A further step changes nothing where no path is so long. -/
theorem asSuperWithin_succ {n : Nat} (h : ∀ b, ¬Leads u.Edge (n + 1) t.id b) :
    u.asSuperWithin ancestor (n + 1) t = u.asSuperWithin ancestor n t := by
  induction n generalizing t with
  | zero =>
    have hnone : u.directSupertypes t = [] := by
      refine List.eq_nil_iff_forall_not_mem.mpr fun s hs => h s.id ?_
      exact (Leads.here t.id).on (edge_iff_directSupertypes.mpr ⟨s, hs, rfl⟩)
    rw [asSuperWithin, asSuperWithin, hnone, List.findSome?_nil]
  | succ n ih =>
    have hrest : (u.directSupertypes t).findSome? (u.asSuperWithin ancestor (n + 1)) =
        (u.directSupertypes t).findSome? (u.asSuperWithin ancestor n) := by
      refine findSome?_congr fun s hs => ih fun b hpath => h b ?_
      exact hpath.cons (edge_iff_directSupertypes.mpr ⟨s, hs, rfl⟩)
    rw [asSuperWithin, asSuperWithin, hrest]

/-- **The search is its own unbounded recursion** in an acyclic hierarchy. -/
theorem Acyclic.asSuper?_eq (hu : u.Acyclic) (t : ClassType) (ancestor : ClassId) :
    u.asSuper? t ancestor =
      if t.id = ancestor then some t else (u.directSupertypes t).findSome?
        (u.asSuper? · ancestor) := by
  -- the bound is never felt, so one step more makes no difference and can be unfolded
  have hlong : ∀ b, ¬Leads u.Edge (u.types.length + 1) t.id b :=
    fun b h => Nat.not_succ_le_self _ (hu.le_of_leads h)
  rw [asSuper?, ← asSuperWithin_succ hlong, asSuperWithin]
  rfl

/-- **An ancestor is found exactly if the subtype test says that it is one.** -/
theorem Acyclic.isSome_asSuper? (hu : u.Acyclic) (t : ClassType) (ancestor : ClassId) :
    (u.asSuper? t ancestor).isSome = u.isSubclass t.id ancestor := by
  rw [Bool.eq_iff_iff, asSuper?, isSome_asSuperWithin, isSubclass_iff]
  constructor
  · rintro ⟨k, -, hpath⟩
    exact hpath.reaches
  · intro hreach
    obtain ⟨k, hpath⟩ := exists_leads hreach
    exact ⟨k, hu.le_of_leads hpath, hpath⟩

end Search

/-! ## Substitution in a use -/

/-- A use of a type has as many arguments as the declaration has parameters. -/
def Saturated (u : CompilationUnit) (t : ClassType) : Prop :=
  ∀ d, u.decl? t.id = some d → t.args.length = d.typeParams.length

/-- The supertypes of a declaration mention only its own type parameters, and
have as many arguments as their declarations have parameters. -/
structure ClosedSupertypes (u : CompilationUnit) : Prop where
  vars : ∀ d ∈ u.types, ∀ s ∈ d.supertypes, ∀ x ∈ Ty.varsList s.args, x ∈ d.typeParams.map (·.name)
  saturated : ∀ d ∈ u.types, ∀ s ∈ d.supertypes, u.Saturated s

namespace ClosedSupertypes

variable {t : ClassType}

theorem saturated_directSupertypes (h : u.ClosedSupertypes) :
    ∀ s ∈ u.directSupertypes t, u.Saturated s := by
  intro s hs
  rw [directSupertypes] at hs
  cases hd : u.decl? t.id with
  | none => simp [hd] at hs
  | some d =>
    rw [hd] at hs
    obtain ⟨s', hs', rfl⟩ := List.mem_map.mp hs
    intro d' hd'
    rw [Ty.length_substList]
    exact h.saturated d (mem_of_decl? hd) s' hs' d' hd'

/-- One step up commutes with substitution. -/
theorem directSupertypes_subst (h : u.ClosedSupertypes) (ht : u.Saturated t) (s : Bindings) :
    u.directSupertypes (t.subst s) = (u.directSupertypes t).map (ClassType.subst s) := by
  rw [directSupertypes, directSupertypes, ClassType.subst]
  cases hd : u.decl? t.id with
  | none => rfl
  | some d =>
    simp only [List.map_map]
    refine List.map_congr_left fun sup hsup => ?_
    exact congrArg (ClassType.mk sup.id)
      (Ty.subst_ofArgs s (ht d hd).symm (h.vars d (mem_of_decl? hd) sup hsup)).symm

/-- The whole search commutes with substitution. -/
theorem asSuperWithin_subst (h : u.ClosedSupertypes) (s : Bindings) (ancestor : ClassId) {n : Nat}
    (ht : u.Saturated t) :
    u.asSuperWithin ancestor n (t.subst s) = (u.asSuperWithin ancestor n t).map
      (ClassType.subst s) := by
  induction n generalizing t with
  | zero =>
    rw [asSuperWithin, asSuperWithin, ClassType.subst]
    split <;> rfl
  | succ n ih =>
    have hrest : (u.directSupertypes (t.subst s)).findSome? (u.asSuperWithin ancestor n) =
        ((u.directSupertypes t).findSome? (u.asSuperWithin ancestor n)).map
          (ClassType.subst s) := by
      rw [h.directSupertypes_subst ht, List.findSome?_map, List.map_findSome?]
      exact findSome?_congr fun sup hsup => ih (h.saturated_directSupertypes sup hsup)
    rw [asSuperWithin, asSuperWithin, hrest, ClassType.subst]
    split <;> rfl

end ClosedSupertypes

end CompilationUnit

/-- **Supertype views agree with subtyping and commute with substitution.** In
an acyclic hierarchy a use of a type can be seen as a use of another one exactly
if that is an ancestor; the view is a use of the ancestor, and found by
following each path to its end. Where supertypes mention only the type
parameters of their declaration and no use is raw, types may be put into the
arguments before or after. -/
theorem supertype_views {u : CompilationUnit} (hu : u.Acyclic) (t : ClassType)
    (ancestor : ClassId) :
    (u.asSuper? t ancestor).isSome = u.isSubclass t.id ancestor ∧
    (∀ v, u.asSuper? t ancestor = some v → v.id = ancestor) ∧
    u.asSuper? t ancestor =
      (if t.id = ancestor then some t else (u.directSupertypes t).findSome?
        (u.asSuper? · ancestor)) ∧
    (u.ClosedSupertypes → u.Saturated t → ∀ s : Bindings,
      u.asSuper? (t.subst s) ancestor = (u.asSuper? t ancestor).map (ClassType.subst s)) :=
  ⟨hu.isSome_asSuper? t ancestor, fun _ h => CompilationUnit.id_of_asSuperWithin h,
    hu.asSuper?_eq t ancestor, fun hclosed ht s => hclosed.asSuperWithin_subst s ancestor ht⟩

namespace Fold

/-- A type with type parameters and one supertype at most. -/
def generic (id : ClassId) (name : String) (params : List String) (extended : Option ClassType) :
    TypeDecl :=
  { TypeDecl.empty id name .topLevel with
    isInterface := true, typeParams := params.map (⟨·, none⟩), interfaces := extended.toList }

/-- `interface Combine<A, B, R>`,
`interface Merge<B, A> extends Combine<A, B[], A>` and
`interface Sum<T> extends Merge<T, Sum<T>>`. -/
def unit : CompilationUnit where
  name := "fold"
  sourcePath := none
  types :=
    [generic 0 "Combine" ["A", "B", "R"] none,
      generic 1 "Merge" ["B", "A"] (some ⟨0, [.var "A", .array (.var "B"), .var "A"]⟩),
      generic 2 "Sum" ["T"] (some ⟨1, [.var "T", .declared 2 [.var "T"]]⟩)]

theorem closedSupertypes : unit.ClosedSupertypes where
  vars := by decide
  saturated := by
    have hall : ∀ d ∈ unit.types, ∀ s ∈ d.supertypes,
        ((unit.decl? s.id).all fun d' => s.args.length == d'.typeParams.length) = true := by decide
    intro d hd s hs d' hd'
    have hlength := hall d hd s hs
    rw [hd'] at hlength
    simpa using hlength

end Fold

/-- A sum of `B`s is a combination of three types, in which `B` is replaced
though two of the declarations on the way have a parameter of that name. -/
theorem supertype_views_fold :
    Fold.unit.Acyclic ∧ Fold.unit.ClosedSupertypes ∧ Fold.unit.Saturated ⟨2, [.var "B"]⟩ ∧
    (Fold.unit.asSuper? ⟨2, [.var "B"]⟩ 0).isSome = Fold.unit.isSubclass 2 0 ∧
    (Fold.unit.asSuper? ⟨0, [.string, .string, .string]⟩ 2).isSome = Fold.unit.isSubclass 0 2 ∧
    Fold.unit.asSuper? ⟨2, [.var "B"]⟩ 0 =
      some ⟨0, [.declared 2 [.var "B"], .array (.var "B"), .declared 2 [.var "B"]]⟩ ∧
    Fold.unit.asSuper? ⟨2, [.array .string]⟩ 0 =
      some ⟨0, [.declared 2 [.array .string], .array (.array .string),
        .declared 2 [.array .string]]⟩ := by
  have hacyclic : Fold.unit.Acyclic := CompilationUnit.acyclic_of_lt (by decide)
  have hsaturated : Fold.unit.Saturated ⟨2, [.var "B"]⟩ := by
    intro d hd
    cases hd
    rfl
  have hview : Fold.unit.asSuper? ⟨2, [.var "B"]⟩ 0 =
      some ⟨0, [.declared 2 [.var "B"], .array (.var "B"), .declared 2 [.var "B"]]⟩ := rfl
  obtain ⟨hup, -, -, hsubst⟩ := supertype_views hacyclic ⟨2, [.var "B"]⟩ 0
  obtain ⟨hdown, -, -, -⟩ := supertype_views hacyclic ⟨0, [.string, .string, .string]⟩ 2
  refine ⟨hacyclic, Fold.closedSupertypes, hsaturated, hup, hdown, hview, ?_⟩
  have hboth := hsubst Fold.closedSupertypes hsaturated [("B", .array .string)]
  rw [hview] at hboth
  exact hboth

end Closures
