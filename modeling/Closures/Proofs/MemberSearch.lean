import Mathlib.Algebra.Group.Nat.Defs
import Closures.Machine.Dispatch
import Closures.Proofs.Hierarchy
import Closures.Proofs.Nesting

/-!
# The search for members

`findMethods` goes through a type and its supertypes breadth first, classes and
interfaces alike; dispatch goes through the superclasses and then through the
interfaces. This file says what the two have in common.

* The methods that are found are the **nearest** ones: nothing that is met
  before declares the same name and erased parameters
  (`nearest_of_mem_findMethods`).
* In a unit whose hierarchy is acyclic and declared as it should be, the search
  meets the superclasses of a type in their order
  (`exists_lineage_of_ancestors`).
* Whatever the search meets is a superclass, or one of the interfaces that
  dispatch goes through (`mem_lineage_or_mem_interfaceOrder`).
-/

set_option autoImplicit false

namespace Closures

namespace CompilationUnit

/-! ## Declared methods -/

/-- Every method has a number of its own. -/
def NumbersMethods (u : CompilationUnit) : Prop :=
  ∀ d ∈ u.types, d.methods.length ≤ 2 ^ 32

instance (u : CompilationUnit) : Decidable u.NumbersMethods := List.decidableBAll _ _

section Declared

variable {u : CompilationUnit} {c : ClassId} {x : MethodId × Method}

theorem mem_of_decl? {d : TypeDecl} (h : u.decl? c = some d) : d ∈ u.types := List.mem_of_getElem? h

theorem method?_of_mem_methodsOf (hu : u.NumbersMethods) (hx : x ∈ u.methodsOf c) :
    u.method? x.1 = some x.2 := by
  rw [methodsOf] at hx
  split at hx
  · rename_i d hd
    obtain ⟨⟨m, i⟩, hmem, rfl⟩ := List.mem_map.mp hx
    have hi : d.methods[i]? = some m := List.mem_zipIdx_iff_getElem?.mp hmem
    have hlt : i < 2 ^ 32 :=
      Nat.lt_of_lt_of_le (List.getElem?_eq_some_iff.mp hi).1 (hu d (mem_of_decl? hd))
    refine Option.bind_eq_some_iff.mpr ⟨d, hd, ?_⟩
    have hindex : i.toUInt32.toNat = i := UInt32.toNat_ofNat_of_lt' hlt
    rw [hindex]
    exact hi
  · cases hx

theorem owner_of_mem_methodsOf (h : x ∈ u.methodsOf c) : x.1.owner = c := by
  rw [methodsOf] at h
  split at h
  · obtain ⟨y, -, rfl⟩ := List.mem_map.mp h
    rfl
  · cases h

theorem exists_decl?_of_mem_methodsOf (h : x ∈ u.methodsOf c) :
    ∃ d, u.decl? c = some d ∧ x.2 ∈ d.methods := by
  rw [methodsOf] at h
  split at h
  · rename_i d hd
    obtain ⟨⟨m, i⟩, hmem, rfl⟩ := List.mem_map.mp h
    exact ⟨d, hd, List.mem_of_getElem? (List.mem_zipIdx_iff_getElem?.mp hmem)⟩
  · cases h

end Declared

/-! ## Nearest declarations -/

section Nearest

variable (u : CompilationUnit)

/-- What is added along a list is what comes first with its erased
parameters. -/
theorem mem_foldl_addUnlessOverridden {t : MethodId} (ids found : List MethodId) :
    t ∈ ids.foldl u.addUnlessOverridden found ↔
      t ∈ found ∨ (∀ f ∈ found, u.erasedParams f ≠ u.erasedParams t) ∧
        ids.find? (fun id => u.erasedParams id == u.erasedParams t) = some t := by
  induction ids generalizing found with
  | nil => simp
  | cons id ids ih =>
    rw [List.foldl_cons, ih, addUnlessOverridden, List.find?_cons]
    by_cases hkey : u.erasedParams id = u.erasedParams t
    · simp only [hkey, beq_self_eq_true]
      split
      · rename_i hany
        simp at hany
        grind
      · rename_i hany
        simp at hany
        grind
    · have hbeq : (u.erasedParams id == u.erasedParams t) = false := by simpa using hkey
      simp only [hbeq]
      split
      · rfl
      · grind

/-- The first method of a name and of erased parameters that a type declares. -/
def declaredAs? (name : String) (erased : List Ty) (c : ClassId) : Option (MethodId × Method) :=
  (u.methodsOf c).find? fun x => x.2.name == name && x.2.kind == .method &&
    u.erasedParams x.1 == erased

/-- **The methods that are found are the nearest ones**: no type that is met
before declares one of the same name and erased parameters. -/
theorem mem_findMethods {id : ClassId} {name : String} {t : MethodId} :
    t ∈ u.findMethods id name ↔
      (u.ancestors id).findSome? (fun c => (u.declaredAs? name (u.erasedParams t) c).map (·.1)) =
        some t := by
  have hfind : (u.methodsNamed id name).find? (fun x => u.erasedParams x == u.erasedParams t) =
      (u.ancestors id).findSome? fun c => (u.declaredAs? name (u.erasedParams t) c).map (·.1) := by
    simp only [methodsNamed, List.find?_flatMap, List.find?_map, List.find?_filter, declaredAs?,
      Bool.decide_and, Bool.decide_eq_true, Function.comp_def]
  rw [findMethods, mem_foldl_addUnlessOverridden, hfind]
  simp

/-- **A method is nearest** to a type if it is the first of its name and erased
parameters in its own type, and no type that is met before has one. -/
structure Nearest (type : ClassId) (name : String) (t : MethodId) (m : Method) : Prop where
  declared : u.declaredAs? name (u.erasedParams t) t.owner = some (t, m)
  first : ∃ before after, u.ancestors type = before ++ t.owner :: after ∧
    ∀ c ∈ before, u.declaredAs? name (u.erasedParams t) c = none

variable {u}

theorem nearest_of_mem_findMethods (hnumbers : u.NumbersMethods) {type : ClassId} {name : String}
    {t : MethodId} (h : t ∈ u.findMethods type name) :
    ∃ m, u.method? t = some m ∧ u.Nearest type name t m := by
  obtain ⟨before, c, after, hsplit, hc, hbefore⟩ :=
    List.findSome?_eq_some_iff.mp (u.mem_findMethods.mp h)
  obtain ⟨⟨t', m⟩, hdeclared, rfl⟩ := Option.map_eq_some_iff.mp hc
  have hmem := List.mem_of_find?_eq_some hdeclared
  obtain rfl : t'.owner = c := owner_of_mem_methodsOf hmem
  exact ⟨m, method?_of_mem_methodsOf hnumbers hmem, hdeclared, before, after, hsplit,
    fun c hc => Option.map_eq_none_iff.mp (hbefore c hc)⟩

/-- No two of the methods that are found have the same erased parameters. -/
theorem eq_of_mem_findMethods {type : ClassId} {name : String} {t r : MethodId}
    (ht : t ∈ u.findMethods type name) (hr : r ∈ u.findMethods type name)
    (h : u.erasedParams r = u.erasedParams t) : r = t := by
  rw [mem_findMethods] at ht hr
  rw [h, ht] at hr
  exact (Option.some.inj hr).symm

end Nearest

/-! ## Well-declared units -/

/-- No type is above itself. -/
def Acyclic (u : CompilationUnit) : Prop := ∀ c, ¬Relation.TransGen u.Edge c c

/-- A hierarchy is acyclic if supertypes are declared before the types that use
them. -/
theorem acyclic_of_lt {u : CompilationUnit}
    (h : ∀ x ∈ u.types.zipIdx, ∀ s ∈ x.1.supertypes, s.id.toNat < x.2) : u.Acyclic := by
  have hedge : ∀ {a b}, u.Edge a b → b.toNat < a.toNat := by
    intro a b hab
    rw [Edge, supertypesOf] at hab
    cases hd : u.decl? a with
    | none => simp [hd] at hab
    | some d =>
      rw [hd] at hab
      obtain ⟨s, hs, rfl⟩ := List.mem_map.mp hab
      exact h (d, a.toNat) (List.mem_zipIdx_iff_getElem?.mpr hd) s hs
  have hpath : ∀ {a b}, Relation.TransGen u.Edge a b → b.toNat < a.toNat := by
    intro a b hab
    induction hab with
    | single hab => exact hedge hab
    | tail _ hbc ih => exact Nat.lt_trans (hedge hbc) ih
  exact fun c hc => Nat.lt_irrefl _ (hpath hc)

/-- Superclasses are classes and interfaces are interfaces, and the marks of
methods fit: among the methods proper that are not static the abstract ones are
those without a body, and the others are the default methods of an interface. -/
structure WellDeclared (u : CompilationUnit) : Prop where
  superclass : ∀ d ∈ u.types, ∀ c ∈ d.superclass.toList,
    d.isInterface = false ∧ (u.decl? c.id).any (!·.isInterface) = true
  interfaces : ∀ d ∈ u.types, ∀ c ∈ d.interfaces, (u.decl? c.id).all (·.isInterface) = true
  abstracts : ∀ d ∈ u.types, ∀ m ∈ d.methods, m.kind = .method → m.isStatic = false →
    m.isAbstract = m.body.isNone
  defaults : ∀ d ∈ u.types, d.isInterface = true → ∀ m ∈ d.methods,
    m.isDefault = (m.kind == .method && !m.isStatic && !m.isAbstract)
  numbers : u.NumbersMethods

section Lineage

variable {u : CompilationUnit} {c d x : ClassId}

theorem mem_supertypesOf :
    x ∈ u.supertypesOf c ↔ u.superclass? c = some x ∨ x ∈ u.interfacesOf c := by
  rw [supertypesOf, superclass?, interfacesOf]
  cases u.decl? c with
  | none => simp
  | some d => cases hs : d.superclass <;> simp [TypeDecl.supertypes, hs, eq_comm]

/-- A walk goes on as long as there is a link. -/
theorem follow_next {link : ClassId → Option ClassId} {n : Nat} {y : ClassId}
    {before after : List ClassId} (h : follow link n c = before ++ y :: after)
    (hx : link y = some x) :
    (∃ rest, after = x :: rest) ∨ before.length = n := by
  induction n generalizing c before with
  | zero =>
    rw [follow] at h
    cases before with
    | nil => exact .inr rfl
    | cons b before => simp at h
  | succ n ih =>
    cases before with
    | nil =>
      rw [follow] at h
      cases hl : link c with
      | none =>
        rw [hl] at h
        cases h
        rw [hl] at hx
        cases hx
      | some next =>
        rw [hl] at h
        obtain ⟨rfl, rfl⟩ := List.cons.inj h
        obtain ⟨rest, hrest⟩ := follow_eq_cons link n next
        rw [hl] at hx
        cases hx
        exact .inl ⟨rest, hrest⟩
    | cons b before =>
      rw [follow] at h
      cases hl : link c with
      | none =>
        rw [hl] at h
        simp at h
      | some next =>
        rw [hl] at h
        rcases ih (List.cons.inj h).2 with hnext | hlen
        · exact .inl hnext
        · exact .inr (congrArg (· + 1) hlen)

/-- Each type on a walk is linked to the next. -/
theorem isChain_follow (link : ClassId → Option ClassId) (n : Nat) (c : ClassId) :
    (follow link n c).IsChain fun a b => link a = some b := by
  induction n generalizing c with
  | zero => exact .singleton c
  | succ n ih =>
    rw [follow]
    cases hl : link c with
    | none => exact .singleton c
    | some next =>
      obtain ⟨rest, hrest⟩ := follow_eq_cons link n next
      have := ih next
      dsimp only
      rw [hrest] at this ⊢
      exact .cons_cons hl this

theorem edge_of_superclass? (h : u.superclass? c = some x) :
    u.Edge c x := mem_supertypesOf.mpr (.inl h)

/-- A lineage meets no type twice. -/
theorem Acyclic.nodup_lineage (h : u.Acyclic) (c : ClassId) : (u.lineage c).Nodup := by
  have hchain := (isChain_follow u.superclass? u.types.length c).imp
    fun _ _ hlink => Relation.TransGen.single (edge_of_superclass? hlink)
  refine (List.isChain_iff_pairwise.mp hchain).imp ?_
  rintro a b hab rfl
  exact h a hab

theorem lt_of_superclass? (h : u.superclass? c = some x) : c.toNat < u.types.length := by
  rw [superclass?] at h
  cases hd : u.decl? c with
  | none => rw [hd] at h; cases h
  | some d => exact (List.getElem?_eq_some_iff.mp hd).1

theorem exists_rel_of_isChain {α : Type} {R : α → α → Prop} {before after : List α} {y : α}
    (h : (before ++ y :: after).IsChain R) : ∀ a ∈ before, ∃ b, R a b := by
  induction before with
  | nil => exact fun _ h => nomatch h
  | cons a before ih =>
    rw [List.forall_mem_cons]
    cases before with
    | nil =>
      rw [List.singleton_append, List.isChain_cons_cons] at h
      exact ⟨⟨y, h.1⟩, fun _ h => nomatch h⟩
    | cons b before =>
      rw [List.cons_append, List.cons_append, List.isChain_cons_cons] at h
      exact ⟨⟨b, h.1⟩, ih h.2⟩

/-- **A lineage is complete**: it goes on to the superclass of each of its
types. -/
theorem Acyclic.lineage_next (h : u.Acyclic) {y : ClassId} {before after : List ClassId}
    (hy : u.lineage c = before ++ y :: after) (hx : u.superclass? y = some x) :
    ∃ rest, after = x :: rest := by
  rcases follow_next hy hx with hnext | hlen
  · exact hnext
  · exfalso
    -- otherwise there are more different types with a superclass than types
    have hchain := isChain_follow u.superclass? u.types.length c
    have hnodup := h.nodup_lineage c
    rw [show follow _ _ _ = _ from hy] at hchain
    rw [hy, List.append_cons] at hnodup
    have hlt : ∀ i ∈ (before ++ [y]).map UInt32.toNat, i ∈ List.range u.types.length := by
      intro i hi
      obtain ⟨a, ha, rfl⟩ := List.mem_map.mp hi
      rw [List.mem_range]
      rcases List.mem_append.mp ha with ha | ha
      · obtain ⟨b, hb⟩ := exists_rel_of_isChain hchain a ha
        exact lt_of_superclass? hb
      · rw [List.mem_singleton.mp ha]
        exact lt_of_superclass? hx
    have hle := (List.subperm_of_subset
      ((List.Nodup.of_append_left hnodup).map fun _ _ => UInt32.toNat_inj.mp) hlt).length_le
    rw [List.length_map, List.length_append, List.length_singleton, hlen, List.length_range] at hle
    omega

/-! ## Lineages in the search -/

/-- Whether a number is that of a class. -/
def isClass (u : CompilationUnit) (c : ClassId) : Bool := (u.decl? c).any (!·.isInterface)

theorem WellDeclared.superclass? (h : u.WellDeclared) (hx : u.superclass? c = some x) :
    u.isClass c = true ∧ u.isClass x = true := by
  rw [CompilationUnit.superclass?] at hx
  cases hd : u.decl? c with
  | none => rw [hd] at hx; cases hx
  | some d =>
    rw [hd] at hx
    obtain ⟨s, hs, rfl⟩ := Option.map_eq_some_iff.mp hx
    obtain ⟨hclass, hsuper⟩ := h.superclass d (mem_of_decl? hd) s (Option.mem_toList.mpr hs)
    exact ⟨by simp [isClass, hd, hclass], hsuper⟩

theorem WellDeclared.not_isClass (h : u.WellDeclared) (hx : x ∈ u.interfacesOf c) :
    u.isClass x = false := by
  rw [interfacesOf] at hx
  cases hd : u.decl? c with
  | none => simp [hd] at hx
  | some d =>
    rw [hd] at hx
    obtain ⟨i, hi, rfl⟩ := List.mem_map.mp hx
    have hall := h.interfaces d (mem_of_decl? hd) i hi
    rw [isClass]
    cases hd' : u.decl? i.id with
    | none => rfl
    | some d' =>
      rw [hd'] at hall
      simp_all

theorem WellDeclared.isClass_lineage (h : u.WellDeclared) (hc : u.isClass c = true) :
    ∀ x ∈ u.lineage c, u.isClass x = true := by
  rw [lineage]
  generalize u.types.length = n
  induction n generalizing c with
  | zero => exact List.forall_mem_singleton.mpr hc
  | succ n ih =>
    rw [follow]
    cases hs : u.superclass? c with
    | none => exact List.forall_mem_singleton.mpr hc
    | some next => exact List.forall_mem_cons.mpr ⟨hc, ih (h.superclass? hs).2⟩

/-- What a search meets after its start, it meets through something that it met
before. -/
theorem exists_before_of_breadthFirst {α κ : Type} [BEq κ] {key : α → κ} {next : α → List α} {x : α}
    {steps : Nat} {queue before after : List α} {seen : List κ}
    (h : breadthFirst key next steps queue seen = before ++ x :: after) :
    x ∈ queue ∨ ∃ y ∈ before, x ∈ next y := by
  induction steps generalizing queue seen before with
  | zero => simp [breadthFirst] at h
  | succ steps ih =>
    cases queue with
    | nil => simp [breadthFirst] at h
    | cons z queue =>
      rw [breadthFirst] at h
      split at h
      · rcases ih h with hx | hx
        · exact .inl (List.mem_cons_of_mem _ hx)
        · exact .inr hx
      · cases before with
        | nil => exact .inl ((List.cons.inj h).1 ▸ List.mem_cons_self)
        | cons b before =>
          obtain ⟨hz, hrest⟩ := List.cons.inj h
          rcases ih hrest with hx | ⟨y, hy, hx⟩
          · rcases List.mem_append.mp hx with hx | hx
            · exact .inl (List.mem_cons_of_mem _ hx)
            · exact .inr ⟨z, hz ▸ List.mem_cons_self, hx⟩
          · exact .inr ⟨y, List.mem_cons_of_mem _ hy, hx⟩

/-- **The search for members meets the classes in the order of the lineage.** -/
theorem exists_lineage_of_ancestors (hacyclic : u.Acyclic) (hwell : u.WellDeclared)
    {before after : List ClassId} (h : u.ancestors c = before ++ x :: after)
    (hx : u.isClass x = true) :
    ∃ front rest, u.lineage c = front ++ x :: rest ∧ ∀ y ∈ front, y ∈ before := by
  -- on what was met before: a class is met through a class that it is the superclass of
  induction hn : before.length using Nat.strongRecOn generalizing x before after with
  | ind n ih =>
    rcases exists_before_of_breadthFirst h with hstart | ⟨y, hy, hedge⟩
    · obtain rfl := List.mem_singleton.mp hstart
      obtain ⟨rest, hrest⟩ := follow_eq_cons u.superclass? u.types.length x
      exact ⟨[], rest, hrest, fun _ h => nomatch h⟩
    · rcases mem_supertypesOf.mp hedge with hsuper | hinterface
      · obtain ⟨before', after', rfl⟩ := List.append_of_mem hy
        have hsplit : u.ancestors c = before' ++ y :: (after' ++ x :: after) := by
          rw [h, List.append_assoc, List.cons_append]
        have hlt : before'.length < n := by
          rw [← hn, List.length_append, List.length_cons]
          omega
        obtain ⟨front, rest, hlineage, hfront⟩ := ih _ hlt hsplit (hwell.superclass? hsuper).1 rfl
        obtain ⟨rest', rfl⟩ := hacyclic.lineage_next hlineage hsuper
        refine ⟨front ++ [y], rest', by rw [hlineage, List.append_cons], ?_⟩
        refine List.forall_mem_append.mpr ⟨fun z hz => ?_, List.forall_mem_singleton.mpr hy⟩
        exact List.mem_append_left _ (hfront z hz)
      · rw [hwell.not_isClass hinterface] at hx
        cases hx

/-! ## Interfaces -/

theorem length_interfacesOf_le (u : CompilationUnit) (c : ClassId) :
    (u.interfacesOf c).length ≤ (u.supertypesOf c).length := by
  rw [interfacesOf, supertypesOf]
  cases u.decl? c with
  | none => exact Nat.le_refl _
  | some d => simp [TypeDecl.supertypes]

theorem interfacesOf_length_add_edgesOutside_le (u : CompilationUnit) (seen : List ClassId)
    (c : ClassId)
    (hc : c ∉ seen) :
      (u.interfacesOf c).length + u.edgesOutside (c :: seen) ≤ u.edgesOutside seen :=
  Nat.le_trans (Nat.add_le_add_right (u.length_interfacesOf_le c) _)
    (u.supertypesOf_length_add_edgesOutside_le seen c hc)

/-- The interfaces of types, and what those extend, are all listed. -/
theorem interfaceOrder_covers (u : CompilationUnit) (types : List ClassId) :
    (∀ c ∈ types, ∀ x ∈ u.interfacesOf c, x ∈ u.interfaceOrder types) ∧
      ∀ c ∈ u.interfaceOrder types, ∀ x ∈ u.interfacesOf c, x ∈ u.interfaceOrder types := by
  have hsteps : (types.flatMap u.interfacesOf).length + u.edgesOutside [] ≤
      (types.flatMap u.interfacesOf).length + u.edgeCount := by rw [edgesOutside_nil]
  obtain ⟨hstart, hclosed⟩ :=
    breadthFirst_covers u.interfacesOf_length_add_edgesOutside_le _ _ [] hsteps
  simp only [List.not_mem_nil, false_or, List.map_id'] at hstart hclosed
  exact ⟨fun c hc x hx => hstart x (List.mem_flatMap.mpr ⟨c, hc, hx⟩), hclosed⟩

theorem exists_interfacesOf_of_mem {types : List ClassId} (h : x ∈ u.interfaceOrder types) :
    ∃ c, x ∈ u.interfacesOf c := by
  obtain ⟨before, after, hsplit⟩ := List.append_of_mem h
  rcases exists_before_of_breadthFirst hsplit with hstart | ⟨c, -, hc⟩
  · obtain ⟨c, -, hc⟩ := List.mem_flatMap.mp hstart
    exact ⟨c, hc⟩
  · exact ⟨c, hc⟩

/-- **The lineage and the interfaces are all that a type inherits from.** -/
theorem mem_lineage_or_mem_interfaceOrder (hacyclic : u.Acyclic) (hwell : u.WellDeclared)
    (h : x ∈ u.ancestors c) : x ∈ u.lineage c ∨ x ∈ u.interfaceOrder (u.lineage c) := by
  obtain ⟨hdirect, hclosed⟩ := u.interfaceOrder_covers (u.lineage c)
  induction u.mem_ancestors_iff.mp h with
  | refl =>
    obtain ⟨rest, hrest⟩ := follow_eq_cons u.superclass? u.types.length c
    exact .inl (by rw [lineage, hrest]; exact List.mem_cons_self)
  | @tail a b hpath hedge ih =>
    rcases ih (u.mem_ancestors_iff.mpr hpath), mem_supertypesOf.mp hedge with
      ⟨ha | ha, hsuper | hinterface⟩
    · obtain ⟨before, after, hsplit⟩ := List.append_of_mem ha
      obtain ⟨rest, rfl⟩ := hacyclic.lineage_next hsplit hsuper
      exact .inl (by rw [hsplit]; simp)
    · exact .inr (hdirect a ha b hinterface)
    · -- an interface has no superclass
      obtain ⟨c', hc'⟩ := exists_interfacesOf_of_mem ha
      have hclass := (hwell.superclass? hsuper).1
      rw [hwell.not_isClass hc'] at hclass
      cases hclass
    · exact .inr (hclosed a ha b hinterface)

end Lineage

end CompilationUnit

end Closures
