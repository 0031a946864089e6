import Mathlib.Logic.Relation
import Closures.Hierarchy.Subtyping

/-!
# The hierarchy as a graph

`breadthFirst` is given a bounded number of steps. This file shows that the
bound is never felt: the steps given suffice to empty the queue, so the search
lists exactly what can be reached.

* **Sound**: what is listed can be reached from the queue.
* **Covering**: the queue is listed or was seen, and what is listed is closed
  under edges. The steps that are left always pay for the queue and for the
  edges of what was not seen (`weight`).
* For the supertypes of a unit this makes `isSubclass` a reflexive and
  transitive relation.

A unit **extends** another when it declares the same types in the same places,
up to bodies, and possibly more. What a site was found to mean in a unit still
holds in an extension of it.
-/

set_option autoImplicit false

namespace Closures

section Search

variable {α κ : Type} [BEq κ] {key : α → κ} {next : α → List α}

/-- What the search lists can be reached from the queue. -/
theorem reachable_of_mem_breadthFirst {y : α} :
    ∀ {steps : Nat} {queue : List α} {seen : List κ}, y ∈ breadthFirst key next steps queue seen →
      ∃ x ∈ queue, Relation.ReflTransGen (fun a b => b ∈ next a) x y := by
  intro steps
  induction steps with
  | zero => intro queue seen hy; simp [breadthFirst] at hy
  | succ steps ih =>
    intro queue seen hy
    cases queue with
    | nil => simp [breadthFirst] at hy
    | cons x queue =>
      rw [breadthFirst] at hy
      split at hy
      · obtain ⟨z, hz, hr⟩ := ih hy
        exact ⟨z, List.mem_cons_of_mem _ hz, hr⟩
      · rcases List.mem_cons.mp hy with rfl | hy
        · exact ⟨y, List.mem_cons_self, .refl⟩
        · obtain ⟨z, hz, hr⟩ := ih hy
          rcases List.mem_append.mp hz with hz | hz
          · exact ⟨z, List.mem_cons_of_mem _ hz, hr⟩
          · exact ⟨x, List.mem_cons_self, .head hz hr⟩

/-- With enough steps the queue is listed, up to keys that were seen before, and
what is listed is closed under edges. `weight` counts the edges of what was not
seen. -/
theorem breadthFirst_covers [LawfulBEq κ] {weight : List κ → Nat}
    (hw : ∀ seen x, key x ∉ seen → (next x).length + weight (key x :: seen) ≤ weight seen) :
    ∀ (steps : Nat) (queue : List α) (seen : List κ), queue.length + weight seen ≤ steps →
      (∀ x ∈ queue, key x ∈ seen ∨ key x ∈ (breadthFirst key next steps queue seen).map key) ∧
      ∀ x ∈ breadthFirst key next steps queue seen, ∀ y ∈ next x,
        key y ∈ seen ∨ key y ∈ (breadthFirst key next steps queue seen).map key := by
  intro steps
  induction steps with
  | zero =>
    intro queue seen hle
    have hq : queue = [] := List.eq_nil_of_length_eq_zero (by omega)
    simp [hq, breadthFirst]
  | succ steps ih =>
    intro queue seen hle
    cases queue with
    | nil => simp [breadthFirst]
    | cons x queue =>
      rw [List.length_cons] at hle
      rw [breadthFirst]
      by_cases hx : key x ∈ seen
      · rw [if_pos (by simpa using hx)]
        obtain ⟨hq, hc⟩ := ih queue seen (by omega)
        refine ⟨fun y hy => ?_, hc⟩
        rcases List.mem_cons.mp hy with rfl | hy
        · exact .inl hx
        · exact hq y hy
      · rw [if_neg (by simpa using hx)]
        have hpay := hw seen x hx
        obtain ⟨hq, hc⟩ := ih (queue ++ next x) (key x :: seen)
          (by rw [List.length_append]; omega)
        -- a key that the rest of the search has seen was seen before, or is that of `x`
        have widen : ∀ k, (k ∈ key x :: seen ∨
            k ∈ (breadthFirst key next steps (queue ++ next x) (key x :: seen)).map key) →
            k ∈ seen ∨ k ∈ (x ::
              breadthFirst key next steps (queue ++ next x) (key x :: seen)).map key := by
          intro k hk
          rw [List.map_cons, List.mem_cons]
          rcases hk with hk | hk
          · rcases List.mem_cons.mp hk with rfl | hk
            · exact .inr (.inl rfl)
            · exact .inl hk
          · exact .inr (.inr hk)
        refine ⟨fun y hy => widen _ ?_, fun y hy z hz => widen _ ?_⟩
        · rcases List.mem_cons.mp hy with rfl | hy
          · exact .inl List.mem_cons_self
          · exact hq y (List.mem_append_left _ hy)
        · rcases List.mem_cons.mp hy with rfl | hy
          · exact hq z (List.mem_append_right _ hz)
          · exact hc y hy z hz

end Search

/-! ## Supertypes -/

namespace CompilationUnit

section Weight

variable {β : Type} (place : β → ClassId) (share : β → Nat)

/-- What some elements weigh together, those at places that were seen counting
nothing. -/
def unseenWeight (seen : List ClassId) : List β → Nat
  | [] => 0
  | b :: l => (if place b ∈ seen then 0 else share b) + unseenWeight seen l

/-- Seeing one more place adds no weight. -/
theorem unseenWeight_cons_le (id : ClassId) (seen : List ClassId) (l : List β) :
    unseenWeight place share (id :: seen) l ≤ unseenWeight place share seen l := by
  induction l with
  | nil => exact Nat.le_refl _
  | cons c l ih =>
    rw [unseenWeight, unseenWeight]
    by_cases hc : place c ∈ seen
    · rw [if_pos (List.mem_cons_of_mem _ hc), if_pos hc]
      omega
    · rw [if_neg hc]
      split <;> omega

/-- Seeing the place of an element takes its share away. -/
theorem share_add_unseenWeight_le {seen : List ClassId} {b : β} (hb : place b ∉ seen) {l : List β}
    (hl : b ∈ l) :
    share b + unseenWeight place share (place b :: seen) l ≤ unseenWeight place share seen l := by
  induction l with
  | nil => cases hl
  | cons c l ih =>
    have hmono := unseenWeight_cons_le place share (place b) seen l
    rw [unseenWeight, unseenWeight]
    rcases List.mem_cons.mp hl with rfl | hl
    · rw [if_pos List.mem_cons_self, if_neg hb]
      omega
    · have hrest := ih hl
      by_cases hc : place c ∈ seen
      · rw [if_pos (List.mem_cons_of_mem _ hc), if_pos hc]
        omega
      · rw [if_neg hc]
        split <;> omega

end Weight

/-- The supertype edges of the types that are not among `seen`. -/
def edgesOutside (u : CompilationUnit) (seen : List ClassId) : Nat :=
  unseenWeight (fun p => p.2.toUInt32) (fun p => p.1.supertypes.length) seen u.types.zipIdx

theorem edgesOutside_nil (u : CompilationUnit) : u.edgesOutside [] = u.edgeCount := by
  rw [edgesOutside, edgeCount]
  generalize 0 = i
  induction u.types generalizing i with
  | nil => rfl
  | cons d ds ih =>
    rw [List.zipIdx_cons, unseenWeight, ih, List.flatMap_cons, List.length_append,
      if_neg List.not_mem_nil]

theorem supertypesOf_of_decl? {u : CompilationUnit} {id : ClassId} {d : TypeDecl}
    (hd : u.decl? id = some d) : u.supertypesOf id = d.supertypes.map (·.id) := by
  rw [supertypesOf, hd]

/-- The edges of a type are paid for by its no longer being unseen. -/
theorem map_id_directSupertypes (u : CompilationUnit) (t : ClassType) :
    (u.directSupertypes t).map (·.id) = u.supertypesOf t.id := by
  rw [directSupertypes, supertypesOf]
  cases u.decl? t.id with
  | none => rfl
  | some d => exact List.map_map ..

theorem supertypesOf_length_add_edgesOutside_le (u : CompilationUnit) (seen : List ClassId)
    (id : ClassId) (hid : id ∉ seen) :
    (u.supertypesOf id).length + u.edgesOutside (id :: seen) ≤ u.edgesOutside seen := by
  rcases hd : u.decl? id with _ | d
  · rw [supertypesOf, hd, List.length_nil, Nat.zero_add]
    exact unseenWeight_cons_le _ _ id seen _
  · have hmem : (d, id.toNat) ∈ u.types.zipIdx := List.mem_zipIdx_iff_getElem?.mpr hd
    have hplace : id.toNat.toUInt32 = id := UInt32.ofNat_toNat
    have hunseen : id.toNat.toUInt32 ∉ seen := by rw [hplace]; exact hid
    have hpay := share_add_unseenWeight_le (fun p : TypeDecl × Nat => p.2.toUInt32)
      (fun p => p.1.supertypes.length) hunseen hmem
    rw [supertypesOf_of_decl? hd, List.length_map]
    rw [hplace] at hpay
    exact hpay

/-- One supertype edge. -/
def Edge (u : CompilationUnit) (a b : ClassId) : Prop := b ∈ u.supertypesOf a

/-- The ancestors of a type are what its supertype edges lead to. -/
theorem mem_ancestors_iff (u : CompilationUnit) {a b : ClassId} :
    b ∈ u.ancestors a ↔ Relation.ReflTransGen u.Edge a b := by
  constructor
  · intro hb
    obtain ⟨x, hx, hr⟩ := reachable_of_mem_breadthFirst hb
    rw [List.mem_singleton] at hx
    rw [hx] at hr
    exact hr
  · intro hr
    have hsteps : [a].length + u.edgesOutside [] ≤ u.edgeCount + 1 := by
      rw [edgesOutside_nil, List.length_singleton]
      omega
    obtain ⟨hstart, hclosed⟩ := breadthFirst_covers
      u.supertypesOf_length_add_edgesOutside_le (u.edgeCount + 1) [a] [] hsteps
    simp only [List.not_mem_nil, false_or, List.map_id'] at hstart hclosed
    induction hr with
    | refl => exact hstart a List.mem_cons_self
    | tail _ hedge ih => exact hclosed _ ih _ hedge

/-- **The subtype test is reachability** along supertype edges. -/
theorem isSubclass_iff (u : CompilationUnit) {a b : ClassId} :
    u.isSubclass a b = true ↔ Relation.ReflTransGen u.Edge a b := by
  rw [isSubclass, List.contains_iff_mem, mem_ancestors_iff]

theorem isSubclass_refl (u : CompilationUnit) (a : ClassId) : u.isSubclass a a = true :=
  u.isSubclass_iff.mpr .refl

theorem isSubclass_trans (u : CompilationUnit) {a b c : ClassId} (hab : u.isSubclass a b = true)
    (hbc : u.isSubclass b c = true) : u.isSubclass a c = true :=
  u.isSubclass_iff.mpr ((u.isSubclass_iff.mp hab).trans (u.isSubclass_iff.mp hbc))

end CompilationUnit

/-! ## Extension -/

/-- The parts of a declaration on which the meaning of references to it and to
its members rests. -/
structure TypeDecl.SameShape (d d' : TypeDecl) : Prop where
  kind : d'.kind = d.kind
  isInterface : d'.isInterface = d.isInterface
  isStatic : d'.isStatic = d.isStatic
  outer : d'.outer = d.outer
  supertypes : d'.supertypes = d.supertypes
  fields : d'.fields.map (·.isStatic) = d.fields.map (·.isStatic)
  methods : d'.methods.map (·.isStatic) = d.methods.map (·.isStatic)

theorem TypeDecl.SameShape.refl (d : TypeDecl) :
    d.SameShape d := ⟨rfl, rfl, rfl, rfl, rfl, rfl, rfl⟩

namespace CompilationUnit

/-- What `u` declares is declared in `v` too, in the same shape. -/
def ExtendedBy (u v : CompilationUnit) : Prop :=
  ∀ id d, u.decl? id = some d → ∃ d', v.decl? id = some d' ∧ d.SameShape d'

theorem ExtendedBy.refl (u : CompilationUnit) : u.ExtendedBy u :=
  fun _ d hd => ⟨d, hd, .refl d⟩

variable {u v : CompilationUnit}

/-- Lists with the same images have, place by place, elements with the same
image. -/
theorem getElem?_of_map_eq {α β : Type} {f : α → β} {l l' : List α} (h : l'.map f = l.map f)
    {i : Nat} {a : α} (ha : l[i]? = some a) : ∃ a', l'[i]? = some a' ∧ f a' = f a := by
  have hi : (l'.map f)[i]? = some (f a) := by rw [h, List.getElem?_map, ha]; rfl
  rw [List.getElem?_map] at hi
  exact Option.map_eq_some_iff.mp hi

theorem ExtendedBy.field? (h : u.ExtendedBy v) {f : FieldId} {fld : Field}
    (hf : u.field? f = some fld) :
      ∃ fld', v.field? f = some fld' ∧ fld'.isStatic = fld.isStatic := by
  obtain ⟨d, hd, hi⟩ := Option.bind_eq_some_iff.mp hf
  obtain ⟨d', hd', hs⟩ := h _ d hd
  obtain ⟨fld', hfld', hstatic⟩ := getElem?_of_map_eq hs.fields hi
  exact ⟨fld', Option.bind_eq_some_iff.mpr ⟨d', hd', hfld'⟩, hstatic⟩

theorem ExtendedBy.method? (h : u.ExtendedBy v) {m : MethodId} {decl : Method}
    (hm : u.method? m = some decl) :
    ∃ decl', v.method? m = some decl' ∧ decl'.isStatic = decl.isStatic := by
  obtain ⟨d, hd, hi⟩ := Option.bind_eq_some_iff.mp hm
  obtain ⟨d', hd', hs⟩ := h _ d hd
  obtain ⟨decl', hdecl', hstatic⟩ := getElem?_of_map_eq hs.methods hi
  exact ⟨decl', Option.bind_eq_some_iff.mpr ⟨d', hd', hdecl'⟩, hstatic⟩

/-- Subtyping survives extension. -/
theorem ExtendedBy.isSubclass (h : u.ExtendedBy v) {a b : ClassId} (hab : u.isSubclass a b = true) :
    v.isSubclass a b = true := by
  rw [isSubclass_iff] at hab ⊢
  refine Relation.ReflTransGen.mono (fun x y hxy => ?_) _ _ hab
  rcases hd : u.decl? x with _ | d
  · rw [Edge, supertypesOf, hd] at hxy
    cases hxy
  · obtain ⟨d', hd', hs⟩ := h x d hd
    rw [Edge, supertypesOf_of_decl? hd] at hxy
    rw [Edge, supertypesOf_of_decl? hd', hs.supertypes]
    exact hxy

end CompilationUnit

end Closures
