import Mathlib.Data.List.Chain
import Mathlib.Data.List.Nodup
import Mathlib.Data.List.Perm.Subperm
import Closures.Lowering.Capture
import Closures.Proofs.EnclosingInstances

/-!
# Types around a site and objects around an object

A site knows the types around it, and at run time there is an object for each of
them (`Nest`). The analysis says at which **depth** among the types an enclosing
instance is; evaluation goes along the objects and takes the **innermost** one
that is an instance of the type it looks for. This module relates the two
(`resolution`).

A slot for an enclosing instance is filled by an operand, which is to yield the
object at the depth of the slot. The operand names the type at that depth, and a
name is not always enough (`Denotes`):

* if an object further in is an instance of the type as well, that one is found.
  It happens where an inner class extends the class around it;
* if the type is an interface, the operand yields the object at hand. A
  qualifying interface is meant for `J.super`, where that is right, but the
  analysis gives the depth of an interface to a member that code inside the
  interface inherits from it.

`Nested.resolution_differs` has an instance of each.
-/

set_option autoImplicit false

namespace Closures

/-! ## Paths of objects -/

/-- The enclosing instance that an object holds. -/
def outer? (h : Heap) (r : Ref) : Option Ref :=
  match h[r]? with
  | some (.inst _ _ _ outer) => outer
  | _ => none

theorem outwardFrom_succ (h : Heap) (n : Nat) (r : Ref) :
    outwardFrom h (n + 1) r = r :: ((outer? h r).elim [] (outwardFrom h n)) := by
  rw [outwardFrom, outer?]
  rcases h[r]? with _ | ⟨_, _, _, _ | _⟩ | _ | _ <;> rfl

/-- Objects of which each is held by the one before it. -/
abbrev IsPath (h : Heap) (os : List Ref) : Prop := os.IsChain fun a b => outer? h a = some b

namespace IsPath

variable {h : Heap} {os : List Ref}

theorem getElem?_succ (hos : IsPath h os) {i : Nat} {b : Ref} (hb : os[i + 1]? = some b) :
    os[i]?.bind (outer? h) = some b := by
  obtain ⟨hlt, rfl⟩ := List.getElem?_eq_some_iff.mp hb
  rw [List.getElem?_eq_getElem (Nat.lt_of_succ_lt hlt)]
  exact List.isChain_iff_getElem.mp hos i hlt

/-- From two places with the same object a path goes on in the same way. -/
theorem getElem?_add (hos : IsPath h os) {i j : Nat} (hij : i < j) (heq : os[i]? = os[j]?) :
    ∀ t, j + t < os.length → os[i + t]? = os[j + t]? := by
  intro t
  induction t with
  | zero => exact fun _ => heq
  | succ t ih =>
    intro hlt
    have hi : os[i + t + 1]? = some os[i + t + 1] := List.getElem?_eq_getElem (by omega)
    have hj : os[j + t + 1]? = some os[j + t + 1] := List.getElem?_eq_getElem hlt
    have hstep := hos.getElem?_succ hi
    rw [ih (by omega), hos.getElem?_succ hj] at hstep
    exact hj.trans (hstep.trans hi.symm) |>.symm

/-- A path that ends with an object it did not meet before meets no object
twice. -/
theorem nodup {pre : List Ref} {r : Ref} (hos : IsPath h (pre ++ [r])) (hr : r ∉ pre) :
    (pre ++ [r]).Nodup := by
  rw [List.nodup_iff_getElem?_ne_getElem?]
  intro i j hij hj heq
  rw [List.length_append, List.length_singleton] at hj
  have hend := hos.getElem?_add hij heq (pre.length - j) (by simp; omega)
  rw [Nat.add_sub_cancel' (by omega), List.getElem?_concat_length,
    List.getElem?_append_left (by omega)] at hend
  exact hr (List.mem_of_getElem? hend)

/-- The search goes along the path. -/
theorem find?_outwardFrom {P : Ref → Bool} {pre : List Ref} {r : Ref}
    (hpre : ∀ a ∈ pre, P a = false)
    (hr : P r = true) : ∀ {n o rest}, pre.length ≤ n → pre ++ [r] = o :: rest →
      IsPath h (pre ++ [r]) → (outwardFrom h n o).find? P = some r := by
  induction pre with
  | nil =>
    intro n o rest _ heq _
    cases heq
    obtain ⟨rest, hrest⟩ := outwardFrom_eq_cons (h := h) (t := r) n
    rw [hrest, List.find?_cons_of_pos hr]
  | cons a pre ih =>
    intro n o rest hn heq hos
    cases heq
    rw [List.forall_mem_cons] at hpre
    cases n with
    | zero => cases hn
    | succ n =>
      cases hpath : pre ++ [r] with
      | nil => cases pre <;> cases hpath
      | cons b tail =>
        rw [List.cons_append, hpath, IsPath, List.isChain_cons_cons] at hos
        rw [outwardFrom_succ, hos.1, List.find?_cons_of_neg (by simp [hpre.1])]
        exact ih hpre.2 (Nat.le_of_succ_le_succ hn) hpath (hpath ▸ hos.2)

end IsPath

/-! ## Nests -/

/-- **Objects for the types around a site**, each an instance of its type and
held by the one before it. -/
structure Nest (u : CompilationUnit) (h : Heap) (chain : List ClassId) (os : List Ref) : Prop where
  instances : List.Forall₂ (fun c o => isInstanceOf u h c o = true) chain os
  path : IsPath h os

/-- What is found among objects in a search for an instance of a type, compared
with the object `o`. -/
structure Finds (u : CompilationUnit) (h : Heap) (os : List Ref) (owner : ClassId) (o r : Ref) :
    Prop where
  innermost : os.find? (isInstanceOf u h owner) = some r
  /-- It is `o` unless another instance comes first. -/
  same_iff : r = o ↔ ∀ x ∈ os.takeWhile (· != o), isInstanceOf u h owner x = false

theorem find?_eq_some_self_iff {P : Ref → Bool} {o : Ref} (hP : P o = true)
    {os : List Ref} (ho : o ∈ os) :
    os.find? P = some o ↔ ∀ x ∈ os.takeWhile (· != o), P x = false := by
  induction os with
  | nil => cases ho
  | cons a os ih =>
    by_cases ha : a = o
    · rw [ha, List.find?_cons_of_pos hP, List.takeWhile_cons_of_neg (by simp)]
      exact ⟨fun _ _ hx => (nomatch hx), fun _ => rfl⟩
    · have ho : o ∈ os := (List.mem_cons.mp ho).resolve_left (Ne.symm ha)
      rw [List.takeWhile_cons_of_pos (by simpa using ha), List.forall_mem_cons, ← ih ho]
      cases hPa : P a with
      | true =>
        rw [List.find?_cons_of_pos hPa]
        exact ⟨fun h => absurd (Option.some.inj h) ha, fun h => nomatch h.1⟩
      | false =>
        rw [List.find?_cons_of_neg (by simp [hPa])]
        exact ⟨fun h => ⟨rfl, h⟩, fun h => h.2⟩

theorem getElem?_of_idxOf? {chain : List ClassId} {q : ClassId} {d : Nat}
    (h : chain.idxOf? q = some d) : chain[d]? = some q := by
  obtain ⟨hlt, hget, -⟩ := List.findIdx?_eq_some_iff_getElem.mp h
  rw [List.getElem?_eq_getElem hlt, eq_of_beq hget]

namespace Nest

variable {u : CompilationUnit} {h : Heap} {chain : List ClassId} {o₀ : Ref} {os : List Ref}
  {owner : ClassId}

theorem lt_size (hnest : Nest u h chain os) {o : Ref} (ho : o ∈ os) : o < h.size := by
  obtain ⟨c, -, hinst⟩ := exists_of_forall₂_right hnest.instances ho
  exact lt_size_of_isInstanceOf hinst

/-- The object at the depth of a type is an instance of it. -/
theorem exists_instance (hnest : Nest u h chain os) {d : Nat} {c : ClassId}
    (hc : chain[d]? = some c) :
    ∃ o, os[d]? = some o ∧ isInstanceOf u h c o = true := by
  obtain ⟨hd, rfl⟩ := List.getElem?_eq_some_iff.mp hc
  have hd' : d < os.length := by rwa [← hnest.instances.length_eq]
  exact ⟨os[d], List.getElem?_eq_getElem hd', List.Forall₂.get hnest.instances hd hd'⟩

theorem exists_finds {o : Ref} (ho : o ∈ os) (hinst : isInstanceOf u h owner o = true) :
    ∃ r, Finds u h os owner o r := by
  obtain ⟨r, hr⟩ := Option.isSome_iff_exists.mp (List.find?_isSome.mpr ⟨o, ho, hinst⟩)
  refine ⟨r, hr, ?_⟩
  rw [← find?_eq_some_self_iff hinst ho, hr, Option.some.injEq]

/-- **The search finds the innermost instance.** -/
theorem enclosing_eq (hnest : Nest u h chain (o₀ :: os)) {r : Ref}
    (hr : (o₀ :: os).find? (isInstanceOf u h owner) = some r) :
    enclosing u h (some o₀) owner = .ok r := by
  obtain ⟨hinst, pre, post, hsplit, hpre⟩ := List.find?_eq_some_iff_append.mp hr
  have hpre : ∀ a ∈ pre, isInstanceOf u h owner a = false := by simpa using hpre
  have hway : o₀ :: os = (pre ++ [r]) ++ post := by simp [hsplit]
  have hpath : IsPath h (pre ++ [r]) := by
    have hpath := hnest.path
    rw [hway] at hpath
    exact List.IsChain.left_of_append hpath
  have hnew : r ∉ pre := fun hr => by
    rw [hpre r hr] at hinst
    cases hinst
  -- the way there meets no object twice, so it is not cut short
  have hlen : (pre ++ [r]).length ≤ h.size := by
    have hsub := (hpath.nodup hnew).subperm fun o ho =>
      List.mem_range.mpr (hnest.lt_size (hway ▸ List.mem_append_left post ho))
    have hle := hsub.length_le
    rwa [List.length_range] at hle
  obtain ⟨rest, hhead⟩ : ∃ rest, pre ++ [r] = o₀ :: rest := by
    cases pre with
    | nil => exact ⟨[], by rw [List.nil_append]; cases hsplit; rfl⟩
    | cons a pre => exact ⟨pre ++ [r], by cases hsplit; rfl⟩
  rw [enclosing, Option.bind_some,
    IsPath.find?_outwardFrom hpre hinst (by simp at hlen; omega) hhead hpath]

end Nest

/-! ## Resolution -/

/-- An expression evaluates to an object and changes nothing. -/
def Yields (u : CompilationUnit) (c : Config) (e : Expr) (r : Ref) : Prop :=
  ∀ k, evalExpr u k e c = (.ok (.ref r), c)

theorem yields_this_iff {u : CompilationUnit} {c : Config} {q : Option ClassId} {r : Ref} :
    Yields u c (.this q) r ↔ thisObject u c.store.heap c.frame.this q = .ok r := by
  constructor
  · intro h
    have hrun := h (callsWithin u 0)
    rw [evalExpr, get_bind_apply, bind_apply, Eval.onHeap, get_bind_apply] at hrun
    cases hobject : thisObject u c.store.heap c.frame.this q with
    | error e =>
      rw [hobject] at hrun
      cases hrun
    | ok r' =>
      rw [hobject] at hrun
      cases hrun
      rfl
  · intro h k
    rw [evalExpr, get_bind_apply, bind_apply, onHeap_of_ok h]
    rfl

section Resolution

variable {u : CompilationUnit} {C : ClassId} {scope : Scope} {c : Config} {o₀ : Ref} {os : List Ref}

/-- The site in a type, with some locals. -/
def CompilationUnit.siteIn (u : CompilationUnit) (C : ClassId) (scope : Scope) : Site :=
  ⟨u, C, u.enclosingChain C false, scope⟩

/-- **When `this` qualified with a type means a given one of some objects**: for
an interface, if it is the first of them; for a class, if no instance of the
class comes before it. -/
def Denotes (u : CompilationUnit) (h : Heap) (o₀ : Ref) (os : List Ref) (q : ClassId) (o : Ref) :
    Prop :=
  ∃ t, u.decl? q = some t ∧
    if t.isInterface then o = o₀ else ∀ x ∈ os.takeWhile (· != o), isInstanceOf u h q x = false

/-- How the enclosing instances of a site are resolved among the objects around
one object: what the analysis names, and what evaluation finds. -/
structure Resolves (s : Site) (c : Config) (o₀ : Ref) (os : List Ref) : Prop where
  operand_zero : Yields s.unit c (CaptureSet.operand s none (.instance_ 0 (s.instanceType 0))) o₀
  /-- The operand for a class further out yields the innermost instance of
  it. -/
  operand_class : ∀ d o t, 0 < d → os[d]? = some o → s.unit.decl? (s.instanceType d) = some t →
    t.isInterface = false → ∃ r, Finds s.unit c.store.heap os (s.instanceType d) o r ∧
      Yields s.unit c (CaptureSet.operand s none (.instance_ d (s.instanceType d))) r
  /-- The operand for an interface further out yields the object at hand. -/
  operand_interface : ∀ d t, 0 < d → s.unit.decl? (s.instanceType d) = some t →
    t.isInterface = true →
      Yields s.unit c (CaptureSet.operand s none (.instance_ d (s.instanceType d))) o₀
  /-- When the operand for a depth yields the object at that depth. -/
  operand_iff : ∀ d o, 0 < d → os[d]? = some o →
    (Yields s.unit c (CaptureSet.operand s none (.instance_ d (s.instanceType d))) o ↔
      Denotes s.unit c.store.heap o₀ os (s.instanceType d) o)
  /-- A qualifying interface means the innermost object. -/
  this_interface : ∀ q t, q ∈ s.chain → s.unit.decl? q = some t → t.isInterface = true →
    s.thisDepth (some q) = .ok 0 ∧ Yields s.unit c (.this (some q)) o₀
  /-- A qualifying class means its place among the types. -/
  this_class : ∀ q t, q ∈ s.chain → s.unit.decl? q = some t → t.isInterface = false →
    ∃ d o r, s.chain.idxOf? q = some d ∧ s.thisDepth (some q) = .ok d ∧ os[d]? = some o ∧
      Finds s.unit c.store.heap os q o r ∧ Yields s.unit c (.this (some q)) r
  /-- When a qualifier means the object at its place among the types. -/
  this_iff : ∀ q d o, s.chain.idxOf? q = some d → os[d]? = some o →
    (Yields s.unit c (.this (some q)) o ↔ Denotes s.unit c.store.heap o₀ os q o)
  /-- A member means the innermost type that has it. -/
  member : ∀ owner d, s.memberDepth owner = .ok d → ∃ o r, os[d]? = some o ∧
    Finds s.unit c.store.heap os owner o r ∧
      enclosing s.unit c.store.heap c.frame.this owner = .ok r

theorem this_interface_yields (hthis : c.frame.this = some o₀) {q : ClassId} {t : TypeDecl}
    (ht : u.decl? q = some t) (hinterface : t.isInterface = true) :
    Yields u c (.this (some q)) o₀ := by
  rw [yields_this_iff, hthis, thisObject_some ht, if_pos hinterface]

theorem this_class_finds (hthis : c.frame.this = some o₀)
    (hnest : Nest u c.store.heap (u.enclosingChain C false) (o₀ :: os)) {q : ClassId} {t : TypeDecl}
    (ht : u.decl? q = some t) (hclass : t.isInterface = false) {d : Nat}
    (hq : (u.enclosingChain C false)[d]? = some q) :
    ∃ o r, (o₀ :: os)[d]? = some o ∧ Finds u c.store.heap (o₀ :: os) q o r ∧
      Yields u c (.this (some q)) r := by
  obtain ⟨o, ho, hinst⟩ := hnest.exists_instance hq
  obtain ⟨r, hr⟩ := Nest.exists_finds (List.mem_of_getElem? ho) hinst
  refine ⟨o, r, ho, hr, yields_this_iff.mpr ?_⟩
  rw [hthis, thisObject_some ht, hclass]
  exact hnest.enclosing_eq hr.innermost

theorem yields_this_iff_denotes (hthis : c.frame.this = some o₀)
    (hnest : Nest u c.store.heap (u.enclosingChain C false) (o₀ :: os)) {q : ClassId} {d : Nat}
    (hq : (u.enclosingChain C false)[d]? = some q) {o : Ref} (ho : (o₀ :: os)[d]? = some o) :
    Yields u c (.this (some q)) o ↔ Denotes u c.store.heap o₀ (o₀ :: os) q o := by
  rw [Denotes]
  cases ht : u.decl? q with
  | none =>
    -- a type that is not declared means nothing
    rw [yields_this_iff, thisObject, declOf, ht]
    constructor
    · intro h
      cases h
    · rintro ⟨t, ht, -⟩
      cases ht
  | some t =>
    have hother : ∀ {r}, Yields u c (.this (some q)) r →
        (Yields u c (.this (some q)) o ↔ r = o) := by
      intro r hr
      refine ⟨fun h => ?_, fun h => h ▸ hr⟩
      rw [yields_this_iff] at hr h
      exact Except.ok.inj (hr.symm.trans h)
    simp only [Option.some.injEq, exists_eq_left']
    cases hi : t.isInterface with
    | true => rw [if_pos rfl, hother (this_interface_yields hthis ht hi), eq_comm]
    | false =>
      obtain ⟨o', r, ho', hr, hyields⟩ := this_class_finds hthis hnest ht hi hq
      cases ho.symm.trans ho'
      rw [if_neg Bool.false_ne_true, hother hyields, hr.same_iff]

theorem getElem?_instanceType (hnest : Nest u c.store.heap (u.enclosingChain C false) (o₀ :: os))
    {d : Nat} {o : Ref} (ho : (o₀ :: os)[d]? = some o) :
    (u.enclosingChain C false)[d]? = some ((u.siteIn C scope).instanceType d) := by
  have hlt : d < (u.enclosingChain C false).length := by
    rw [hnest.instances.length_eq]
    exact (List.getElem?_eq_some_iff.mp ho).1
  rw [Site.instanceType, List.getD_eq_getElem?_getD, CompilationUnit.siteIn,
    List.getElem?_eq_getElem hlt]
  rfl

/-- **Types and objects.** In every nest of objects for the types around a site

* the operand for a class, `this` qualified with a class, and the search for the
  receiver of a member each find the innermost object that is an instance of the
  type in question;
* the operand for an interface further out yields the object at hand, and so
  does `this` qualified with an interface;
* an operand yields the object at its depth, and a qualifier the object at the
  place of its type, exactly if the type means that object (`Denotes`), and a
  member is found at the depth that the analysis names exactly if no other
  instance of its type comes before. -/
theorem resolution (hthis : c.frame.this = some o₀)
    (hnest : Nest u c.store.heap (u.enclosingChain C false) (o₀ :: os)) :
    Resolves (u.siteIn C scope) c o₀ (o₀ :: os) where
  operand_zero := by
    rw [CaptureSet.operand, yields_this_iff, hthis]
    rfl
  operand_class d o t hd ho ht hclass := by
    obtain ⟨d, rfl⟩ := Nat.exists_eq_succ_of_ne_zero (Nat.ne_of_gt hd)
    obtain ⟨o', r, ho', hr, hyields⟩ :=
      this_class_finds hthis hnest ht hclass (getElem?_instanceType hnest ho)
    cases ho.symm.trans ho'
    exact ⟨r, hr, hyields⟩
  operand_interface d t hd ht hinterface := by
    obtain ⟨d, rfl⟩ := Nat.exists_eq_succ_of_ne_zero (Nat.ne_of_gt hd)
    exact this_interface_yields hthis ht hinterface
  operand_iff d o hd ho := by
    obtain ⟨d, rfl⟩ := Nat.exists_eq_succ_of_ne_zero (Nat.ne_of_gt hd)
    exact yields_this_iff_denotes hthis hnest (getElem?_instanceType hnest ho) ho
  this_interface q t hq ht hinterface := by
    refine ⟨Site.thisDepth_some_eq_ok.mpr ⟨List.ne_nil_of_mem hq, t, ht, ?_⟩,
      this_interface_yields hthis ht hinterface⟩
    rw [if_pos hinterface]
  this_class q t hq ht hclass := by
    obtain ⟨d, hd⟩ : ∃ d, (u.enclosingChain C false).idxOf? q = some d := by
      cases hd : (u.enclosingChain C false).idxOf? q with
      | none => exact absurd hq (List.idxOf?_eq_none_iff.mp hd)
      | some d => exact ⟨d, rfl⟩
    obtain ⟨o, r, ho, hr, hyields⟩ :=
      this_class_finds hthis hnest ht hclass (getElem?_of_idxOf? hd)
    refine ⟨d, o, r, hd, Site.thisDepth_some_eq_ok.mpr ⟨List.ne_nil_of_mem hq, t, ht, ?_⟩, ho, hr,
      hyields⟩
    rw [if_neg (by simp [hclass])]
    exact hd
  this_iff q d o hd ho := yields_this_iff_denotes hthis hnest (getElem?_of_idxOf? hd) ho
  member owner d hd := by
    obtain ⟨hlt, hsub, -⟩ := List.findIdx?_eq_some_iff_getElem.mp (Site.memberDepth_eq_ok.mp hd)
    obtain ⟨o, ho, hinst⟩ := hnest.exists_instance (List.getElem?_eq_getElem hlt)
    obtain ⟨r, hr⟩ := Nest.exists_finds (List.mem_of_getElem? ho) (isInstanceOf_trans hinst hsub)
    refine ⟨o, r, ho, hr, ?_⟩
    rw [hthis]
    exact hnest.enclosing_eq hr.innermost

end Resolution

namespace Nested

/-- A class with an inner class that extends it, and an interface with an
anonymous class in one of its methods. -/
def unit : CompilationUnit where
  name := "nested"
  sourcePath := none
  types := [
    TypeDecl.empty 0 "Outer" .topLevel,
    { TypeDecl.empty 1 "Inner" .member with outer := some 0, superclass := some (.raw 0) },
    { TypeDecl.empty 2 "Shape" .topLevel with isInterface := true },
    { TypeDecl.empty 3 "1" .anonymous with outer := some 2 },
    { TypeDecl.empty 4 "Square" .topLevel with interfaces := [.raw 2] }]

/-- An inner instance in an outer one, and an anonymous instance in a shape. -/
def heap : Heap :=
  #[.inst 1 0 [] (some 1), .inst 0 1 [] none, .inst 3 2 [] (some 3), .inst 4 3 [] none]

/-- Where some object is at hand. -/
def config (o : Ref) : Config := ⟨⟨some o, []⟩, { Store.empty with heap }⟩

theorem nest_inner : Nest unit heap (unit.enclosingChain 1 false) [0, 1] where
  instances := .cons rfl (.cons rfl .nil)
  path := .cons_cons rfl (.singleton 1)

theorem nest_anonymous : Nest unit heap (unit.enclosingChain 3 false) [2, 3] where
  instances := .cons rfl (.cons rfl .nil)
  path := .cons_cons rfl (.singleton 3)

/-- **Operands that yield another object than the one at their depth.** In the
inner class the one for the outer instance, at depth 1, yields the inner
instance, and so does `this` qualified with the outer class. In the anonymous
class the one for the shape, at depth 1, yields the anonymous instance; the
analysis takes the interface as a qualifier for depth 0. -/
theorem resolution_differs :
    (Nest unit heap (unit.enclosingChain 1 false) [0, 1] ∧
      (unit.enclosingChain 1 false).idxOf? 0 = some 1 ∧
        (unit.siteIn 1 []).thisDepth (some 0) = .ok 1 ∧
      Yields unit (config 0) (CaptureSet.operand (unit.siteIn 1 []) none (.instance_ 1 0)) 0 ∧
      Yields unit (config 0) (.this (some 0)) 0) ∧
    Nest unit heap (unit.enclosingChain 3 false) [2, 3] ∧
      (unit.enclosingChain 3 false).idxOf? 2 = some 1 ∧
        (unit.siteIn 3 []).thisDepth (some 2) = .ok 0 ∧
      (unit.siteIn 3 []).memberDepth 2 = .ok 1 ∧
      Yields unit (config 2) (CaptureSet.operand (unit.siteIn 3 []) none (.instance_ 1 2)) 2 :=
  ⟨⟨nest_inner, rfl, rfl, yields_this_iff.mpr rfl, yields_this_iff.mpr rfl⟩,
    nest_anonymous, rfl, rfl, rfl, yields_this_iff.mpr rfl⟩

end Nested

/-- The resolution of enclosing instances from an inner instance. -/
theorem resolution_inner :
    (Nested.config 0).frame.this = some 0 ∧
      Nest Nested.unit Nested.heap (Nested.unit.enclosingChain 1 false) [0, 1] ∧
      Resolves (Nested.unit.siteIn 1 []) (Nested.config 0) 0 [0, 1] :=
  ⟨rfl, Nested.nest_inner, resolution rfl Nested.nest_inner⟩

end Closures
