import Closures.Lowering.Adaptation
import Closures.Proofs.MemberSearch

/-!
# Assignability

`isAssignable` tries its cases in order, and several of them overlap: equality
comes before all others, an intersection as the target before one as the source,
and both before what a type variable or the root type takes. `Assignable` gives
the same relation by rules that can be used in any order, and `isAssignable_iff`
says that nothing is lost.

* The rules compose, on every unit: also where the supertype edges run in a
  circle or lead to no declaration, and for intersections without members
  (`Assignable.trans`). So strict assignability is a preorder, and with it the
  comparison of parameter lists by `moreSpecific`.
* It is no partial order. A type variable, whatever its bound, and the root type
  are assignable to each other, as are two uses of one declared type. Apart from
  intersections, and from types above themselves, this is all: types are
  assignable to each other exactly if they have the same erasure once bounds are
  forgotten (`assignable_both_iff`).
-/

set_option autoImplicit false

namespace Closures

/-! ## Primitive kinds -/

namespace Primitive

theorem mem_all (k : Primitive) : k ∈ all := by
  cases k <;> decide

theorem widensTo_trans {a b c : Primitive} (hab : a.widensTo b = true) (hbc : b.widensTo c = true) :
    a.widensTo c = true := by
  have hall : ∀ a ∈ all, ∀ b ∈ all, ∀ c ∈ all,
      a.widensTo b = true → b.widensTo c = true → a.widensTo c = true := by decide
  exact hall a (mem_all a) b (mem_all b) c (mem_all c) hab hbc

theorem widensTo_antisymm {a b : Primitive} (hab : a.widensTo b = true)
    (hba : b.widensTo a = true) :
    a = b := by
  have hall : ∀ a ∈ all, ∀ b ∈ all, a.widensTo b = true → b.widensTo a = true → a = b := by decide
  exact hall a (mem_all a) b (mem_all b) hab hba

end Primitive

/-! ## Kinds of types -/

namespace Ty

/-- A type of references that is no intersection. -/
def isSimple : Ty → Bool
  | void | primitive _ | inter _ => false
  | _ => true

/-- A type that is no intersection, and no array of intersections. -/
def isSingle : Ty → Bool
  | inter _ => false
  | array t => isSingle t
  | _ => true

section Kinds

variable {t : Ty}

theorem isReference_of_ne (hprimitive : ∀ k, t = primitive k → False) (hvoid : t = void → False) :
    t.isReference = true := by
  cases t
  case primitive k => exact (hprimitive k rfl).elim
  case void => exact (hvoid rfl).elim
  all_goals rfl

theorem isSimple_of_ne (hprimitive : ∀ k, t = primitive k → False) (hvoid : t = void → False)
    (hinter : ∀ ts, t = inter ts → False) : t.isSimple = true := by
  cases t
  case primitive k => exact (hprimitive k rfl).elim
  case void => exact (hvoid rfl).elim
  case inter ts => exact (hinter ts rfl).elim
  all_goals rfl

theorem isReference_of_isSimple (h : t.isSimple = true) : t.isReference = true := by
  cases t
  case primitive | void | inter => cases h
  all_goals rfl

theorem erasure_of_isPrimitive (h : t.isPrimitive = true) (params : List TypeParam) :
    t.erasure params = t := by
  cases t
  case primitive => rfl
  all_goals cases h

theorem isPrimitive_erasure (h : t.isSingle = true) :
    (t.erasure []).isPrimitive = t.isPrimitive := by
  cases t
  case inter => cases h
  all_goals rfl

end Kinds

end Ty

namespace CompilationUnit

/-! ## Rules -/

/-- Assignability by rules, whose order does not matter. -/
inductive Assignable (u : CompilationUnit) : Ty → Ty → Prop where
  | refl (t : Ty) : Assignable u t t
  | widen {a b : Primitive} (h : a.widensTo b = true) : Assignable u (.primitive a) (.primitive b)
  /-- To an intersection, what is assignable to all of its members. -/
  | toInter {s : Ty} {ts : List Ty} (hs : s.isReference = true) (h : ∀ t ∈ ts, Assignable u s t) :
    Assignable u s (.inter ts)
  /-- From an intersection, what some member is assignable to. -/
  | ofInter {s t : Ty} {ss : List Ty} (ht : t.isSimple = true) (hs : s ∈ ss)
    (h : Assignable u s t) : Assignable u (.inter ss) t
  | toObject {s : Ty} (hs : s.isSimple = true) : Assignable u s .object
  /-- A type variable takes every reference. -/
  | toVar {s : Ty} (name : String) (hs : s.isSimple = true) : Assignable u s (.var name)
  | ofNull {t : Ty} (ht : t.isSimple = true) : Assignable u .null t
  /-- Type arguments do not count. -/
  | subclass {a b : ClassId} (as bs : List Ty) (h : u.isSubclass a b = true) :
    Assignable u (.declared a as) (.declared b bs)
  | array {s t : Ty} (hs : s.isPrimitive = false) (ht : t.isPrimitive = false)
    (h : Assignable u s t) : Assignable u (.array s) (.array t)

variable {u : CompilationUnit} {a b c : Ty}

theorem isAssignable_self (u : CompilationUnit) (t : Ty) : u.isAssignable t t = true := by
  rw [isAssignable.eq_def, if_pos rfl]

theorem assignable_of_isAssignable (h : u.isAssignable a b = true) : u.Assignable a b := by
  fun_induction isAssignable u a b with
  | case1 t => exact .refl t
  | case2 a b => exact .widen h
  | case7 s ts hprimitive hvoid hne ih =>
    refine .toInter (Ty.isReference_of_ne hprimitive hvoid) fun t ht => ih t ht ?_
    exact List.all_eq_true.mp h ⟨t, ht⟩ (List.mem_attach _ _)
  | case8 ss t hprimitive hvoid hinter hne ih =>
    obtain ⟨⟨s, hs⟩, -, h⟩ := List.any_eq_true.mp h
    exact .ofInter (Ty.isSimple_of_ne hprimitive hvoid hinter) hs (ih s hs h)
  | case9 s hprimitive hvoid hinter => exact .toObject (Ty.isSimple_of_ne hprimitive hvoid hinter)
  | case10 s name hprimitive hvoid hinter =>
    exact .toVar name (Ty.isSimple_of_ne hprimitive hvoid hinter)
  | case11 t hprimitive hvoid hinter => exact .ofNull (Ty.isSimple_of_ne hprimitive hvoid hinter)
  | case13 a as b bs => exact .subclass as bs h
  | case14 a b _ hne =>
    -- arrays of primitives are assignable only if they are equal
    exact absurd (congrArg Ty.array (beq_iff_eq.mp h)) hne
  | case15 a b hprimitive _ ih =>
    rw [Bool.or_eq_true, not_or, Bool.not_eq_true, Bool.not_eq_true] at hprimitive
    exact .array hprimitive.1 hprimitive.2 (ih h)
  | case3 | case4 | case5 | case6 | case12 | case16 => cases h

theorem isAssignable_of_assignable (h : u.Assignable a b) : u.isAssignable a b = true := by
  induction h with
  | refl t => exact u.isAssignable_self t
  | widen h =>
    rw [isAssignable.eq_def]
    split
    · rfl
    · exact h
  | @toInter s ts hs _ ih =>
    rw [isAssignable.eq_def]
    split
    · rfl
    · have hall : (ts.attach.all fun x => u.isAssignable s x.1) = true :=
        List.all_eq_true.mpr fun x _ => ih x.1 x.2
      cases s
      case primitive | void => cases hs
      all_goals exact hall
  | @ofInter s t ss ht hs _ ih =>
    rw [isAssignable.eq_def]
    split
    · rfl
    · have hany : (ss.attach.any fun x => u.isAssignable x.1 t) = true :=
        List.any_eq_true.mpr ⟨⟨s, hs⟩, List.mem_attach _ _, ih⟩
      cases t
      case primitive | void | inter => cases ht
      all_goals exact hany
  | @toObject s hs =>
    rw [isAssignable.eq_def]
    cases s
    case primitive | void | inter => cases hs
    all_goals simp
  | @toVar s name hs =>
    rw [isAssignable.eq_def]
    cases s
    case primitive | void | inter => cases hs
    all_goals simp
  | @ofNull t ht =>
    rw [isAssignable.eq_def]
    cases t
    case primitive | void | inter => cases ht
    all_goals simp
  | subclass as bs h =>
    rw [isAssignable.eq_def]
    split
    · rfl
    · exact h
  | array hs ht _ ih =>
    rw [isAssignable.eq_def]
    split
    · rfl
    · simpa [hs, ht] using ih

/-- **The rules are what the test decides.** -/
theorem isAssignable_iff : u.isAssignable a b = true ↔ u.Assignable a b :=
  ⟨assignable_of_isAssignable, isAssignable_of_assignable⟩

namespace Assignable

/-- References are assignable to references only, and from references only. -/
theorem isReference_eq (h : u.Assignable a b) : a.isReference = b.isReference := by
  cases h with
  | refl | widen | subclass | array => rfl
  | toInter hs => exact hs
  | ofInter ht => exact (Ty.isReference_of_isSimple ht).symm
  | toObject hs => exact Ty.isReference_of_isSimple hs
  | toVar _ hs => exact Ty.isReference_of_isSimple hs
  | ofNull ht => exact (Ty.isReference_of_isSimple ht).symm

/-! ## Composition -/

/-- An intersection as the source counts through its members, so it is enough to
look at the other sources. -/
theorem of_simple (hb : b.isSimple = true) (hc : c.isSimple = true)
    (h : ∀ s : Ty, s.isSimple = true → u.Assignable s b → u.Assignable s c)
    (hab : u.Assignable a b) :
    u.Assignable a c := by
  induction hab with
  | ofInter ht hs _ ih => exact .ofInter hc hs (ih hb h)
  | refl t => exact h t hb (.refl t)
  | toObject hs => exact h _ hs (.toObject hs)
  | toVar name hs => exact h _ hs (.toVar name hs)
  | ofNull ht => exact h _ rfl (.ofNull ht)
  | subclass as bs hsub => exact h _ rfl (.subclass as bs hsub)
  | array hs ht hst => exact h _ rfl (.array hs ht hst)
  | widen | toInter => cases hb

/-- **Assignability is transitive.** The induction is on how the second type is
assigned to the third; the type in the middle gets smaller where it is an
intersection or an array. -/
theorem trans (hab : u.Assignable a b) (hbc : u.Assignable b c) : u.Assignable a c := by
  induction hbc generalizing a with
  | refl => exact hab
  | widen h =>
    cases hab with
    | refl => exact .widen h
    | widen h' => exact .widen (Primitive.widensTo_trans h' h)
    | ofInter ht => cases ht
    | ofNull ht => cases ht
  | toInter hs _ ih => exact .toInter (hab.isReference_eq.trans hs) fun t ht => ih t ht hab
  | ofInter ht hs h ih =>
    cases hab with
    | refl => exact .ofInter ht hs h
    | toInter _ hall => exact ih (hall _ hs)
    | ofInter ht' => cases ht'
    | ofNull ht' => cases ht'
  | toObject hs => exact of_simple hs rfl (fun _ hs' _ => .toObject hs') hab
  | toVar name hs => exact of_simple hs rfl (fun _ hs' _ => .toVar name hs') hab
  | ofNull ht =>
    refine of_simple rfl ht (fun s hs h => ?_) hab
    cases h with
    | refl => exact .ofNull ht
    | ofNull => exact .ofNull ht
    | ofInter => cases hs
  | subclass as bs h =>
    refine of_simple rfl rfl (fun s hs h' => ?_) hab
    cases h' with
    | refl => exact .subclass as bs h
    | subclass as' _ h' => exact .subclass as' bs (u.isSubclass_trans h' h)
    | ofNull => exact .ofNull rfl
    | ofInter => cases hs
  | array hs ht h ih =>
    refine of_simple rfl rfl (fun s hs' h' => ?_) hab
    cases h' with
    | refl => exact .array hs ht h
    | array hs'' _ h'' => exact .array hs'' ht (ih h'')
    | ofNull => exact .ofNull rfl
    | ofInter => cases hs'

end Assignable

theorem isAssignable_trans (hab : u.isAssignable a b = true) (hbc : u.isAssignable b c = true) :
    u.isAssignable a c = true :=
  isAssignable_iff.mpr ((isAssignable_iff.mp hab).trans (isAssignable_iff.mp hbc))

/-! ## Types that are assignable to each other -/

theorem Acyclic.eq_of_isSubclass (hu : u.Acyclic) {a b : ClassId} (hab : u.isSubclass a b = true)
    (hba : u.isSubclass b a = true) : a = b := by
  rw [isSubclass_iff] at hab hba
  rcases Relation.reflTransGen_iff_eq_or_transGen.mp hab with heq | hpath
  · exact heq.symm
  · exact absurd (hpath.trans_left hba) (hu a)

/-- A type and its erasure without bounds are assignable to each other. -/
theorem assignable_erasure (u : CompilationUnit) {t : Ty} (ht : t.isSingle = true) :
    u.Assignable t (t.erasure []) ∧ u.Assignable (t.erasure []) t := by
  induction t using Ty.eraseWith.induct with
  | case1 name => exact ⟨.toObject rfl, .toVar name rfl⟩
  | case2 id args =>
    have hself := u.isSubclass_refl id
    exact ⟨.subclass _ _ hself, .subclass _ _ hself⟩
  | case3 t ih =>
    have ht : t.isSingle = true := ht
    obtain ⟨hto, hof⟩ := ih ht
    have herasure : (Ty.array t).erasure [] = .array (t.erasure []) := rfl
    rw [herasure]
    cases hp : t.isPrimitive with
    | true =>
      rw [Ty.erasure_of_isPrimitive hp]
      exact ⟨.refl _, .refl _⟩
    | false =>
      have hp' := (Ty.isPrimitive_erasure ht).trans hp
      exact ⟨.array hp hp' hto, .array hp' hp hof⟩
  | case4 | case5 => cases ht
  | _ => exact ⟨.refl _, .refl _⟩

/-- **Types are assignable to each other exactly if they agree once bounds and
type arguments are forgotten**, if neither is an intersection and no type is
above itself. -/
theorem assignable_both_iff (hu : u.Acyclic) (ha : a.isSingle = true) (hb : b.isSingle = true) :
    u.Assignable a b ∧ u.Assignable b a ↔ a.erasure [] = b.erasure [] := by
  constructor
  · rintro ⟨hab, hba⟩
    induction hab with
    | refl => rfl
    | widen h =>
      cases hba with
      | refl => rfl
      | widen h' => rw [Primitive.widensTo_antisymm h h']
    | toInter => cases hb
    | ofInter => cases ha
    | toObject =>
      cases hba with
      | refl | toObject | toVar => rfl
      | toInter => cases ha
    | toVar =>
      cases hba with
      | refl | toObject | toVar => rfl
      | toInter => cases ha
    | ofNull =>
      cases hba with
      | refl | ofNull => rfl
      | ofInter => cases hb
    | subclass _ _ h =>
      cases hba with
      | refl => rfl
      | subclass _ _ h' => rw [hu.eq_of_isSubclass h h']; rfl
    | array _ _ _ ih =>
      cases hba with
      | refl => rfl
      | array _ _ h' => exact congrArg Ty.array (ih ha hb h')
  · intro h
    obtain ⟨hato, haof⟩ := u.assignable_erasure ha
    obtain ⟨hbto, hbof⟩ := u.assignable_erasure hb
    rw [h] at hato haof
    exact ⟨hato.trans hbof, hbto.trans haof⟩

end CompilationUnit

/-! ## Parameter lists -/

theorem allMatch_iff {α β : Type} {r : α → β → Bool} {as : List α} {bs : List β} :
    allMatch r as bs = true ↔ List.Forall₂ (fun a b => r a b = true) as bs := by
  fun_induction allMatch r as bs with
  | case1 => exact iff_of_true rfl .nil
  | case2 a as b bs ih => rw [Bool.and_eq_true, ih, List.forall₂_cons]
  | case3 as bs hnil hcons =>
    refine iff_of_false Bool.false_ne_true fun h => ?_
    cases h with
    | nil => exact hnil rfl rfl
    | cons => exact hcons _ _ _ _ rfl rfl

section MoreSpecific

variable (u : CompilationUnit)

theorem moreSpecific_self (ps : List Ty) : moreSpecific u ps ps = true :=
  allMatch_iff.mpr (List.forall₂_same.mpr fun t _ => u.isAssignable_self t)

theorem moreSpecific_trans {ps qs rs : List Ty} (hpq : moreSpecific u ps qs = true)
    (hqr : moreSpecific u qs rs = true) : moreSpecific u ps rs = true := by
  rw [moreSpecific, allMatch_iff] at *
  induction hpq generalizing rs with
  | nil => exact hqr
  | cons h _ ih =>
    cases hqr with
    | cons h' hqr => exact .cons (CompilationUnit.isAssignable_trans h h') (ih hqr)

variable {u}

/-- Lists of types are equally specific exactly if they agree once bounds and
type arguments are forgotten. -/
theorem moreSpecific_both_iff (hu : u.Acyclic) {ps qs : List Ty} (hps : ∀ t ∈ ps, t.isSingle = true)
    (hqs : ∀ t ∈ qs, t.isSingle = true) :
    moreSpecific u ps qs = true ∧ moreSpecific u qs ps = true ↔
      ps.map (Ty.erasure []) = qs.map (Ty.erasure []) := by
  simp only [moreSpecific, allMatch_iff, CompilationUnit.isAssignable_iff]
  induction ps generalizing qs with
  | nil => cases qs <;> simp
  | cons p ps ih =>
    cases qs with
    | nil => simp
    | cons q qs =>
      rw [List.forall_mem_cons] at hps hqs
      rw [List.map_cons, List.map_cons, List.cons.injEq, ← ih hps.2 hqs.2,
        ← CompilationUnit.assignable_both_iff hu hps.1 hqs.1, List.forall₂_cons, List.forall₂_cons]
      exact and_and_and_comm

end MoreSpecific

/-- **Strict assignability is a preorder** on all types of every unit, and so is
specificity on parameter lists. -/
theorem assignability_preorder (u : CompilationUnit) :
    (∀ a, u.isAssignable a a = true) ∧
    (∀ a b c, u.isAssignable a b = true → u.isAssignable b c = true → u.isAssignable a c = true) ∧
    (∀ ps, moreSpecific u ps ps = true) ∧
    ∀ ps qs rs, moreSpecific u ps qs = true → moreSpecific u qs rs = true →
      moreSpecific u ps rs = true :=
  ⟨u.isAssignable_self, fun _ _ _ => CompilationUnit.isAssignable_trans, moreSpecific_self u,
    fun _ _ _ => moreSpecific_trans u⟩

namespace Circle

/-- Two interfaces that extend each other; one of them extends a type that is
not declared, too. -/
def unit : CompilationUnit where
  name := "circle"
  sourcePath := none
  types := [
    { TypeDecl.empty 0 "Left" .topLevel with isInterface := true, interfaces := [.raw 1] },
    { TypeDecl.empty 1 "Right" .topLevel with isInterface := true, interfaces := [.raw 0, .raw 7] }]

/-- An array of a declared type, of an intersection that has one without members
in it, and of a type variable. -/
def arrays : Ty × Ty × Ty :=
  (.array (.declared 0 [.string]), .array (.inter [.declared 7 [], .inter []]), .array (.var "T"))

theorem toIntersection : unit.isAssignable arrays.1 arrays.2.1 = true := by
  refine CompilationUnit.isAssignable_iff.mpr (.array rfl rfl (.toInter rfl ?_))
  refine List.forall_mem_cons.mpr ⟨.subclass _ _ (by decide), List.forall_mem_singleton.mpr ?_⟩
  exact .toInter rfl nofun

theorem ofIntersection : unit.isAssignable arrays.2.1 arrays.2.2 = true :=
  CompilationUnit.isAssignable_iff.mpr
    (.array rfl rfl (.ofInter rfl List.mem_cons_self (.toVar "T" rfl)))

end Circle

theorem assignability_preorder_circle :
    Circle.unit.isAssignable Circle.arrays.1 Circle.arrays.2.1 = true ∧
    Circle.unit.isAssignable Circle.arrays.2.1 Circle.arrays.2.2 = true ∧
    Circle.unit.isAssignable Circle.arrays.1 Circle.arrays.2.2 = true ∧
    moreSpecific Circle.unit [.int, Circle.arrays.1] [.int, Circle.arrays.2.2] = true := by
  obtain ⟨hself, htrans, -, hlists⟩ := assignability_preorder Circle.unit
  refine ⟨Circle.toIntersection, Circle.ofIntersection,
    htrans _ _ _ Circle.toIntersection Circle.ofIntersection,
    hlists _ [.int, Circle.arrays.2.1] _ ?_ ?_⟩
  · exact allMatch_iff.mpr (.cons (hself _) (.cons Circle.toIntersection .nil))
  · exact allMatch_iff.mpr (.cons (hself _) (.cons Circle.ofIntersection .nil))

end Closures
