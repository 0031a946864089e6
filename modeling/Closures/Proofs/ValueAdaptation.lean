import Closures.Machine.Eval
import Closures.Proofs.PrimitiveValues

/-!
# Adapted values

`adaptValue` chooses what to do with a value by the forms of two types,
assignability relates the types by rules, and the evaluator boxes, unboxes and
converts by what it finds on the heap. `Inhabits` says which values a type has,
and ties the three together.

* A value of a reference type is a value of every type that this one is
  assignable to (`Inhabits.of_assignable`), so no glue is needed there.
* Where there is glue, the value that it is made for has the form that it asks
  for: it yields a value of the new type, or faults since there is nothing to
  unbox (`adaptation_sound`).
-/

set_option autoImplicit false

namespace Closures

/-! ## Inhabitants -/

namespace Ty

/-- The types whose values are all that may be used as an object. -/
def isTop : Ty → Bool
  | object | var _ => true
  | _ => false

/-- A type of integers, or of boxes that hold integers. -/
def isWhole : Ty → Bool
  | primitive k | boxed k => k.bits?.isSome
  | _ => false

theorem isSimple_of_isTop {t : Ty} (h : t.isTop = true) : t.isSimple = true := by
  cases t <;> first | rfl | cases h

theorem isPrimitive_of_isReference {t : Ty} (h : t.isReference = true) : t.isPrimitive = false := by
  cases t <;> first | rfl | cases h

end Ty

namespace CompilationUnit

/-- The values of a type. -/
inductive Inhabits (u : CompilationUnit) (h : Heap) : Value → Ty → Prop where
  | void : Inhabits u h .void .void
  | primitive {v : Value} {k : Primitive} (hv : v.IsOf k) : Inhabits u h v (.primitive k)
  | null {t : Ty} (ht : t.isSimple = true) : Inhabits u h .null t
  /-- A box of a kind holds a value of that kind. -/
  | box {r : Ref} {k : Primitive} {v : Value} (hr : h[r]? = some (.boxed k v)) (hv : v.IsOf k) :
    Inhabits u h (.ref r) (.boxed k)
  | text (s : String) : Inhabits u h (.str s) .string
  | anyText (s : String) {t : Ty} (ht : t.isTop = true) : Inhabits u h (.str s) t
  | anyRef (r : Ref) {t : Ty} (ht : t.isTop = true) : Inhabits u h (.ref r) t
  /-- Type arguments do not count. -/
  | inst {r : Ref} {type : ClassId} {serial : UInt32} {fields : Table FieldId Value}
    {outer : Option Ref}
    {id : ClassId} (args : List Ty) (hr : h[r]? = some (.inst type serial fields outer))
    (hsub : u.isSubclass type id = true) : Inhabits u h (.ref r) (.declared id args)
  /-- The types of elements do not count. -/
  | array {r : Ref} {element : Ty} {values : Array Value} (t : Ty)
    (hr : h[r]? = some (.array element values)) : Inhabits u h (.ref r) (.array t)
  | inter {v : Value} {ts : List Ty} (hall : ∀ t ∈ ts, Inhabits u h v t) :
    Inhabits u h v (.inter ts)

namespace Inhabits

variable {u : CompilationUnit} {h : Heap} {v : Value} {s t : Ty}

/-- What has a type of references that is no intersection may be used as an
object. -/
theorem top (hs : s.isSimple = true) (ht : t.isTop = true) (hv : u.Inhabits h v s) :
    u.Inhabits h v t := by
  cases hv with
  | void | primitive | inter => cases hs
  | null => exact .null (Ty.isSimple_of_isTop ht)
  | text s => exact .anyText s ht
  | anyText s => exact .anyText s ht
  | box | anyRef | inst | array => exact .anyRef _ ht

/-- **A value of a reference type has every type that this one is assignable
to.** -/
theorem of_assignable (hst : u.Assignable s t) (hs : s.isReference = true) (hv : u.Inhabits h v s) :
    u.Inhabits h v t := by
  induction hst with
  | refl => exact hv
  | widen => cases hs
  | toInter _ _ ih => exact .inter fun t ht => ih t ht hs hv
  | ofInter ht hmem hassign ih =>
    cases hv with
    | inter hall =>
      exact ih (hassign.isReference_eq.trans (Ty.isReference_of_isSimple ht)) (hall _ hmem)
    | null hinter => cases hinter
    | anyText _ htop | anyRef _ htop => cases htop
  | toObject hs' => exact hv.top hs' rfl
  | toVar _ hs' => exact hv.top hs' rfl
  | ofNull ht =>
    cases hv with
    | null => exact .null ht
    | anyText _ htop | anyRef _ htop => cases htop
  | subclass as bs hsub =>
    cases hv with
    | null => exact .null rfl
    | inst _ hr hsub' => exact .inst bs hr (u.isSubclass_trans hsub' hsub)
    | anyText _ htop | anyRef _ htop => cases htop
  | array =>
    cases hv with
    | null => exact .null rfl
    | array _ hr => exact .array _ hr
    | anyText _ htop | anyRef _ htop => cases htop

/-- A value of a primitive type is of its kind. -/
theorem isOf {k : Primitive} (hv : u.Inhabits h v (.primitive k)) : v.IsOf k := by
  cases hv with
  | primitive hv => exact hv
  | null ht => cases ht
  | anyText _ htop | anyRef _ htop => cases htop

theorem ne_null {k : Primitive} (hv : u.Inhabits h v (.primitive k)) : v ≠ .null := by
  rintro rfl
  cases hv.isOf

/-- A value of a wrapper is `null` or a box of its kind. -/
theorem null_or_box {k : Primitive} (hv : u.Inhabits h v (.boxed k)) :
    v = .null ∨ ∃ r x, v = .ref r ∧ h[r]? = some (.boxed k x) ∧ x.IsOf k := by
  cases hv with
  | null => exact .inl rfl
  | box hr hx => exact .inr ⟨_, _, rfl, hr, hx⟩
  | anyText _ htop | anyRef _ htop => cases htop

end Inhabits

/-! ## Loose assignability -/

/-- Apart from references, types are assignable only to themselves and to wider
ones. -/
theorem Assignable.eq_or_widens {u : CompilationUnit} {s t : Ty} (h : u.Assignable s t)
    (hs : s.isReference = false) :
    s = t ∨ ∃ j k, s = .primitive j ∧ t = .primitive k ∧ j.widensTo k = true := by
  cases h with
  | refl => exact .inl rfl
  | widen h => exact .inr ⟨_, _, rfl, rfl, h⟩
  | toInter hs' => cases hs.symm.trans hs'
  | toObject hs' | toVar _ hs' => cases hs.symm.trans (Ty.isReference_of_isSimple hs')
  | ofInter | ofNull | subclass | array => cases hs

theorem isLooselyAssignable_iff {u : CompilationUnit} {s t : Ty} :
    u.isLooselyAssignable s t = true ↔
      u.Assignable s t ∨ (∃ k, s = .primitive k ∧ u.Assignable (.boxed k) t) ∨
        ∃ j k, s = .boxed j ∧ t = .primitive k ∧ j.widensTo k = true := by
  rw [isLooselyAssignable.eq_def, Bool.or_eq_true, isAssignable_iff]
  refine or_congr_right ?_
  split
  · rw [isAssignable_iff]
    simp
  · simp
  · rename_i hprimitive hboxed
    refine iff_of_false Bool.false_ne_true ?_
    rintro (⟨k, rfl, -⟩ | ⟨j, k, rfl, rfl, -⟩)
    · exact hprimitive k rfl
    · exact hboxed j k rfl rfl

end CompilationUnit

/-! ## Glue -/

section Forms

variable {u : CompilationUnit} {s t : Ty} (e : Expr)

theorem adaptValue_self (t : Ty) : adaptValue u e t t = e := by
  simp [adaptValue]

/-- No glue between references that are assignable. -/
theorem adaptValue_reference (hs : s.isReference = true) (ht : t.isReference = true)
    (h : u.isAssignable s t = true) : adaptValue u e s t = e := by
  rw [adaptValue.eq_def]
  split
  · rfl
  · split
    · cases hs
    · cases hs
    · cases hs
    · cases ht
    · cases ht
    · rfl

theorem adaptValue_primitive (j k : Primitive) :
    adaptValue u e (.primitive j) (.primitive k) = e.convertFrom j k := by
  by_cases hjk : j = k <;> simp [adaptValue, Expr.convertFrom, Ty.isVoid, hjk]

/-- A primitive that is used as a reference is put into a box of its own
kind. -/
theorem adaptValue_box {k : Primitive} (h : u.Assignable (.boxed k) t) :
    adaptValue u e (.primitive k) t = .box e k := by
  have ht := h.isReference_eq
  cases t
  case void | primitive => cases ht
  case boxed =>
    cases h
    simp [adaptValue, Expr.convertFrom, Ty.isVoid]
  all_goals simp [adaptValue, Ty.isVoid]

theorem adaptValue_unbox (j k : Primitive) :
    adaptValue u e (.boxed j) (.primitive k) = (Expr.unbox e j).convertFrom j k := by
  simp [adaptValue, Ty.isVoid]

end Forms

/-! ## Evaluation of glue -/

/-- The same frame, and a store with one more object. -/
def Config.push (c : Config) (o : Obj) : Config :=
  ⟨c.frame, { c.store with heap := c.store.heap.push o }⟩

theorem Config.getElem?_push (c : Config) (o : Obj) :
    (c.push o).store.heap[c.store.heap.size]? = some o := by
  simp [Config.push]

section Evaluation

variable {u : CompilationUnit} {calls : Calls} {e : Expr} {c c' : Config} {v w : Value}
    {j k : Primitive}

theorem evalExpr_convert (heval : evalExpr u calls e c = (.ok v, c'))
    (hw : v.convert c'.store.heap k = .ok w) : evalExpr u calls (.convert e k) c = (.ok w, c') := by
  rw [evalExpr, bind_apply, heval]
  exact onHeap_of_ok hw

theorem evalExpr_box (heval : evalExpr u calls e c = (.ok v, c'))
    (hw : v.convert c'.store.heap k = .ok w) :
    evalExpr u calls (.box e k) c = (.ok (.ref c'.store.heap.size), c'.push (.boxed k w)) := by
  rw [evalExpr, bind_apply, heval]
  dsimp only
  rw [bind_apply, onHeap_of_ok hw]
  rfl

theorem evalExpr_unbox {x : Value} (heval : evalExpr u calls e c = (.ok v, c'))
    (hx : v.unboxed c'.store.heap = .ok x) (hw : x.convert c'.store.heap k = .ok w) :
    evalExpr u calls (.unbox e k) c = (.ok w, c') := by
  rw [evalExpr, bind_apply, heval]
  refine onHeap_of_ok ?_
  rw [hx, ok_bind, hw]

theorem evalExpr_unbox_null (heval : evalExpr u calls e c = (.ok .null, c')) :
    evalExpr u calls (.unbox e k) c = (.error (.fault .unboxingNull), c') := by
  rw [evalExpr, bind_apply, heval]
  rfl

theorem evalExpr_convert_halt {halt : Halt} (heval : evalExpr u calls e c = (.error halt, c')) :
    evalExpr u calls (.convert e k) c = (.error halt, c') := by
  rw [evalExpr, bind_apply, heval]

/-- A conversion to a wider kind yields a value of that kind and keeps the
integer. -/
theorem evalExpr_convertFrom (heval : evalExpr u calls e c = (.ok v, c')) (hv : v.IsOf j)
    (hjk : j.widensTo k = true) :
    ∃ w, evalExpr u calls (e.convertFrom j k) c = (.ok w, c') ∧ w.IsOf k ∧
      (k.bits?.isSome = true → w.integer? = v.integer?) := by
  rw [Expr.convertFrom]
  split
  · rename_i heq
    subst heq
    exact ⟨v, heval, hv, fun _ => rfl⟩
  · obtain ⟨w, hw, hof, hint⟩ := Value.exists_convert_widens c'.store.heap hv hjk
    exact ⟨w, evalExpr_convert heval hw, hof, hint⟩

theorem evalExpr_convertFrom_halt {halt : Halt} (heval : evalExpr u calls e c = (.error halt, c')) :
    evalExpr u calls (e.convertFrom j k) c = (.error halt, c') := by
  rw [Expr.convertFrom]
  split
  · exact heval
  · exact evalExpr_convert_halt heval

end Evaluation

/-! ## Soundness -/

/-- The integer that a value, or the content of a box, stands for. -/
def Value.integerIn (h : Heap) (v : Value) : Option Int :=
  (v.unboxed h).toOption.bind Value.integer?

theorem Value.unboxed_of_isOf {v : Value} {k : Primitive} (hv : v.IsOf k) (h : Heap) :
    v.unboxed h = .ok v := by
  cases hv <;> rfl

theorem Value.integerIn_of_isOf {v : Value} {k : Primitive} (hv : v.IsOf k) (h : Heap) :
    v.integerIn h = v.integer? := by
  rw [integerIn, unboxed_of_isOf hv]
  rfl

theorem Value.unboxed_box {h : Heap} {r : Ref} {k : Primitive} {x : Value}
    (hr : h[r]? = some (.boxed k x)) :
    (Value.ref r).unboxed h = .ok x := by
  rw [Value.unboxed, hr]

/-- What adapting a value comes to: a value of the new type, for which at most a
box was made, and the same integer if both types are types of integers. -/
structure Adapted (u : CompilationUnit) (source target : Ty) (v : Value) (c : Config) (w : Value)
    (c' : Config) : Prop where
  inhabits : u.Inhabits c'.store.heap w target
  integer : source.isWhole = true → target.isWhole = true →
    w.integerIn c'.store.heap = v.integerIn c.store.heap
  grows : c' = c ∨ ∃ k x, c' = c.push (.boxed k x)

namespace Adapted

variable {u : CompilationUnit} {calls : Calls} {e : Expr} {c c' : Config} {v : Value}
    {s t : Ty} {j k : Primitive}

theorem widen (heval : evalExpr u calls e c = (.ok v, c')) (hv : v.IsOf j)
    (hjk : j.widensTo k = true) :
    ∃ w, evalExpr u calls (adaptValue u e (.primitive j) (.primitive k)) c = (.ok w, c') ∧
      Adapted u (.primitive j) (.primitive k) v c' w c' := by
  obtain ⟨w, hw, hof, hint⟩ := evalExpr_convertFrom heval hv hjk
  rw [adaptValue_primitive]
  refine ⟨w, hw, .primitive hof, fun _ hwhole => ?_, .inl rfl⟩
  rw [Value.integerIn_of_isOf hof, Value.integerIn_of_isOf hv, hint hwhole]

theorem box (heval : evalExpr u calls e c = (.ok v, c')) (hv : v.IsOf k)
    (ht : u.Assignable (.boxed k) t) :
    ∃ w c'', evalExpr u calls (adaptValue u e (.primitive k) t) c = (.ok w, c'') ∧
      Adapted u (.primitive k) t v c' w c'' := by
  obtain ⟨x, hx, hof, hint⟩ := Value.exists_convert_widens c'.store.heap hv k.widensTo_self
  have hr := c'.getElem?_push (.boxed k x)
  rw [adaptValue_box e ht]
  refine ⟨_, _, evalExpr_box heval hx, (CompilationUnit.Inhabits.box hr hof).of_assignable ht rfl,
    fun hwhole _ => ?_, .inr ⟨k, x, rfl⟩⟩
  rw [Value.integerIn_of_isOf hv, ← hint hwhole, Value.integerIn, Value.unboxed_box hr]
  rfl

theorem unbox {r : Ref} {x : Value} (heval : evalExpr u calls e c = (.ok (.ref r), c'))
    (hr : c'.store.heap[r]? = some (.boxed j x)) (hx : x.IsOf j) (hjk : j.widensTo k = true) :
    ∃ w, evalExpr u calls (adaptValue u e (.boxed j) (.primitive k)) c = (.ok w, c') ∧
      Adapted u (.boxed j) (.primitive k) (.ref r) c' w c' := by
  have hopen := Value.unboxed_box hr
  obtain ⟨y, hy, hof, hint⟩ := Value.exists_convert_widens c'.store.heap hx j.widensTo_self
  obtain ⟨w, hw, hof', hint'⟩ := evalExpr_convertFrom (evalExpr_unbox heval hopen hy) hof hjk
  rw [adaptValue_unbox]
  refine ⟨w, hw, .primitive hof', fun hwhole hwhole' => ?_, .inl rfl⟩
  rw [Value.integerIn_of_isOf hof', hint' hwhole', hint hwhole, Value.integerIn, hopen]
  rfl

end Adapted

/-- **Adapting a value is sound.** Let an expression yield a value of a type
that is loosely assignable to another. Adapted to that, it faults for want of
something to unbox if the value is `null` and the other type is primitive, and
otherwise it yields a value of the other type. -/
theorem adaptation_sound {u : CompilationUnit} {calls : Calls} {e : Expr} {source target : Ty}
    {c c' : Config} {v : Value} (hassign : u.isLooselyAssignable source target = true)
    (heval : evalExpr u calls e c = (.ok v, c')) (hv : u.Inhabits c'.store.heap v source) :
    (v = .null → target.isPrimitive = true → ∃ f : Fault, f.kind = .nullPointer ∧
      evalExpr u calls (adaptValue u e source target) c = (.error (.fault f), c')) ∧
    ((v = .null → target.isPrimitive = false) → ∃ w c'',
      evalExpr u calls (adaptValue u e source target) c = (.ok w, c'') ∧
      Adapted u source target v c' w c'') := by
  rcases CompilationUnit.isLooselyAssignable_iff.mp hassign with
    hstrict | ⟨k, rfl, hbox⟩ | ⟨j, k, rfl, rfl, hjk⟩
  · cases hs : source.isReference with
    | true =>
      have ht : target.isReference = true := hstrict.isReference_eq.symm.trans hs
      rw [adaptValue_reference e hs ht (CompilationUnit.isAssignable_iff.mpr hstrict),
        Ty.isPrimitive_of_isReference ht]
      exact ⟨fun _ hprimitive => absurd hprimitive Bool.false_ne_true,
        fun _ => ⟨v, c', heval, hv.of_assignable hstrict hs, fun _ _ => rfl, .inl rfl⟩⟩
    | false =>
      rcases hstrict.eq_or_widens hs with rfl | ⟨j, k, rfl, rfl, hjk⟩
      · rw [adaptValue_self]
        refine ⟨fun hnull hprimitive => ?_, fun _ => ⟨v, c', heval, hv, fun _ _ => rfl, .inl rfl⟩⟩
        cases source <;> cases hprimitive
        exact absurd hnull hv.ne_null
      · obtain ⟨w, hw, hadapted⟩ := Adapted.widen heval hv.isOf hjk
        exact ⟨fun hnull => absurd hnull hv.ne_null, fun _ => ⟨w, c', hw, hadapted⟩⟩
  · exact ⟨fun hnull => absurd hnull hv.ne_null, fun _ => Adapted.box heval hv.isOf hbox⟩
  · rcases hv.null_or_box with rfl | ⟨r, x, rfl, hr, hx⟩
    · rw [adaptValue_unbox]
      exact ⟨fun _ _ => ⟨_, rfl, evalExpr_convertFrom_halt (evalExpr_unbox_null heval)⟩,
        fun hnot => absurd (hnot rfl).symm Bool.false_ne_true⟩
    · obtain ⟨w, hw, hadapted⟩ := Adapted.unbox heval hr hx hjk
      exact ⟨fun hnull => absurd hnull Value.noConfusion, fun _ => ⟨w, c', hw, hadapted⟩⟩

namespace Parcel

/-- A class and one that extends it. -/
def unit : CompilationUnit where
  name := "parcel"
  sourcePath := none
  types := [
    TypeDecl.empty 0 "Parcel" .topLevel,
    { TypeDecl.empty 1 "Letter" .topLevel with superclass := some (.raw 0) }]

/-- No calls are made. -/
def calls : Calls := callsWithin unit 0

/-- A frame whose locals are a letter and a box. -/
def start : Config :=
  ⟨⟨none, [(0, .ref 0), (1, .ref 1)]⟩,
    { Store.empty with heap := #[.inst 1 1 [] none, .boxed .byte (.int (-7))] }⟩

end Parcel

/-- A box of a byte is opened and widened, a number is boxed to be used as two
types at once, a letter is used as a parcel, and `null` cannot be opened. -/
theorem adaptation_sound_parcel :
    (∃ w c, evalExpr Parcel.unit Parcel.calls
        (adaptValue Parcel.unit (.localGet 1) (.boxed .byte) (.primitive .long)) Parcel.start =
          (.ok w, c) ∧
      Adapted Parcel.unit (.boxed .byte) (.primitive .long) (.ref 1) Parcel.start w c) ∧
    (∃ w c, evalExpr Parcel.unit Parcel.calls
        (adaptValue Parcel.unit (.int 5) (.primitive .int) (.inter [.object, .boxed .int]))
          Parcel.start =
          (.ok w, c) ∧
      Adapted Parcel.unit (.primitive .int) (.inter [.object, .boxed .int])
        (.int 5) Parcel.start w c) ∧
    (∃ w c, evalExpr Parcel.unit Parcel.calls
        (adaptValue Parcel.unit (.localGet 0) (.raw 1) (.inter [.raw 0, .var "T"])) Parcel.start =
          (.ok w, c) ∧
      Adapted Parcel.unit (.raw 1) (.inter [.raw 0, .var "T"]) (.ref 0) Parcel.start w c) ∧
    ∃ f : Fault, f.kind = .nullPointer ∧
      evalExpr Parcel.unit Parcel.calls
        (adaptValue Parcel.unit .null (.boxed .char) (.primitive .int)) Parcel.start =
          (.error (.fault f), Parcel.start) := by
  refine ⟨(adaptation_sound ?_ rfl ?_).2 fun h => absurd h Value.noConfusion,
    (adaptation_sound ?_ rfl ?_).2 fun h => absurd h Value.noConfusion,
    (adaptation_sound ?_ rfl ?_).2 fun h => absurd h Value.noConfusion,
    (adaptation_sound ?_ rfl ?_).1 rfl rfl⟩
  · exact CompilationUnit.isLooselyAssignable_iff.mpr (.inr (.inr ⟨_, _, rfl, rfl, rfl⟩))
  · exact .box rfl (.byte (by decide))
  · refine CompilationUnit.isLooselyAssignable_iff.mpr (.inr (.inl ⟨_, rfl, .toInter rfl ?_⟩))
    exact List.forall_mem_cons.mpr ⟨.toObject rfl, List.forall_mem_singleton.mpr (.refl _)⟩
  · exact .primitive (.int 5)
  · refine CompilationUnit.isLooselyAssignable_iff.mpr (.inl (.toInter rfl ?_))
    exact List.forall_mem_cons.mpr ⟨.subclass [] [] (by decide),
      List.forall_mem_singleton.mpr (.toVar "T" rfl)⟩
  · exact .inst [] rfl (by decide)
  · exact CompilationUnit.isLooselyAssignable_iff.mpr (.inr (.inr ⟨_, _, rfl, rfl, rfl⟩))
  · exact .null rfl

end Closures
