import Closures.Proofs.ValueAdaptation

/-!
# Boxes as glue

Where a closure is used through a generic interface its arguments and its result
travel in boxes. A box is made by a conversion to its own kind, and opening it
makes the same conversion again. So what comes out of a box is what the
conversion makes of what was put in (`evalExpr_unbox_box`), whatever type the
box was used at in between (`evalExpr_there_and_back`).

That conversion is meant to change nothing, and changes nothing for truth
values, integers, numbers and the characters of the basic plane. A character
beyond the basic plane is cut to 16 bits, and comes out as another one. The main
theorem, `boxing_transparent`, says that these are all the exceptions.
-/

set_option autoImplicit false

namespace Closures

/-! ## What a box holds -/

/-- The conversion that makes a box yields a value that it does not change any
more. -/
theorem Value.exists_convert_settled {v : Value} {k : Primitive} (h : Heap) (hv : v.Admitted k) :
    ∃ w, v.convert h k = .ok w ∧ w.IsOf k ∧ (∀ h', w.convert h' k = .ok w) ∧
      (w = v ↔ v.InBasicPlane) := by
  by_cases hplane : v.InBasicPlane
  · exact ⟨v, (convert_self_iff h hv).mpr hplane, hv.isOf, fun h' =>
      (convert_self_iff h' hv).mpr hplane, iff_of_true rfl hplane⟩
  · cases v
    case char c =>
      obtain ⟨⟨⟩⟩ := hv
      obtain ⟨code, hcode, -⟩ := convert_char h (v := .char c) rfl
      have hlt := toNat_charOfCode_lt code
      have hadmitted : (Value.char (charOfCode code)).Admitted .char :=
        ⟨.char _, fun _ hfloat => by cases hfloat⟩
      refine ⟨_, hcode, hadmitted.isOf, fun h' => (convert_self_iff h' hadmitted).mpr hlt, ?_⟩
      exact iff_of_false (fun heq => hplane (heq ▸ hlt)) hplane
    all_goals exact absurd trivial hplane

/-! ## Glue that opens a box -/

section Glue

variable {u : CompilationUnit} {calls : Calls} {e : Expr} {c c' : Config} {v w : Value}
    {k : Primitive} {t : Ty}

/-- From any other type of references a box is asked for before it is opened. -/
theorem adaptValue_cast (e : Expr) (ht : t.isReference = true) (hboxed : ∀ j, t ≠ .boxed j) :
    adaptValue u e t (.primitive k) = .unbox (.cast e (.boxed k)) k := by
  cases t
  case void | primitive => cases ht
  case boxed j => exact absurd rfl (hboxed j)
  all_goals simp [adaptValue, Ty.isVoid]

theorem evalExpr_cast_box {r : Ref} {x : Value} (heval : evalExpr u calls e c = (.ok (.ref r), c'))
    (hr : c'.store.heap[r]? = some (.boxed k x)) :
    evalExpr u calls (.cast e (.boxed k)) c = (.ok (.ref r), c') := by
  have hinst : isInstance u c'.store.heap (.ref r) (.boxed k) = true := by simp [isInstance, hr]
  rw [evalExpr, bind_apply, heval]
  refine onHeap_of_ok ?_
  simp [castTo, hinst]

/-- A wrapper is assignable to no other wrapper. -/
theorem eq_of_assignable_boxed {j : Primitive} (h : u.Assignable (.boxed k) (.boxed j)) :
    j = k := by
  cases h
  rfl

/-- **What comes out of a box** is what the conversion made of what was put
in. -/
theorem evalExpr_unbox_box (heval : evalExpr u calls e c = (.ok v, c'))
    (hw : v.convert c'.store.heap k = .ok w) (hsettled : ∀ h, w.convert h k = .ok w) :
    evalExpr u calls (.unbox (.box e k) k) c = (.ok w, c'.push (.boxed k w)) :=
  evalExpr_unbox (evalExpr_box heval hw) (Value.unboxed_box (c'.getElem?_push _)) (hsettled _)

/-- **The type that a box is used at does not matter** to what comes out of
it. -/
theorem evalExpr_there_and_back (ht : u.Assignable (.boxed k) t)
    (heval : evalExpr u calls e c = (.ok v, c')) (hw : v.convert c'.store.heap k = .ok w)
    (hsettled : ∀ h, w.convert h k = .ok w) :
    evalExpr u calls (adaptValue u (adaptValue u e (.primitive k) t) t (.primitive k)) c =
      (.ok w, c'.push (.boxed k w)) := by
  rw [adaptValue_box e ht]
  by_cases hboxed : ∃ j, t = .boxed j
  · obtain ⟨j, rfl⟩ := hboxed
    obtain rfl := eq_of_assignable_boxed ht
    rw [adaptValue_unbox, Expr.convertFrom, if_pos rfl]
    exact evalExpr_unbox_box heval hw hsettled
  · have hr := c'.getElem?_push (.boxed k w)
    rw [adaptValue_cast _ (ht.isReference_eq.symm.trans rfl) (not_exists.mp hboxed)]
    exact evalExpr_unbox (evalExpr_cast_box (evalExpr_box heval hw) hr) (Value.unboxed_box hr)
      (hsettled _)

end Glue

/-- **Boxing is transparent, but for characters beyond the basic plane.** For a
value of a primitive kind these are the same: the conversion to its kind leaves
it as it is; opening a box that it was put into yields it again; it is what a
box holds that was made to use it at some type, and what is adapted back from
there; and, for integral kinds, it is what is left of it when it is widened and
converted back. -/
theorem boxing_transparent (u : CompilationUnit) (calls : Calls) {k : Primitive} {v : Value}
    (hv : v.Admitted k) :
    (∀ h, v.convert h k = .ok v ↔ v.InBasicPlane) ∧
    (∀ e c c', evalExpr u calls e c = (.ok v, c') → ∃ w, (w = v ↔ v.InBasicPlane) ∧
      evalExpr u calls (.unbox (.box e k) k) c = (.ok w, c'.push (.boxed k w)) ∧
      ∀ t, u.isAssignable (.boxed k) t = true →
        evalExpr u calls (adaptValue u e (.primitive k) t) c =
          (.ok (.ref c'.store.heap.size), c'.push (.boxed k w)) ∧
        evalExpr u calls (adaptValue u (adaptValue u e (.primitive k) t) t (.primitive k)) c =
          (.ok w, c'.push (.boxed k w))) ∧
    ∀ j, k.isIntegral = true → j.isIntegral = true → k.widensTo j = true → ∀ h,
      ∃ w, v.convert h j = .ok w ∧ w.IsOf j ∧ (w.convert h k = .ok v ↔ v.InBasicPlane) := by
  refine ⟨fun h => Value.convert_self_iff h hv, fun e c c' heval => ?_, fun j hk hj hkj h => ?_⟩
  · obtain ⟨w, hw, -, hsettled, hsame⟩ := Value.exists_convert_settled c'.store.heap hv
    refine ⟨w, hsame, evalExpr_unbox_box heval hw hsettled, fun t ht => ?_⟩
    rw [CompilationUnit.isAssignable_iff] at ht
    exact ⟨by rw [adaptValue_box e ht]; exact evalExpr_box heval hw,
      evalExpr_there_and_back ht heval hw hsettled⟩
  · exact Value.exists_convert_back h hv.isOf hk hj hkj

namespace Astral

/-- A unit without types. -/
def unit : CompilationUnit := ⟨"astral", none, []⟩

/-- No calls are made. -/
def calls : Calls := callsWithin unit 0

/-- Nothing has happened yet. -/
def start : Config := ⟨.empty, .empty⟩

theorem admitted_char (c : Char) : (Value.char c).Admitted .char :=
  ⟨.char c, fun _ hfloat => absurd hfloat (by decide)⟩

theorem admitted_byte : (Value.int (-128)).Admitted .byte :=
  ⟨.byte (by decide), fun _ hfloat => absurd hfloat (by decide)⟩

end Astral

/-- The last character of the basic plane comes out of a box that was used at a
type variable, and the least byte out of a long number. -/
theorem boxing_transparent_edge :
    (∃ w, w = .char '\uffff' ∧
      evalExpr Astral.unit Astral.calls (adaptValue Astral.unit
        (adaptValue Astral.unit (.char '\uffff') (.primitive .char) (.var "T"))
          (.var "T") (.primitive .char))
        Astral.start = (.ok w, Astral.start.push (.boxed .char w))) ∧
    ∃ w, (Value.int (-128)).convert #[] .long = .ok w ∧ w.IsOf .long ∧
      w.convert #[] .byte = .ok (.int (-128)) := by
  obtain ⟨-, hglue, -⟩ :=
    boxing_transparent Astral.unit Astral.calls (Astral.admitted_char '\uffff')
  obtain ⟨-, -, hback⟩ := boxing_transparent Astral.unit Astral.calls Astral.admitted_byte
  constructor
  · obtain ⟨w, hsame, -, htypes⟩ := hglue (.char '\uffff') Astral.start Astral.start rfl
    have hplane : (Value.char '\uffff').InBasicPlane := show Char.toNat '\uffff' < 2 ^ 16 by decide
    exact ⟨w, hsame.mpr hplane,
      (htypes _ (CompilationUnit.isAssignable_iff.mpr (.toVar "T" rfl))).2⟩
  · obtain ⟨w, hw, hof, hsame⟩ := hback .long rfl rfl rfl #[]
    exact ⟨w, hw, hof, hsame.mpr trivial⟩

/-- **A character beyond the basic plane comes out of a box as another one**,
and so it does from an integer. -/
theorem Astral.boxing_alters :
    (Value.char '😀').Admitted .char ∧
    (Value.char '😀').convert #[] .char = .ok (.char '\uf600') ∧
    evalExpr unit calls (.unbox (.box (.char '😀') .char) .char) start =
      (.ok (.char '\uf600'), start.push (.boxed .char (.char '\uf600'))) ∧
    (Value.char '😀').convert #[] .int = .ok (.int 128512) ∧
    (Value.int 128512).convert #[] .char = .ok (.char '\uf600') ∧ '😀' ≠ '\uf600' :=
  ⟨admitted_char '😀', rfl, rfl, rfl, rfl, by decide⟩

end Closures
