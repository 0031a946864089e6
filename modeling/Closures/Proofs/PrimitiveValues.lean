import Mathlib.Algebra.Order.Ring.Int
import Mathlib.Tactic.Ring
import Closures.Proofs.Assignability
import Closures.Proofs.Computation

/-!
# Values of primitive kinds

Which values are of a primitive kind, and what a conversion makes of them.

* Byte, short, int and long values stand for integers. A conversion to one of
  these kinds reduces the integer to the bits of the kind
  (`Value.exists_convert_signed`), so an integer in its range is kept.
* A conversion to a character keeps 16 bits of the integer
  (`Value.convert_char`).
* A value can be converted to every kind that its own widens to
  (`Value.exists_convert_widens`).

A value of a kind is what the conversion to that kind makes of it, unless it is
a character beyond the first 2 ^ 16 (`Value.convert_self_iff`).
-/

set_option autoImplicit false

namespace Closures

/-! ## Ranges -/

/-- The integers that a number of bits holds. -/
def InRange (bits : Nat) (i : Int) : Prop := -2 ^ (bits - 1) ≤ i ∧ i < 2 ^ (bits - 1)

instance (bits : Nat) (i : Int) : Decidable (InRange bits i) := inferInstanceAs (Decidable (_ ∧ _))

theorem InRange.mono {bits bits' : Nat} (hle : bits ≤ bits') {i : Int} (h : InRange bits i) :
    InRange bits' i := by
  have hpow : (2 : Int) ^ (bits - 1) ≤ 2 ^ (bits' - 1) :=
    pow_le_pow_right₀ (by decide) (Nat.sub_le_sub_right hle 1)
  exact ⟨(neg_le_neg hpow).trans h.1, h.2.trans_le hpow⟩

/-- An integer in the range is what its bits stand for. -/
theorem InRange.bmod_eq {bits : Nat} (hbits : 0 < bits) {i : Int} (h : InRange bits i) :
    i.bmod (2 ^ bits) = i := by
  obtain ⟨n, rfl⟩ := Nat.exists_eq_add_of_lt hbits
  obtain ⟨hlow, hhigh⟩ := h
  simp only [Nat.zero_add, Nat.add_sub_cancel] at hlow hhigh
  have hpow : ((2 ^ (0 + n + 1) : Nat) : Int) = 2 * 2 ^ n := by
    push_cast
    ring
  exact Int.bmod_eq_of_le_mul_two (by omega) (by omega)

/-- The code of a character has 21 bits. -/
theorem toNat_char_lt (c : Char) : c.toNat < 2 ^ 21 := by
  have hvalid : c.toNat < 0xd800 ∨ 0xdfff < c.toNat ∧ c.toNat < 0x110000 := c.valid
  omega

namespace Primitive

/-- The bits of a signed integral kind. -/
def bits? : Primitive → Option Nat
  | byte => some 8
  | short => some 16
  | int => some 32
  | long => some 64
  | boolean | char | float | double => none

/-- The kinds whose values are integers or codes of characters. -/
def isIntegral (k : Primitive) : Bool := k.bits?.isSome || k == char

theorem widensTo_self (k : Primitive) : k.widensTo k = true := by
  cases k <;> rfl

theorem bits_pos {k : Primitive} {bits : Nat} (h : k.bits? = some bits) : 0 < bits := by
  cases k <;> cases h <;> decide

/-- Only integral kinds widen to a signed integral kind, and they have no more
bits; the codes of characters have 21. -/
theorem bits_of_widensTo {j k : Primitive} {bits : Nat} (h : j.widensTo k = true)
    (hk : k.bits? = some bits) :
    (∃ bits' ≤ bits, j.bits? = some bits') ∨ j = char ∧ 32 ≤ bits := by
  cases k <;> cases hk <;> cases j <;> simp_all [widensTo, bits?]

end Primitive

/-! ## Values -/

namespace Value

/-- The values of a primitive kind. Byte and short values are `int`s in their
range, float values are `double`s. -/
inductive IsOf : Value → Primitive → Prop where
  | boolean (b : Bool) : IsOf (.bool b) .boolean
  | byte {x : Int32} (hx : InRange 8 x.toInt) : IsOf (.int x) .byte
  | char (c : Char) : IsOf (.char c) .char
  | short {x : Int32} (hx : InRange 16 x.toInt) : IsOf (.int x) .short
  | int (x : Int32) : IsOf (.int x) .int
  | long (x : Int64) : IsOf (.long x) .long
  | float (x : Float) : IsOf (.double x) .float
  | double (x : Float) : IsOf (.double x) .double

/-- The integer that a value stands for; a character stands for its code. -/
def integer? : Value → Option Int
  | .int x => some x.toInt
  | .long x => some x.toInt
  | .char c => some c.toNat
  | _ => none

variable {v : Value} {k : Primitive} {bits : Nat} {i : Int}

theorem exists_integer (hv : v.IsOf k) (hk : k.bits? = some bits) :
    ∃ i, v.integer? = some i ∧ InRange bits i := by
  cases hv with
  | byte hx | short hx =>
    cases hk
    exact ⟨_, rfl, hx⟩
  | int x =>
    cases hk
    exact ⟨_, rfl, x.le_toInt, x.toInt_lt⟩
  | long x =>
    cases hk
    exact ⟨_, rfl, x.le_toInt, x.toInt_lt⟩
  | boolean | char | float | double => cases hk

/-- Values of a signed integral kind are told apart by their integers. -/
theorem eq_of_integer {w : Value} (hv : v.IsOf k) (hw : w.IsOf k) (hk : k.bits? = some bits)
    (h : v.integer? = w.integer?) : v = w := by
  cases hv with
  | byte | short | int =>
    cases hw
    rw [Int32.toInt_inj.mp (Option.some.inj h)]
  | long =>
    cases hw
    rw [Int64.toInt_inj.mp (Option.some.inj h)]
  | boolean | char | float | double => cases hk

end Value

/-! ## Numbers -/

namespace Num

/-- The integer that a number is. -/
def integer? : Num → Option Int
  | int x => some x.toInt
  | long x => some x.toInt
  | double _ => none

variable {n : Num} {i : Int}

theorem toInt_toInt64 (h : n.integer? = some i) : n.toInt64.toInt = i := by
  cases n with
  | int x => exact (Int32.toInt_toInt64 x).trans (Option.some.inj h)
  | long x => exact Option.some.inj h
  | double x => cases h

theorem toInt_toInt32 (h : n.integer? = some i) : n.toInt32.toInt = i.bmod (2 ^ 32) := by
  cases n with
  | int x =>
    cases h
    have hrange : InRange 32 x.toInt := ⟨x.le_toInt, x.toInt_lt⟩
    exact (hrange.bmod_eq (by decide)).symm
  | long x =>
    cases h
    exact Int64.toInt_toInt32 x
  | double x => cases h

theorem integer_ofChar (c : Char) : (ofChar c).integer? = some c.toNat := by
  have hvalid : c.val.toNat < 2 ^ 31 := by
    have := toNat_char_lt c
    rw [Char.toNat] at this
    omega
  have htoInt : c.val.toInt32.toInt = c.val.toNat := by
    change c.val.toBitVec.toInt = _
    rw [BitVec.toInt_eq_toNat_of_lt (by rw [UInt32.toNat_toBitVec]; omega), UInt32.toNat_toBitVec]
  rw [ofChar, integer?, htoInt]
  rfl

/-- A value that stands for an integer is a number, whatever the heap. -/
theorem exists_of {v : Value} (h : v.integer? = some i) (heap : Heap) :
    ∃ n, of heap v = .ok n ∧ n.integer? = some i := by
  cases v with
  | int x => exact ⟨.int x, rfl, h⟩
  | long x => exact ⟨.long x, rfl, h⟩
  | char c => exact ⟨ofChar c, rfl, (integer_ofChar c).trans h⟩
  | _ => cases h

end Num

/-! ## Conversions -/

namespace Value

/-- **A number as a signed integral kind** has its integer reduced to the bits
of the kind. -/
theorem ofNum_signed {n : Num} {i : Int} {k : Primitive} {bits : Nat} (hn : n.integer? = some i)
    (hk : k.bits? = some bits) :
    (ofNum n k).IsOf k ∧ (ofNum n k).integer? = some (i.bmod (2 ^ bits)) := by
  have h64 := Num.toInt_toInt64 hn
  cases k <;> cases hk
  case byte =>
    have hint : n.toInt64.toInt8.toInt32.toInt = n.toInt64.toInt8.toInt := Int8.toInt_toInt32 _
    refine ⟨.byte ?_, congrArg some (hint.trans ?_)⟩
    · rw [hint]
      exact ⟨Int8.le_toInt _, Int8.toInt_lt _⟩
    · rw [Int64.toInt_toInt8, h64]
  case short =>
    have hint : n.toInt64.toInt16.toInt32.toInt = n.toInt64.toInt16.toInt := Int16.toInt_toInt32 _
    refine ⟨.short ?_, congrArg some (hint.trans ?_)⟩
    · rw [hint]
      exact ⟨Int16.le_toInt _, Int16.toInt_lt _⟩
    · rw [Int64.toInt_toInt16, h64]
  case int => exact ⟨.int _, congrArg some (Num.toInt_toInt32 hn)⟩
  case long =>
    have hrange : InRange 64 n.toInt64.toInt := ⟨Int64.le_toInt _, Int64.toInt_lt _⟩
    refine ⟨.long _, congrArg some ?_⟩
    rw [← h64, hrange.bmod_eq (by decide)]

variable {v : Value} {j k : Primitive} {bits : Nat} {i : Int}

theorem convert_of_ne (hk : k ≠ .boolean) {h : Heap} {n : Num} (hn : Num.of h v = .ok n) :
    v.convert h k = .ok (ofNum n k) := by
  rw [convert, if_neg hk, hn]
  rfl

theorem exists_convert_signed (h : Heap) (hv : v.integer? = some i) (hk : k.bits? = some bits) :
    ∃ w, v.convert h k = .ok w ∧ w.IsOf k ∧ w.integer? = some (i.bmod (2 ^ bits)) := by
  obtain ⟨n, hn, hint⟩ := Num.exists_of hv h
  have hne : k ≠ .boolean := by
    rintro rfl
    cases hk
  exact ⟨_, convert_of_ne hne hn, ofNum_signed hint hk⟩

/-- The 16 bits of an integer that a character is made of. -/
theorem toNat_code {n : Num} (hn : n.integer? = some i) :
    n.toInt64.toUInt64.toUInt16.toNat = (i % 2 ^ 16).toNat := by
  rw [← Num.toInt_toInt64 hn]
  generalize n.toInt64 = x
  rw [UInt64.toNat_toUInt16]
  have htoInt : x.toInt = if 2 * x.toUInt64.toNat < 2 ^ 64 then (x.toUInt64.toNat : Int)
      else (x.toUInt64.toNat : Int) - (2 ^ 64 : Nat) := BitVec.toInt_eq_toNat_cond _
  rw [htoInt]
  split <;> omega

theorem convert_char (h : Heap) (hv : v.integer? = some i) :
    ∃ code : UInt16, v.convert h .char = .ok (.char (charOfCode code)) ∧
      code.toNat = (i % 2 ^ 16).toNat := by
  obtain ⟨n, hn, hint⟩ := Num.exists_of hv h
  exact ⟨_, convert_of_ne (by decide) hn, toNat_code hint⟩

theorem toNat_charOfCode_lt (code : UInt16) : (charOfCode code).toNat < 2 ^ 16 := by
  rw [charOfCode]
  split
  · rename_i hvalid
    rw [Char.ofNat, dif_pos hvalid]
    exact code.toNat_lt
  · decide

/-- A character is made of its own code exactly if that has 16 bits. -/
theorem charOfCode_eq_iff {code : UInt16} {c : Char} (h : code.toNat = c.toNat % 2 ^ 16) :
    charOfCode code = c ↔ c.toNat < 2 ^ 16 := by
  constructor
  · rintro rfl
    exact toNat_charOfCode_lt code
  · intro hc
    rw [Nat.mod_eq_of_lt hc] at h
    have hvalid : code.toNat.isValidChar := h ▸ c.valid
    rw [charOfCode, if_pos hvalid, h, Char.ofNat_toNat]

/-- A value of a kind is a number of some sort, unless it is a truth value. -/
theorem exists_numOf (hv : v.IsOf k) (hk : k ≠ .boolean) (h : Heap) : ∃ n, Num.of h v = .ok n := by
  cases hv with
  | boolean => exact absurd rfl hk
  | byte | char | short | int | long | float | double => exact ⟨_, rfl⟩

/-- **A value can be converted to every kind that its own widens to**, and keeps
its integer. -/
theorem exists_convert_widens (h : Heap) (hv : v.IsOf j) (hjk : j.widensTo k = true) :
    ∃ w, v.convert h k = .ok w ∧ w.IsOf k ∧ (k.bits?.isSome = true → w.integer? = v.integer?) := by
  cases hk : k.bits? with
  | some bits =>
    -- the integer is in the range of the kind that it is widened to
    obtain ⟨i, hi, hrange⟩ : ∃ i, v.integer? = some i ∧ InRange bits i := by
      rcases Primitive.bits_of_widensTo hjk hk with ⟨bits', hle, hj⟩ | ⟨rfl, hle⟩
      · obtain ⟨i, hi, hrange⟩ := exists_integer hv hj
        exact ⟨i, hi, hrange.mono hle⟩
      · cases hv with
        | char c =>
          have hvalid := toNat_char_lt c
          have hcode : InRange 32 c.toNat := by
            rw [InRange]
            omega
          exact ⟨_, rfl, hcode.mono hle⟩
    obtain ⟨w, hw, hof, hint⟩ := exists_convert_signed h hi hk
    rw [hrange.bmod_eq (Primitive.bits_pos hk)] at hint
    exact ⟨w, hw, hof, fun _ => hint.trans hi.symm⟩
  | none =>
    cases k <;> cases hk
    case none.boolean =>
      cases j <;> cases hjk
      cases hv
      exact ⟨_, rfl, .boolean _, fun hsome => absurd hsome Bool.false_ne_true⟩
    all_goals
      have hne : j ≠ .boolean := by
        rintro rfl
        cases hjk
      obtain ⟨n, hn⟩ := exists_numOf hv hne h
      exact ⟨_, convert_of_ne (by decide) hn, by constructor, fun hsome =>
        absurd hsome Bool.false_ne_true⟩

/-! ## Conversions that change nothing -/

/-- A value of a primitive kind as evaluation admits it: a float is of single
precision. -/
structure Admitted (v : Value) (k : Primitive) : Prop where
  isOf : v.IsOf k
  single : ∀ x, k = .float → v = .double x → Binary64.toSingle x = x

/-- A character is one of the first 2 ^ 16. -/
def InBasicPlane : Value → Prop
  | .char c => c.toNat < 2 ^ 16
  | _ => True

theorem inBasicPlane_of_bits (hv : v.IsOf k) (hk : k.bits? = some bits) : v.InBasicPlane := by
  cases hv with
  | char => cases hk
  | boolean | byte | short | int | long | float | double => trivial

/-- **A value of a kind is what the conversion to its kind makes of it**,
exactly if it is no character beyond the basic plane. -/
theorem convert_self_iff (h : Heap) (hv : v.Admitted k) :
    v.convert h k = .ok v ↔ v.InBasicPlane := by
  cases hk : k.bits? with
  | some bits =>
    obtain ⟨i, hi, hrange⟩ := exists_integer hv.isOf hk
    obtain ⟨w, hw, hof, hint⟩ := exists_convert_signed h hi hk
    rw [hrange.bmod_eq (Primitive.bits_pos hk)] at hint
    obtain rfl := eq_of_integer hv.isOf hof hk (hi.trans hint.symm)
    exact iff_of_true hw (inBasicPlane_of_bits hv.isOf hk)
  | none =>
    obtain ⟨hof, hsingle⟩ := hv
    cases hof with
    | boolean | double => exact iff_of_true rfl trivial
    | char c =>
      obtain ⟨code, hcode, hbits⟩ := convert_char h (v := .char c) rfl
      rw [hcode, Except.ok.injEq, char.injEq]
      exact charOfCode_eq_iff (by omega)
    | float x =>
      refine iff_of_true ?_ trivial
      rw [convert_of_ne (n := .double x) (by decide) rfl, ofNum, Num.toFloat, hsingle x rfl rfl]
    | byte | short | int | long => cases hk

/-- **What is widened and converted back is as before**, exactly if it is no
character beyond the basic plane. -/
theorem exists_convert_back (h : Heap) (hv : v.IsOf j) (hj : j.isIntegral = true)
    (hk : k.isIntegral = true) (hjk : j.widensTo k = true) :
    ∃ w, v.convert h k = .ok w ∧ w.IsOf k ∧ (w.convert h j = .ok v ↔ v.InBasicPlane) := by
  obtain ⟨w, hw, hof, hint⟩ := exists_convert_widens h hv hjk
  refine ⟨w, hw, hof, ?_⟩
  cases hbits : j.bits? with
  | some bits =>
    -- the integer is still in the range of the narrow kind
    have hsome : k.bits?.isSome = true := by
      revert hjk hbits hk
      cases j <;> cases k <;> simp [Primitive.widensTo, Primitive.bits?, Primitive.isIntegral]
    obtain ⟨i, hi, hrange⟩ := exists_integer hv hbits
    obtain ⟨v', hv', hof', hint'⟩ := exists_convert_signed h ((hint hsome).trans hi) hbits
    rw [hrange.bmod_eq (Primitive.bits_pos hbits)] at hint'
    obtain rfl := eq_of_integer hv hof' hbits (hi.trans hint'.symm)
    exact iff_of_true hv' (inBasicPlane_of_bits hv hbits)
  | none =>
    obtain rfl : j = .char := by simpa [Primitive.isIntegral, hbits] using hj
    cases hv with
    | char c =>
      by_cases hc : k = .char
      · subst hc
        obtain ⟨code, hcode, hbits⟩ := convert_char h (v := .char c) rfl
        rw [hcode] at hw
        cases hw
        have hsame : (Value.char (charOfCode code)).convert h .char =
          .ok (.char (charOfCode code)) :=
          (convert_self_iff h ⟨hof, fun _ hfloat => by cases hfloat⟩).mpr (toNat_charOfCode_lt code)
        rw [hsame, Except.ok.injEq, char.injEq]
        exact charOfCode_eq_iff (by omega)
      · have hsome : k.bits?.isSome = true := by simpa [Primitive.isIntegral, hc] using hk
        obtain ⟨code, hcode, hbits⟩ := convert_char h ((hint hsome).trans rfl)
        rw [hcode, Except.ok.injEq, char.injEq]
        exact charOfCode_eq_iff (by omega)

end Value

end Closures
