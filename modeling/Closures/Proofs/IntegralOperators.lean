import Mathlib.Data.Int.ModEq
import Mathlib.Tactic.Positivity
import Closures.Machine.Eval
import Closures.Proofs.PrimitiveValues

/-!
# Integral operators

The operators on integers, characters and long integers, plain or in boxes, said
in terms of the integers that they stand for.

* Both operands are taken in the width of the wider one. Sums, differences and
  products are exact and then reduced to that width; the bitwise operators work
  on the bits of the reduced forms.
* A quotient goes toward zero. Only that of the least integer and -1 is out of
  range and is reduced. The remainder belongs to the unreduced quotient, so
  quotient and remainder make up the left operand again, up to the width.
* A shift takes the width of its left operand, and of the right one only the
  bits that number the places of that width.

`Arithmetic` and `Shifts` state these laws for any way to run the operators;
`integral_operators` says that evaluation obeys them.
-/

set_option autoImplicit false

namespace Closures

/-! ## Operands -/

/-- The integral values, with their width and the integer that they stand
for. -/
inductive Value.IsInteger : Value → Nat → Int → Prop where
  | int (x : Int32) : IsInteger (.int x) 32 x.toInt
  | char (c : Char) : IsInteger (.char c) 32 c.toNat
  | long (x : Int64) : IsInteger (.long x) 64 x.toInt

/-- An integral value, or a box that holds one. -/
inductive IntegerOperand (h : Heap) : Value → Nat → Int → Prop where
  | plain {v : Value} {bits : Nat} {i : Int} (hv : v.IsInteger bits i) : IntegerOperand h v bits i
  | boxed {r : Ref} {k : Primitive} {v : Value} {bits : Nat} {i : Int}
    (hr : h[r]? = some (.boxed k v))
      (hv : v.IsInteger bits i) : IntegerOperand h (.ref r) bits i

/-- The integral numbers, with their width and integer. -/
inductive Num.IsInteger : Num → Nat → Int → Prop where
  | int (x : Int32) : IsInteger (.int x) 32 x.toInt
  | long (x : Int64) : IsInteger (.long x) 64 x.toInt

theorem Value.IsInteger.unboxed {v : Value} {bits : Nat} {i : Int} (hv : v.IsInteger bits i)
    (h : Heap) :
    v.unboxed h = .ok v := by
  cases hv <;> rfl

theorem IntegerOperand.exists_unboxed {h : Heap} {v : Value} {bits : Nat} {i : Int}
    (hv : IntegerOperand h v bits i) : ∃ x, v.unboxed h = .ok x ∧ x.IsInteger bits i := by
  cases hv with
  | plain hv => exact ⟨v, hv.unboxed h, hv⟩
  | @boxed r k x _ _ hr hx =>
    refine ⟨x, ?_, hx⟩
    rw [Value.unboxed, hr]

/-- An operand is taken as the number of its width. -/
theorem IntegerOperand.exists_num {h : Heap} {v : Value} {bits : Nat} {i : Int}
    (hv : IntegerOperand h v bits i) : ∃ n, Num.of h v = .ok n ∧ n.IsInteger bits i := by
  obtain ⟨x, hx, hint⟩ := hv.exists_unboxed
  rw [Num.of, hx]
  cases hint with
  | int x => exact ⟨.int x, rfl, .int x⟩
  | char c =>
    refine ⟨Num.ofChar c, rfl, ?_⟩
    have hcode := Option.some.inj (Num.integer_ofChar c)
    rw [← hcode]
    exact .int _
  | long x => exact ⟨.long x, rfl, .long x⟩

theorem Num.IsInteger.integer? {n : Num} {bits : Nat} {i : Int} (h : n.IsInteger bits i) :
    n.integer? = some i := by
  cases h <;> rfl

/-! ## The laws -/

/-- An operator yields an integer, as a plain value of a width. -/
def YieldsInteger (outcome : Except Fault Value) (bits : Nat) (n : Int) : Prop :=
  ∃ x : Num, outcome = .ok x.toValue ∧ x.IsInteger bits n

/-- A bitwise operator works on the forms of two integers in some bits, place by
place. -/
def Bitwise (outcome : Except Fault Value) (f : Bool → Bool → Bool) (bits : Nat) (i j : Int) :
    Prop :=
  ∃ n, YieldsInteger outcome bits n ∧ ∀ place < bits, (BitVec.ofInt bits n).getLsbD place =
    f ((BitVec.ofInt bits i).getLsbD place) ((BitVec.ofInt bits j).getLsbD place)

/-- What quotient and remainder are, for a right operand that is not zero. -/
structure Division (bits : Nat) (i j q r : Int) : Prop where
  quotient : q = (i.tdiv j).bmod (2 ^ bits)
  /-- Only the least integer by -1 wraps around. -/
  wraps_iff : q ≠ i.tdiv j ↔ i = -2 ^ (bits - 1) ∧ j = -1
  remainder : r = i.tmod j
  /-- The remainder is smaller than the divisor and has the sign of the
  dividend. -/
  remainder_lt : r.natAbs < j.natAbs
  remainder_sign : r = 0 ∨ r.sign = i.sign
  recompose : q * j + r ≡ i [ZMOD 2 ^ bits]

/-- The laws of the operators that are no shifts, on two integers in a common
width. -/
structure Arithmetic (outcome : BinaryOp → Except Fault Value) (bits : Nat) (i j : Int) : Prop where
  add : YieldsInteger (outcome .add) bits ((i + j).bmod (2 ^ bits))
  sub : YieldsInteger (outcome .sub) bits ((i - j).bmod (2 ^ bits))
  mul : YieldsInteger (outcome .mul) bits ((i * j).bmod (2 ^ bits))
  div_zero : j = 0 → outcome .div = .error .divisionByZero ∧ outcome .rem = .error .divisionByZero
  div : j ≠ 0 → ∃ q r,
    YieldsInteger (outcome .div) bits q ∧ YieldsInteger (outcome .rem) bits r ∧
      Division bits i j q r
  bitAnd : Bitwise (outcome .bitAnd) (· && ·) bits i j
  bitOr : Bitwise (outcome .bitOr) (· || ·) bits i j
  bitXor : Bitwise (outcome .bitXor) xor bits i j

/-- The places by which an integer is shifted in some bits: what the low bits of
the right operand say. -/
def places (bits : Nat) (j : Int) : Nat := (j % bits).toNat

/-- The laws of the shifts, on a left operand of some bits. -/
structure Shifts (outcome : BinaryOp → Except Fault Value) (bits : Nat) (i j : Int) : Prop where
  shl : YieldsInteger (outcome .shl) bits ((i * 2 ^ places bits j).bmod (2 ^ bits))
  shr : YieldsInteger (outcome .shr) bits (i.fdiv (2 ^ places bits j))
  ushr : YieldsInteger (outcome .ushr) bits
    (((i % 2 ^ bits).fdiv (2 ^ places bits j)).bmod (2 ^ bits))

/-! ## Division -/

section Division

variable {bits : Nat} {i j : Int}

/-- What is reduced to some bits is in their range. -/
theorem inRange_bmod (hbits : 0 < bits) (i : Int) : InRange bits (i.bmod (2 ^ bits)) := by
  obtain ⟨n, rfl⟩ := Nat.exists_eq_add_of_lt hbits
  have hpow : ((2 ^ (0 + n + 1) : Nat) : Int) = 2 * 2 ^ n := by
    push_cast
    ring
  have hlow := Int.le_bmod (x := i) (m := 2 ^ (0 + n + 1)) (by positivity)
  have hhigh := Int.bmod_lt (x := i) (m := 2 ^ (0 + n + 1)) (by positivity)
  rw [hpow] at hlow hhigh
  rw [InRange, Nat.zero_add, Nat.add_sub_cancel]
  simp only [Nat.zero_add] at hlow hhigh
  omega

/-- A quotient is out of range only where the least integer changes its sign. -/
theorem inRange_tdiv_iff (hi : InRange bits i) (hj : j ≠ 0) :
    InRange bits (i.tdiv j) ↔ ¬(i = -2 ^ (bits - 1) ∧ j = -1) := by
  have hpos : (0 : Int) < 2 ^ (bits - 1) := by positivity
  rw [InRange] at hi ⊢
  generalize (2 : Int) ^ (bits - 1) = p at hi hpos ⊢
  constructor
  · rintro ⟨-, hlt⟩ ⟨rfl, rfl⟩
    rw [Int.tdiv_neg, Int.tdiv_one] at hlt
    omega
  · intro hne
    by_cases hunit : j.natAbs = 1
    · rcases Int.natAbs_eq_iff.mp hunit with rfl | rfl
      · rwa [Nat.cast_one, Int.tdiv_one]
      · rw [Nat.cast_one, Int.tdiv_neg, Int.tdiv_one]
        omega
    · -- the quotient has at most half the size of the dividend
      have habs : (i.tdiv j).natAbs = i.natAbs / j.natAbs := Int.natAbs_tdiv i j
      have hhalf : i.natAbs / j.natAbs ≤ i.natAbs / 2 := Nat.div_le_div_left (by omega) (by decide)
      omega

theorem division (hbits : 0 < bits) (hi : InRange bits i) (hj : j ≠ 0) :
    Division bits i j ((i.tdiv j).bmod (2 ^ bits)) (i.tmod j) where
  quotient := rfl
  wraps_iff := by
    rw [← not_iff_not, not_not, ← inRange_tdiv_iff hi hj]
    constructor
    · intro heq
      rw [← heq]
      exact inRange_bmod hbits _
    · exact fun hrange => hrange.bmod_eq hbits
  remainder := rfl
  remainder_lt := by
    rw [Int.natAbs_tmod]
    exact Nat.mod_lt _ (Int.natAbs_pos.mpr hj)
  remainder_sign := by
    rw [Int.sign_tmod]
    split
    · rename_i hdvd
      exact .inl (Int.tmod_eq_zero_of_dvd hdvd)
    · exact .inr rfl
  recompose := by
    have hquotient : (i.tdiv j).bmod (2 ^ bits) ≡ i.tdiv j [ZMOD 2 ^ bits] := by
      have hmod := Int.bmod_emod (x := i.tdiv j) (m := 2 ^ bits)
      exact_mod_cast hmod
    calc (i.tdiv j).bmod (2 ^ bits) * j + i.tmod j
        ≡ i.tdiv j * j + i.tmod j [ZMOD 2 ^ bits] := (hquotient.mul_right j).add_right _
      _ = i := Int.tdiv_mul_add_tmod i j

end Division

/-! ## Bits -/

section Bits

variable {bits : Nat}

theorem toNat_eq_toInt_emod (x : BitVec bits) : (x.toNat : Int) = x.toInt % 2 ^ bits := by
  have hlt : (x.toNat : Int) < 2 ^ bits := by exact_mod_cast x.isLt
  have hmod : x.toInt % (2 ^ bits : Nat) = x.toNat % (2 ^ bits : Nat) := by
    rw [BitVec.toInt_eq_toNat_bmod, Int.bmod_emod]
  push_cast at hmod
  rw [hmod, Int.emod_eq_of_lt (Int.natCast_nonneg _) hlt]

/-- A shift to the left is a product. -/
theorem toInt_shiftLeft_eq (x : BitVec bits) (n : Nat) :
    (x <<< n).toInt = (x.toInt * 2 ^ n).bmod (2 ^ bits) := by
  have hcongr : (x.toNat : Int) * 2 ^ n ≡ x.toInt * 2 ^ n [ZMOD (2 ^ bits : Nat)] := by
    refine Int.ModEq.mul_right _ ?_
    rw [toNat_eq_toInt_emod, Nat.cast_pow, Nat.cast_ofNat]
    exact Int.mod_modEq _ _
  rw [BitVec.toInt_shiftLeft, Nat.shiftLeft_eq, ← Int.emod_bmod (x.toInt * 2 ^ n),
    ← hcongr, Int.emod_bmod]
  push_cast
  rfl

/-- A shift to the right with the sign is a quotient. -/
theorem toInt_sshiftRight_eq (x : BitVec bits) (n : Nat) :
    (x.sshiftRight n).toInt = x.toInt.fdiv (2 ^ n) := by
  rw [BitVec.toInt_sshiftRight, Int.shiftRight_eq_div_pow,
    Int.fdiv_eq_ediv_of_nonneg _ (by positivity)]
  push_cast
  rfl

/-- A shift to the right with zeros is a quotient of what the bits are without a
sign. -/
theorem toInt_ushiftRight_eq (x : BitVec bits) (n : Nat) :
    (x >>> n).toInt = ((x.toInt % 2 ^ bits).fdiv (2 ^ n)).bmod (2 ^ bits) := by
  rw [← toNat_eq_toInt_emod, Int.fdiv_eq_ediv_of_nonneg _ (by positivity),
    BitVec.toInt_eq_toNat_bmod, BitVec.toNat_ushiftRight, Nat.shiftRight_eq_div_pow]
  push_cast
  rfl

/-- The low bits are a remainder. -/
theorem toInt_and_mask (x : BitVec 64) {n : Nat} (hn : n < 63) :
    (x &&& BitVec.ofNat 64 (2 ^ n - 1)).toInt = x.toInt % 2 ^ n := by
  have hpow : 2 ^ n < 2 ^ 63 := Nat.pow_lt_pow_right (by decide) hn
  have hnat : (x &&& BitVec.ofNat 64 (2 ^ n - 1)).toNat = x.toNat % 2 ^ n := by
    rw [BitVec.toNat_and, BitVec.toNat_ofNat, Nat.mod_eq_of_lt (by omega),
      Nat.and_two_pow_sub_one_eq_mod]
  have hlt : 2 * (x &&& BitVec.ofNat 64 (2 ^ n - 1)).toNat < 2 ^ 64 := by
    have hmod : x.toNat % 2 ^ n < 2 ^ n := Nat.mod_lt _ (by positivity)
    omega
  rw [BitVec.toInt_eq_toNat_of_lt hlt, hnat, Int.natCast_emod, toNat_eq_toInt_emod]
  push_cast
  exact Int.emod_emod_of_dvd _ (pow_dvd_pow (2 : Int) (by omega : n ≤ 64))

theorem toInt_eq_toNat_of_nonneg {x : BitVec bits} (h : 0 ≤ x.toInt) : x.toInt = x.toNat := by
  have hmsb : x.msb = false := by
    rw [BitVec.msb_eq_toInt]
    exact decide_eq_false (not_lt.mpr h)
  exact BitVec.toInt_eq_toNat_of_msb hmsb

/-- An amount below the number of places is taken as it is, by signed and by
unsigned shifts. -/
theorem toNat_amount {x d : BitVec bits} {k : Int} (hx : x.toInt = k) (hk : 0 ≤ k)
    (hlt : k < d.toInt) :
    (x.smod d).toNat = k.toNat ∧ (x % d).toNat = k.toNat := by
  subst hx
  have hnat := toInt_eq_toNat_of_nonneg hk
  have hd := toInt_eq_toNat_of_nonneg (hk.trans hlt.le)
  constructor
  · have hsame : x.smod d = x := by
      rw [← BitVec.toInt_inj, BitVec.toInt_smod, Int.fmod_eq_emod_of_nonneg _ (hk.trans hlt.le),
        Int.emod_eq_of_lt hk hlt]
    rw [hsame, hnat, Int.toNat_natCast]
  · rw [BitVec.toNat_umod, Nat.mod_eq_of_lt (by omega), hnat, Int.toNat_natCast]

end Bits

/-! ## Shifts -/

theorem YieldsInteger.int {x : Int32} {n : Int} (h : x.toInt = n) :
    YieldsInteger (.ok (.int x)) 32 n :=
  ⟨.int x, rfl, h ▸ .int x⟩

theorem YieldsInteger.long {x : Int64} {n : Int} (h : x.toInt = n) :
    YieldsInteger (.ok (.long x)) 64 n :=
  ⟨.long x, rfl, h ▸ .long x⟩

section Shifts

variable {j : Int} (x : Int64)

theorem toInt_and_31 : (x &&& 31).toInt = x.toInt % 32 := by
  have hmask : (31 : Int64).toBitVec = BitVec.ofNat 64 (2 ^ 5 - 1) := rfl
  have hand := toInt_and_mask x.toBitVec (n := 5) (by decide)
  rw [← hmask, ← Int64.toBitVec_and] at hand
  exact hand

theorem toInt_and_63 : (x &&& 63).toInt = x.toInt % 64 := by
  have hmask : (63 : Int64).toBitVec = BitVec.ofNat 64 (2 ^ 6 - 1) := rfl
  have hand := toInt_and_mask x.toBitVec (n := 6) (by decide)
  rw [← hmask, ← Int64.toBitVec_and] at hand
  exact hand

/-- The amount of a shift in 32 bits. -/
theorem toInt_amount : (x &&& 31).toInt32.toInt = x.toInt % 32 := by
  have hrange : InRange 32 (x.toInt % 32) := by
    constructor <;> omega
  rw [Int64.toInt_toInt32, toInt_and_31, hrange.bmod_eq (by decide)]

theorem shifts_int (v : Int32) {n : Num} {bits : Nat} (hn : n.IsInteger bits j) :
    Shifts (fun op => shift op (.int v) n) 32 v.toInt j := by
  have hs : (n.toInt64 &&& 31).toInt32.toBitVec.toInt = j % 32 := by
    rw [← Num.toInt_toInt64 hn.integer?]
    exact toInt_amount n.toInt64
  obtain ⟨hsigned, hunsigned⟩ :=
    toNat_amount (d := 32) hs (Int.emod_nonneg j (by decide)) (Int.emod_lt_of_pos j (by decide))
  refine ⟨.int ?_, .int ?_, .int ?_⟩
  · change ((v <<< (n.toInt64 &&& 31).toInt32).toBitVec).toInt = _
    rw [Int32.toBitVec_shiftLeft, BitVec.shiftLeft_eq', hsigned]
    exact toInt_shiftLeft_eq v.toBitVec _
  · change ((v >>> (n.toInt64 &&& 31).toInt32).toBitVec).toInt = _
    rw [Int32.toBitVec_shiftRight, BitVec.sshiftRight_eq', hsigned]
    exact toInt_sshiftRight_eq v.toBitVec _
  · change ((v.toUInt32 >>> (n.toInt64 &&& 31).toInt32.toUInt32).toBitVec).toInt = _
    rw [UInt32.toBitVec_shiftRight, BitVec.ushiftRight_eq']
    exact hunsigned ▸ toInt_ushiftRight_eq v.toBitVec _

theorem shifts_long (v : Int64) {n : Num} {bits : Nat} (hn : n.IsInteger bits j) :
    Shifts (fun op => shift op (.long v) n) 64 v.toInt j := by
  have hs : (n.toInt64 &&& 63).toBitVec.toInt = j % 64 := by
    rw [← Num.toInt_toInt64 hn.integer?]
    exact toInt_and_63 n.toInt64
  obtain ⟨hsigned, hunsigned⟩ :=
    toNat_amount (d := 64) hs (Int.emod_nonneg j (by decide)) (Int.emod_lt_of_pos j (by decide))
  refine ⟨.long ?_, .long ?_, .long ?_⟩
  · change ((v <<< (n.toInt64 &&& 63)).toBitVec).toInt = _
    rw [Int64.toBitVec_shiftLeft, BitVec.shiftLeft_eq', hsigned]
    exact toInt_shiftLeft_eq v.toBitVec _
  · change ((v >>> (n.toInt64 &&& 63)).toBitVec).toInt = _
    rw [Int64.toBitVec_shiftRight, BitVec.sshiftRight_eq', hsigned]
    exact toInt_sshiftRight_eq v.toBitVec _
  · change ((v.toUInt64 >>> (n.toInt64 &&& 63).toUInt64).toBitVec).toInt = _
    rw [UInt64.toBitVec_shiftRight, BitVec.ushiftRight_eq']
    exact hunsigned ▸ toInt_ushiftRight_eq v.toBitVec _

/-- **Shifts obey their laws**, whatever the width of the right operand. -/
theorem shifts_shift {m n : Num} {bits bits' : Nat} {i : Int} (hm : m.IsInteger bits i)
    (hn : n.IsInteger bits' j) :
    Shifts (fun op => shift op m n) bits i j := by
  cases hm with
  | int v => exact shifts_int v hn
  | long v => exact shifts_long v hn

end Shifts

/-! ## Arithmetic in one width -/

theorem Bitwise.of_toInt {outcome : Except Fault Value} {f : Bool → Bool → Bool} {bits : Nat}
    {x y z : BitVec bits} (h : YieldsInteger outcome bits z.toInt)
    (hz : ∀ place < bits, z.getLsbD place = f (x.getLsbD place) (y.getLsbD place)) :
    Bitwise outcome f bits x.toInt y.toInt :=
  ⟨z.toInt, h, by simpa only [BitVec.ofInt_toInt] using hz⟩

theorem arithmetic_int (x y : Int32) : Arithmetic (intOp · x y) 32 x.toInt y.toInt where
  add := .int (Int32.toInt_add x y)
  sub := .int (Int32.toInt_sub x y)
  mul := .int (Int32.toInt_mul x y)
  div_zero := by
    intro hy
    cases Int32.toInt_inj.mp (hy.trans Int32.toInt_zero.symm)
    exact ⟨rfl, rfl⟩
  div := by
    intro hy
    have hne : y ≠ 0 := fun h => hy (h ▸ Int32.toInt_zero)
    refine ⟨_, _, ?_, ?_, division (by decide) ⟨x.le_toInt, x.toInt_lt⟩ hy⟩
    · rw [intOp, if_neg hne]
      exact .int (Int32.toInt_div x y)
    · rw [intOp, if_neg hne]
      exact .int (Int32.toInt_mod x y)
  bitAnd := .of_toInt (x := x.toBitVec) (y := y.toBitVec) (.int rfl) fun _ _ => BitVec.getLsbD_and
  bitOr := .of_toInt (x := x.toBitVec) (y := y.toBitVec) (.int rfl) fun _ _ => BitVec.getLsbD_or
  bitXor := .of_toInt (x := x.toBitVec) (y := y.toBitVec) (.int rfl) fun _ _ => BitVec.getLsbD_xor

theorem arithmetic_long (x y : Int64) : Arithmetic (longOp · x y) 64 x.toInt y.toInt where
  add := .long (Int64.toInt_add x y)
  sub := .long (Int64.toInt_sub x y)
  mul := .long (Int64.toInt_mul x y)
  div_zero := by
    intro hy
    cases Int64.toInt_inj.mp (hy.trans Int64.toInt_zero.symm)
    exact ⟨rfl, rfl⟩
  div := by
    intro hy
    have hne : y ≠ 0 := fun h => hy (h ▸ Int64.toInt_zero)
    refine ⟨_, _, ?_, ?_, division (by decide) ⟨x.le_toInt, x.toInt_lt⟩ hy⟩
    · rw [longOp, if_neg hne]
      exact .long (Int64.toInt_div x y)
    · rw [longOp, if_neg hne]
      exact .long (Int64.toInt_mod x y)
  bitAnd := .of_toInt (x := x.toBitVec) (y := y.toBitVec) (.long rfl) fun _ _ => BitVec.getLsbD_and
  bitOr := .of_toInt (x := x.toBitVec) (y := y.toBitVec) (.long rfl) fun _ _ => BitVec.getLsbD_or
  bitXor := .of_toInt (x := x.toBitVec) (y := y.toBitVec) (.long rfl) fun _ _ => BitVec.getLsbD_xor

/-! ## Mixed widths -/

/-- Whether an operator is a shift. -/
def BinaryOp.isShift : BinaryOp → Bool
  | .shl | .shr | .ushr => true
  | _ => false

theorem Arithmetic.congr {outcome outcome' : BinaryOp → Except Fault Value} {bits : Nat} {i j : Int}
    (h : Arithmetic outcome bits i j) (heq : ∀ op, op.isShift = false → outcome' op = outcome op) :
    Arithmetic outcome' bits i j where
  add := heq .add rfl ▸ h.add
  sub := heq .sub rfl ▸ h.sub
  mul := heq .mul rfl ▸ h.mul
  div_zero := heq .div rfl ▸ heq .rem rfl ▸ h.div_zero
  div := heq .div rfl ▸ heq .rem rfl ▸ h.div
  bitAnd := heq .bitAnd rfl ▸ h.bitAnd
  bitOr := heq .bitOr rfl ▸ h.bitOr
  bitXor := heq .bitXor rfl ▸ h.bitXor

theorem Shifts.congr {outcome outcome' : BinaryOp → Except Fault Value} {bits : Nat} {i j : Int}
    (h : Shifts outcome bits i j) (heq : ∀ op, op.isShift = true → outcome' op = outcome op) :
    Shifts outcome' bits i j where
  shl := heq .shl rfl ▸ h.shl
  shr := heq .shr rfl ▸ h.shr
  ushr := heq .ushr rfl ▸ h.ushr

section Mixed

variable {m n : Num} {bits bits' : Nat} {i j : Int}

theorem numberOp_of_isShift {op : BinaryOp} (hop : op.isShift = true) (m n : Num) :
    numberOp op m n = shift op m n := by
  cases op
  case shl | shr | ushr => rfl
  all_goals cases hop

/-- Two long integers, or one that is widened, are taken in 64 bits. -/
theorem numberOp_long {op : BinaryOp} (hop : op.isShift = false)
    (h : Num.promote m n = (.long m.toInt64, .long n.toInt64)) :
    numberOp op m n = longOp op m.toInt64 n.toInt64 := by
  cases op
  case shl | shr | ushr => cases hop
  all_goals simp only [numberOp, h]

/-- **Operators that are no shifts obey their laws in the wider of the two
widths.** -/
theorem arithmetic_numberOp (hm : m.IsInteger bits i) (hn : n.IsInteger bits' j) :
    Arithmetic (numberOp · m n) (max bits bits') i j := by
  have hlong := arithmetic_long m.toInt64 n.toInt64
  rw [Num.toInt_toInt64 hm.integer?, Num.toInt_toInt64 hn.integer?] at hlong
  cases hm with
  | int x =>
    cases hn with
    | int y => exact (arithmetic_int x y).congr fun op _ => by cases op <;> rfl
    | long y => exact hlong.congr fun op hop => numberOp_long hop rfl
  | long x =>
    cases hn with
    | int y => exact hlong.congr fun op hop => numberOp_long hop rfl
    | long y => exact hlong.congr fun op hop => numberOp_long hop rfl

end Mixed

/-! ## Evaluation -/

section Evaluation

variable {h : Heap} {v w : Value} {bits bits' : Nat} {i j : Int}

theorem IntegerOperand.isText (hv : IntegerOperand h v bits i) : v.isText = false := by
  cases hv with
  | plain hv => cases hv <;> rfl
  | boxed => rfl

/-- Operators on integral values are operators on their numbers. -/
theorem arithmetic_eq_numberOp {m n : Num} (hv : IntegerOperand h v bits i)
    (hm : Num.of h v = .ok m)
    (hn : Num.of h w = .ok n) (op : BinaryOp) : arithmetic h op v w = numberOp op m n := by
  have hbool : ∀ b, v ≠ .bool b := by
    rintro b rfl
    rcases hv with ⟨⟨⟩⟩
  rw [arithmetic, hm, hn]
  · rfl
  · exact fun b _ hb _ => hbool b hb

theorem arithmetic_laws (hv : IntegerOperand h v bits i) (hw : IntegerOperand h w bits' j) :
    Arithmetic (arithmetic h · v w) (max bits bits') i j ∧
      Shifts (arithmetic h · v w) bits i j := by
  obtain ⟨m, hm, hmi⟩ := hv.exists_num
  obtain ⟨n, hn, hnj⟩ := hw.exists_num
  have heq := arithmetic_eq_numberOp hv hm hn
  exact ⟨(arithmetic_numberOp hmi hnj).congr fun op _ => heq op,
    (shifts_shift hmi hnj).congr fun op hop => (heq op).trans (numberOp_of_isShift hop m n)⟩

/-- An operator on values that are no texts only looks at the heap. -/
theorem binaryOp_of_isText (calls : Calls) (op : BinaryOp) (hv : v.isText = false)
    (hw : w.isText = false)
    (s : Store) : binaryOp calls op v w s = ((arithmetic s.heap op v w).mapError .fault, s) := by
  rw [binaryOp, hv, hw, Bool.or_self, Bool.and_false, if_neg Bool.false_ne_true]
  change Action.ofExcept (arithmetic s.heap op v w) s = _
  cases arithmetic s.heap op v w <;> rfl

theorem evalExpr_binary {u : CompilationUnit} {calls : Calls} {l r : Expr} {c c' c'' : Config}
    {op : BinaryOp}
    (hl : evalExpr u calls l c = (.ok v, c')) (hr : evalExpr u calls r c' = (.ok w, c''))
    (hv : v.isText = false) (hw : w.isText = false) :
    evalExpr u calls (.binary op l r) c =
      ((arithmetic c''.store.heap op v w).mapError .fault, c'') := by
  rw [evalExpr, bind_apply, hl]
  dsimp only
  rw [bind_apply, hr]
  dsimp only
  rw [Action.inFrame, binaryOp_of_isText calls op hv hw]

end Evaluation

/-- **Integral operators are two's-complement arithmetic.** Evaluating an
operator on two operands that are integers, characters, long integers or boxes
of these leaves everything as the operands left it. The outcomes obey the laws
of arithmetic in the wider of the two widths, and those of shifts in the width
of the left operand. -/
theorem integral_operators {u : CompilationUnit} {calls : Calls} {l r : Expr}
    {c c' c'' : Config} {v w : Value}
    {bits bits' : Nat} {i j : Int} (hl : evalExpr u calls l c = (.ok v, c'))
    (hr : evalExpr u calls r c' = (.ok w, c'')) (hv : IntegerOperand c''.store.heap v bits i)
    (hw : IntegerOperand c''.store.heap w bits' j) :
    ∃ outcome : BinaryOp → Except Fault Value,
      (∀ op, evalExpr u calls (.binary op l r) c = ((outcome op).mapError .fault, c'')) ∧
      Arithmetic outcome (max bits bits') i j ∧ Shifts outcome bits i j :=
  ⟨(arithmetic c''.store.heap · v w), fun _ => evalExpr_binary hl hr hv.isText hw.isText,
    arithmetic_laws hv hw⟩

namespace Least

/-- A unit without types. -/
def unit : CompilationUnit := ⟨"least", none, []⟩

/-- No calls are made. -/
def calls : Calls := callsWithin unit 0

/-- A local refers to a box with the least long integer. -/
def start : Config :=
  ⟨⟨none, [(0, .ref 0)]⟩, { Store.empty with heap := #[.boxed .long (.long Int64.minValue)] }⟩

end Least

/-- The least long integer, out of a box, with -1: the quotient wraps around,
and the shift goes 63 places. -/
theorem integral_operators_least :
    evalExpr Least.unit Least.calls (.localGet 0) Least.start = (.ok (.ref 0), Least.start) ∧
    IntegerOperand Least.start.store.heap (.ref 0) 64 (-2 ^ 63) ∧
    IntegerOperand Least.start.store.heap (.int (-1)) 32 (-1) ∧
    ∃ outcome : BinaryOp → Except Fault Value,
      (∀ op, evalExpr Least.unit Least.calls (.binary op (.localGet 0) (.int (-1))) Least.start =
        ((outcome op).mapError .fault, Least.start)) ∧
      Arithmetic outcome 64 (-2 ^ 63) (-1) ∧ Shifts outcome 64 (-2 ^ 63) (-1) := by
  have hleft : IntegerOperand Least.start.store.heap (.ref 0) 64 (-2 ^ 63) :=
    .boxed rfl (.long Int64.minValue)
  have hright : IntegerOperand Least.start.store.heap (.int (-1)) 32 (-1) := .plain (.int (-1))
  exact ⟨rfl, hleft, hright, integral_operators rfl rfl hleft hright⟩

end Closures
