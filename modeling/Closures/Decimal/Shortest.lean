/-!
# Shortest decimals

A finite double is `m · 2^q` for a natural number `m` and an integer `q`. The reals that round to it
form an interval around it, ends included exactly when `m` is even. `Binary.shortest` finds the
decimal in that interval with the fewest digits and, among those, the nearest to the double.

All of it is exact arithmetic on natural numbers. For each number of digits the only candidates are
the two neighbours of the double on that decimal grid, because a grid point in the interval that is
no neighbour has a neighbour between it and the double.
-/

set_option autoImplicit false

namespace Closures

/-- The number `digits · 10^exponent`. -/
structure Decimal where
  digits : Nat
  exponent : Int
deriving DecidableEq, Inhabited, Repr

/-- Which of two decimals that are equally near to a double is taken. -/
inductive Decimal.Tie where
  /-- The larger one. -/
  | up
  /-- The one whose last digit is even. -/
  | even
deriving DecidableEq, Inhabited, Repr

/-- The magnitude `mantissa · 2^exponent` of a finite double. -/
structure Binary where
  mantissa : Nat
  exponent : Int
deriving DecidableEq, Inhabited, Repr

namespace Binary

/-- The magnitude of a finite double, from its bits. -/
def ofFloat (x : Float) : Binary :=
  let bits := x.toBits.toNat
  let fraction := bits % Nat.pow 2 52
  let scale : Nat := bits / Nat.pow 2 52 % Nat.pow 2 11
  if scale = 0 then ⟨fraction, -1074⟩ else ⟨fraction + Nat.pow 2 52, (scale : Int) - 1075⟩

/-- The rational `value · 2^twos · 10^tens` as numerator and denominator. -/
def ratio (value : Nat) (twos tens : Int) : Nat × Nat :=
  (value * Nat.pow 2 twos.toNat * Nat.pow 10 tens.toNat,
    Nat.pow 2 (-twos).toNat * Nat.pow 10 (-tens).toNat)

/-- Whether one fraction is below another, for positive denominators. -/
def ratioLt (a b : Nat × Nat) : Bool := a.1 * b.2 < b.1 * a.2

/-- Below every positive double when read as a power of ten. -/
def tiny : Nat := 340

/-- The number `k` for which the value lies in `[10^(k-1), 10^k)`. -/
def magnitude (x : Binary) : Int :=
  let (num, den) := ratio x.mantissa x.exponent tiny
  ((num / den).repr.length : Int) - tiny

/-- The lower end of the interval that rounds to the value, in units of `2^(exponent - 2)`. Below a
power of two the neighbouring double is nearer. -/
def low (x : Binary) : Nat :=
  if x.mantissa = Nat.pow 2 52 ∧ -1074 < x.exponent then 4 * x.mantissa - 1 else 4 * x.mantissa - 2

/-- The upper end of that interval, in the same units. -/
def high (x : Binary) : Nat := 4 * x.mantissa + 2

/-- Whether `digits · 10^exponent` rounds to the value. -/
def roundsTo (x : Binary) (d : Decimal) : Bool :=
  let here := ratio d.digits 0 d.exponent
  let low := ratio x.low (x.exponent - 2) 0
  let high := ratio x.high (x.exponent - 2) 0
  if x.mantissa % 2 = 0 then !ratioLt here low && !ratioLt high here
  else ratioLt low here && ratioLt here high

/-- The decimal on the grid of `10^exponent` that rounds to the value, if there is one: of two the
nearer, and of two equally near what the tie rule says. -/
def onGrid? (tie : Decimal.Tie) (x : Binary) (exponent : Int) : Option Decimal :=
  let (num, den) := ratio x.mantissa x.exponent (-exponent)
  let below : Decimal := ⟨num / den, exponent⟩
  let above : Decimal := ⟨num / den + 1, exponent⟩
  let twice := 2 * (num % den)
  match x.roundsTo below, x.roundsTo above with
  | true, true =>
    if twice < den then some below
    else if den < twice then some above
    else
      match tie with
      | .up => some above
      | .even => if below.digits % 2 = 0 then some below else some above
  | true, false => some below
  | false, true => some above
  | false, false => none

/-- Move trailing zeros of the digits into the exponent, at most `steps` of them. -/
def trimZeros : Nat → Decimal → Decimal
  | 0, d => d
  | steps + 1, d =>
    if d.digits ≠ 0 ∧ d.digits % 10 = 0 then trimZeros steps ⟨d.digits / 10, d.exponent + 1⟩ else d

/-- Enough digits to tell any two doubles apart. -/
def maxDigits : Nat := 17

/-- The decimal with the fewest digits that reads back as the value. -/
def shortest (tie : Decimal.Tie) (x : Binary) : Decimal :=
  if x.mantissa = 0 then ⟨0, 0⟩
  else
    let k := x.magnitude
    match (List.range maxDigits).findSome? fun (n : Nat) => x.onGrid? tie (k - (n + 1)) with
    | some d => trimZeros maxDigits d
    | none => ⟨x.mantissa, 0⟩

end Binary

namespace Decimal

/-- The digits as text. -/
def digitText (d : Decimal) : String := d.digits.repr

/-- `n` zeros. -/
def zeros (n : Nat) : String := String.ofList (List.replicate n '0')

/-- The position of the decimal point, counted from the first digit. -/
def point (d : Decimal) : Int := d.digitText.length + d.exponent

/-- The number without an exponent; an integer has no point. -/
def positional (d : Decimal) : String :=
  if 0 ≤ d.exponent then d.digitText ++ zeros d.exponent.toNat
  else if d.point ≤ 0 then "0." ++ zeros (-d.point).toNat ++ d.digitText
  else
    let digits := d.digitText.toList
    String.ofList (digits.take d.point.toNat) ++ "." ++ String.ofList (digits.drop d.point.toNat)

/-- The digits with a point after the first; a single digit has no point. -/
def pointed (d : Decimal) : String :=
  match d.digitText.toList with
  | [] => ""
  | [c] => c.toString
  | c :: rest => String.ofList (c :: '.' :: rest)

end Decimal

end Closures
