import Closures.Decimal.Binary64

/-!
# Reading decimals

The number that a decimal literal means, rounded once to the nearest double, a tie to the even one.
-/

set_option autoImplicit false

namespace Closures

namespace Decimal

/-- The number that digits mean. -/
def digits? (cs : List Char) : Option Nat :=
  if cs.isEmpty || !cs.all Char.isDigit then none
  else some (cs.foldl (fun n c => n * 10 + (c.toNat - '0'.toNat)) 0)

/-- Take away a sign, and say whether it is a minus. -/
def signed : List Char → Bool × List Char
  | '-' :: cs => (true, cs)
  | '+' :: cs => (false, cs)
  | cs => (false, cs)

/-- The number that digits after a sign mean. -/
def int? (cs : List Char) : Option Int :=
  let (negative, cs) := signed cs
  (digits? cs).map fun n => if negative then -(n : Int) else n

/-- The double nearest to `n · 10^exponent`. -/
def nearest (n : Nat) (exponent : Int) : Float :=
  if exponent < 0 then Float.ofScientific n true exponent.natAbs
  else Float.ofScientific n false exponent.toNat

/-- Whether `n · 10^exponent` is so great that the nearest double is infinite:
at least halfway from the greatest double to `2^1024`. -/
def overflows (n : Nat) (exponent : Int) : Bool :=
  let bound : Nat := Nat.pow 2 1024 - Nat.pow 2 970
  if n = 0 then false
  else if 309 ≤ exponent then true
  else if 0 ≤ exponent then bound ≤ n * Nat.pow 10 exponent.toNat
  -- below one, however small
  else if n.log2 < exponent.natAbs then false
  else bound * Nat.pow 10 exponent.natAbs ≤ n

/-- The double nearest to a literal with digits, a point and an exponent. -/
def float? (literal : List Char) : Option Float := do
  let (negative, cs) := signed literal
  let isMark (c : Char) : Bool := c = 'e' || c = 'E'
  let mantissa := cs.takeWhile fun c => !isMark c
  let whole := mantissa.takeWhile (· != '.')
  let fraction := (mantissa.drop whole.length).drop 1
  let n ← digits? (whole ++ fraction)
  let exponent ←
    match cs.drop mantissa.length with
    | [] => some 0
    | _ :: digits => int? digits
  let x := nearest n (exponent - fraction.length)
  return if negative then -x else x

end Decimal

namespace Binary64

/-- The double that a text means: a literal, or the word for one that is no number or not finite. -/
def ofText? (text : String) : Option Float :=
  if text = "NaN" || text = "nan" then some nan
  else if text = "inf" then some (1.0 / 0.0)
  else if text = "-inf" then some (-1.0 / 0.0)
  else Decimal.float? text.toList

end Binary64

end Closures
