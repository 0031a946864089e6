import Closures.Json.Document

/-!
# Numbers as written

A number is read into its parts, and its value is computed from those in two
roundings at most: the leading digits that fit 64 bits are taken as a whole
number, which is then multiplied or divided by a power of ten. Further digits
only count towards the exponent.
-/

set_option autoImplicit false

namespace Closures.Numeral

/-- The parts of a number: its sign and digits, in order. -/
structure Parts where
  negative : Bool
  whole : List Nat
  fraction : List Nat
  /-- The sign and the digits of the exponent, if it has one. -/
  exponent : Option (Bool × List Nat)
deriving Inhabited, Repr

/-- Append digits to a number as long as it fits 64 bits: the result and the digits left over. -/
def absorb (n : Nat) : List Nat → Nat × List Nat
  | [] => (n, [])
  | d :: ds => if n * 10 + d < UInt64.size then absorb (n * 10 + d) ds else (n, d :: ds)

/-- Divide by `10^308` until the exponent can be met by one more division. -/
def shrink : Nat → Float → Nat → Float
  | 0, x, _ => x
  | steps + 1, x, e =>
    if e ≤ 308 then x / Float.ofScientific 1 false e
    else if x == 0 then x
    else shrink steps (x / Float.ofScientific 1 false 308) (e - 308)

/-- The double `n · 10^exponent`; after three divisions nothing is left of any `n`. -/
def scaled (negative : Bool) (n : Nat) (exponent : Int) : Numeral :=
  let x := n.toUInt64.toFloat
  let sign (y : Float) : Float := if negative then -y else y
  if exponent < 0 then .float (sign (shrink 4 x exponent.natAbs))
  else if exponent ≤ 308 then
    let y := x * Float.ofScientific 1 false exponent.toNat
    if y.isInf then .huge else .float (sign y)
  else if n = 0 then .float (sign x)
  else .huge

/-- A whole number, if 64 bits hold it. -/
def wholeNumber (negative : Bool) (n : Nat) : Numeral :=
  if !negative then .int n
  else if 0 < n ∧ n ≤ Nat.pow 2 63 then .int (-n)
  else .float (-n.toUInt64.toFloat)

/-- The number that the parts make up. -/
def ofParts (p : Parts) : Numeral :=
  let (n, rest) := absorb 0 p.whole
  match p.fraction, p.exponent, rest with
  | [], none, [] => wholeNumber p.negative n
  | fraction, exponent, rest =>
    let (m, left) := absorb n fraction
    let shift : Int := (rest.length : Int) - ((fraction.length - left.length : Nat) : Int)
    match exponent with
    | none => scaled p.negative m shift
    | some (down, digits) =>
      let e : Nat := digits.foldl (fun n d => n * 10 + d) 0
      if e < Nat.pow 2 31 then scaled p.negative m (if down then shift - (e : Int) else shift + (e : Int))
      else if m ≠ 0 ∧ !down then .huge
      else .float (if p.negative then -0.0 else 0.0)

end Closures.Numeral
