import Closures.Decimal.Binary64

/-!
# The text of a double

`doubleText` writes whole numbers below ten million with one decimal, other
numbers below it by their shortest decimal, and larger ones as mantissa, `E` and
exponent. The mantissa is a quotient of doubles, so its rounding shows.
-/

set_option autoImplicit false

namespace Closures

namespace Binary64

/-- The sign of a double as text. -/
def signText (x : Float) : String := if isNegative x then "-" else ""

/-- The shortest decimal of the magnitude of a finite double. -/
def decimal (tie : Decimal.Tie) (x : Float) : Decimal := (Binary.ofFloat x).shortest tie

/-- The shortest decimal without an exponent; a whole number has no point. -/
def positionalText (x : Float) : String := signText x ++ (decimal .up x).positional

/-- The exact value of a finite whole double, with one decimal. -/
def wholeText (x : Float) : String :=
  let (num, den) := Binary.ratio (Binary.ofFloat x).mantissa (Binary.ofFloat x).exponent 0
  signText x ++ (num / den).repr ++ ".0"

/-- Whole values keep one decimal, others are shortest. -/
def plainText (x : Float) : String := if isWhole x then wholeText x else positionalText x

/-- From here on the exponent is written. -/
def scientificFrom : Float := 1e7

end Binary64

open Binary64 in
/-- The text of a double: `1.0`, `0.25`, `1.0E10`. -/
def doubleText (x : Float) : String :=
  if x.isNaN then "NaN"
  else if x.isInf then signText x ++ "Infinity"
  else if x.abs < scientificFrom then plainText x
  else
    let exponent := x.abs.log10.floor.toUInt64.toNat
    plainText (x / tenTo exponent) ++ "E" ++ exponent.repr

end Closures
