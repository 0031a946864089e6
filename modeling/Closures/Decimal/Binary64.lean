import Closures.Decimal.Shortest

/-!
# Arithmetic on doubles

What the arithmetic of the tree needs beyond the operations of `Float`: whole
powers by squaring, the remainder that goes with division towards zero, and
rounding to single precision.
-/

set_option autoImplicit false

namespace Closures.Binary64

/-- Whether the sign bit is set; also for negative zero. -/
def isNegative (x : Float) : Bool := x.toBits >>> 63 == 1

/-- Whether the value is neither infinite nor undefined. -/
def isFinite (x : Float) : Bool := !x.isNaN && !x.isInf

/-- Round towards zero. -/
def truncate (x : Float) : Float := if x < 0 then x.ceil else x.floor

/-- Whether the value equals a whole number. -/
def isWhole (x : Float) : Bool := x == truncate x

/-- `acc · base^n`, squaring the base for each binary digit of `n`, with a rounding at every
product. -/
def powerBy (acc base : Float) (n : Nat) : Float :=
  if _h : n = 0 then acc
  else powerBy (if n % 2 = 1 then acc * base else acc) (base * base) (n / 2)
termination_by n

/-- A power of ten as a double. -/
def tenTo (n : Nat) : Float := powerBy 1 10 n

/-- The undefined value. -/
def nan : Float := 0 / 0

/-- A magnitude as a double; exact when the mantissa has at most 53 binary digits and the result is
a double. -/
def ofBinary (x : Binary) : Float := (Float.ofNat x.mantissa).scaleB x.exponent

/-- The remainder of magnitudes. -/
def remMagnitude (x y : Binary) : Binary :=
  let e := min x.exponent y.exponent
  let aligned (z : Binary) : Nat := z.mantissa * Nat.pow 2 (z.exponent - e).toNat
  ⟨aligned x % aligned y, e⟩

/-- The remainder of division rounded towards zero: exact, and with the sign of the dividend. -/
def rem (x y : Float) : Float :=
  if x.isNaN || y.isNaN || x.isInf || y == 0 then nan
  else if y.isInf then x
  else
    let r := ofBinary (remMagnitude (.ofFloat x) (.ofFloat y))
    if isNegative x then -r else r

/-- The nearest single-precision value. -/
def toSingle (x : Float) : Float := x.toFloat32.toFloat

end Closures.Binary64
