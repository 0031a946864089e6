import Closures.Decimal.Binary64
import Closures.Machine.Fault

/-!
# Numbers

The numeric view of values, promotion of two operands to their common kind, conversion between
primitives, and the operators.

* Integral arithmetic is that of signed 32-bit and 64-bit words.
* A shift takes the width of its left operand and only the low bits of its right one.
* A double becomes an integer by cutting off the fraction and going to the nearest end of the range;
  what is no number becomes zero.
-/

set_option autoImplicit false

namespace Closures

/-- A number in an operation. -/
inductive Num where
  | int (value : Int32)
  | long (value : Int64)
  | double (value : Float)
deriving Inhabited

/-- The content of a box, or the value itself. -/
def Value.unboxed (h : Heap) : Value → Except Fault Value
  | .null => .error .unboxingNull
  | .ref r =>
    match h[r]? with
    | some (.boxed _ v) => .ok v
    | _ => .error .notABox
  | v => .ok v

namespace Num

/-- A character as a number. -/
def ofChar (c : Char) : Num := .int c.val.toInt32

/-- The number that a value or the content of a box is. -/
def of (h : Heap) (v : Value) : Except Fault Num := do
  match ← v.unboxed h with
  | .int v => return .int v
  | .char c => return ofChar c
  | .long v => return .long v
  | .double v => return .double v
  | w => throw (.invalid (.expectedNumber (w.kindName h)))

/-- The number as a 32-bit integer. -/
def toInt32 : Num → Int32
  | int v => v
  | long v => v.toInt32
  | double v => v.toInt32

/-- The number as a 64-bit integer. -/
def toInt64 : Num → Int64
  | int v => v.toInt64
  | long v => v
  | double v => v.toInt64

/-- The number as a double. -/
def toFloat : Num → Float
  | int v => v.toFloat
  | long v => v.toFloat
  | double v => v

/-- The number as a value. -/
def toValue : Num → Value
  | int v => .int v
  | long v => .long v
  | double v => .double v

/-- Two numbers in their common kind. -/
def promote (a b : Num) : Num × Num :=
  match a, b with
  | int x, int y => (int x, int y)
  | double _, _ | _, double _ => (double a.toFloat, double b.toFloat)
  | _, _ => (long a.toInt64, long b.toInt64)

/-- The order of two doubles, if they have one. -/
def compareFloat (x y : Float) : Option Ordering :=
  if x < y then some .lt else if x == y then some .eq else if y < x then some .gt else none

/-- The order of two numbers, if they have one. -/
def compare (a b : Num) : Option Ordering :=
  match promote a b with
  | (int x, int y) => some (if x < y then .lt else if x = y then .eq else .gt)
  | (long x, long y) => some (if x < y then .lt else if x = y then .eq else .gt)
  | (x, y) => compareFloat x.toFloat y.toFloat

end Num

namespace Value

/-- A value as a truth value. -/
def asBool (h : Heap) (v : Value) : Except Fault Bool := do
  match ← v.unboxed h with
  | .bool b => return b
  | w => throw (.invalid (.expectedBoolean (w.kindName h)))

/-- A value as a 32-bit integer. -/
def asInt (h : Heap) (v : Value) : Except Fault Int32 := return (← Num.of h v).toInt32

/-- The same object, or the same value of anything else. -/
def same (h : Heap) (v w : Value) : Bool :=
  match v, w with
  | .ref a, .ref b => a == b
  | .null, .null | .void, .void => true
  | .str a, .str b => a == b
  | .bool a, .bool b => a == b
  | .ref _, _ | .null, _ | .str _, _ | .bool _, _ => false
  | _, .ref _ | _, .null | _, .str _ | _, .bool _ => false
  | _, _ =>
    match Num.of h v, Num.of h w with
    | .ok a, .ok b => a.compare b == some .eq
    | _, _ => false

/-- The character with a code of 16 bits; half a surrogate pair is none and becomes the replacement
character. -/
def charOfCode (code : UInt16) : Char :=
  if code.toNat.isValidChar then Char.ofNat code.toNat else Char.ofNat 0xFFFD

/-- A number as a primitive. A truth value is none and stays a double. -/
def ofNum (n : Num) : Primitive → Value
  | .byte => .int n.toInt64.toInt8.toInt32
  | .short => .int n.toInt64.toInt16.toInt32
  | .char => .char (charOfCode n.toInt64.toUInt64.toUInt16)
  | .int => .int n.toInt32
  | .long => .long n.toInt64
  | .float => .double (Binary64.toSingle n.toFloat)
  | .double | .boolean => .double n.toFloat

/-- Convert a value, or the content of a box, to a primitive. -/
def convert (h : Heap) (v : Value) (target : Primitive) : Except Fault Value :=
  if target = .boolean then return .bool (← v.asBool h)
  else return ofNum (← Num.of h v) target

end Value

/-! ## Operators -/

/-- A shift: to the left, to the right with the sign, to the right with zeros. -/
def shift (op : BinaryOp) (a b : Num) : Except Fault Value :=
  match a with
  | .int v =>
    let s := (b.toInt64 &&& 31).toInt32
    match op with
    | .shl => .ok (.int (v <<< s))
    | .shr => .ok (.int (v >>> s))
    | _ => .ok (.int (v.toUInt32 >>> s.toUInt32).toInt32)
  | .long v =>
    let s := b.toInt64 &&& 63
    match op with
    | .shl => .ok (.long (v <<< s))
    | .shr => .ok (.long (v >>> s))
    | _ => .ok (.long (v.toUInt64 >>> s.toUInt64).toInt64)
  | .double _ => .error (.invalid .shiftOfDouble)

/-- An operator on 32-bit integers. -/
def intOp (op : BinaryOp) (x y : Int32) : Except Fault Value :=
  match op with
  | .add => .ok (.int (x + y))
  | .sub => .ok (.int (x - y))
  | .mul => .ok (.int (x * y))
  | .div => if y = 0 then .error .divisionByZero else .ok (.int (x / y))
  | .rem => if y = 0 then .error .divisionByZero else .ok (.int (x % y))
  | .bitAnd => .ok (.int (x &&& y))
  | .bitOr => .ok (.int (x ||| y))
  | .bitXor => .ok (.int (x ^^^ y))
  | .shl | .shr | .ushr => shift op (.int x) (.int y)

/-- An operator on 64-bit integers. -/
def longOp (op : BinaryOp) (x y : Int64) : Except Fault Value :=
  match op with
  | .add => .ok (.long (x + y))
  | .sub => .ok (.long (x - y))
  | .mul => .ok (.long (x * y))
  | .div => if y = 0 then .error .divisionByZero else .ok (.long (x / y))
  | .rem => if y = 0 then .error .divisionByZero else .ok (.long (x % y))
  | .bitAnd => .ok (.long (x &&& y))
  | .bitOr => .ok (.long (x ||| y))
  | .bitXor => .ok (.long (x ^^^ y))
  | .shl | .shr | .ushr => shift op (.long x) (.long y)

/-- An operator on doubles. -/
def doubleOp (op : BinaryOp) (x y : Float) : Except Fault Value :=
  match op with
  | .add => .ok (.double (x + y))
  | .sub => .ok (.double (x - y))
  | .mul => .ok (.double (x * y))
  | .div => .ok (.double (x / y))
  | .rem => .ok (.double (Binary64.rem x y))
  | _ => .error (.invalid (.operatorOnDoubles op))

/-- An operator on truth values. -/
def boolOp (op : BinaryOp) (x y : Bool) : Except Fault Value :=
  match op with
  | .bitAnd => .ok (.bool (x && y))
  | .bitOr => .ok (.bool (x || y))
  | .bitXor => .ok (.bool (x != y))
  | _ => .error (.invalid (.operatorOnBooleans op))

/-- An operator on numbers. -/
def numberOp (op : BinaryOp) (a b : Num) : Except Fault Value :=
  match op with
  | .shl | .shr | .ushr => shift op a b
  | _ =>
    match Num.promote a b with
    | (.int x, .int y) => intOp op x y
    | (.long x, .long y) => longOp op x y
    | (x, y) => doubleOp op x.toFloat y.toFloat

/-- A binary operator on values that are not joined as texts. -/
def arithmetic (h : Heap) (op : BinaryOp) (v w : Value) : Except Fault Value :=
  match v, w with
  | .bool x, .bool y => boolOp op x y
  | _, _ => do numberOp op (← Num.of h v) (← Num.of h w)

/-- A unary operator. -/
def unaryOp (h : Heap) (op : UnaryOp) (v : Value) : Except Fault Value := do
  match op with
  | .not => return .bool (!(← v.asBool h))
  | .neg =>
    match ← Num.of h v with
    | .int x => return .int (-x)
    | .long x => return .long (-x)
    | .double x => return .double (-x)
  | .bitNot =>
    match ← Num.of h v with
    | .int x => return .int (~~~x)
    | .long x => return .long (~~~x)
    | .double _ => throw (.invalid .complementOfDouble)

/-- Values that are compared by identity or as texts. -/
def Value.isReference : Value → Bool
  | .ref _ | .null | .str _ => true
  | _ => false

/-- Whether two values are equal: references and truth values by sameness, others as numbers. -/
def equal (h : Heap) (v w : Value) : Except Fault Bool :=
  match v, w with
  | .bool _, .bool _ => .ok (v.same h w)
  | _, _ =>
    if v.isReference && w.isReference then .ok (v.same h w)
    else do return (← Num.of h v).compare (← Num.of h w) == some .eq

/-- A comparison. What has no order is neither less nor greater. -/
def compareOp (h : Heap) (op : CompareOp) (v w : Value) : Except Fault Bool := do
  match op with
  | .eq => equal h v w
  | .ne => return !(← equal h v w)
  | .lt => return (← Num.of h v).compare (← Num.of h w) == some .lt
  | .gt => return (← Num.of h v).compare (← Num.of h w) == some .gt
  | .le =>
    match (← Num.of h v).compare (← Num.of h w) with
    | some o => return o != .gt
    | none => return false
  | .ge =>
    match (← Num.of h v).compare (← Num.of h w) with
    | some o => return o != .lt
    | none => return false

end Closures
