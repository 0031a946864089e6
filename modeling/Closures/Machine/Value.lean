import Closures.Decimal.Text
import Closures.Ty

/-!
# Values and objects

Primitives are held in the value itself. Byte and short values are `int`s and float values are
`double`s in their range. Instances, boxes and arrays are objects on the heap; a reference is the
place of its object there. The heap only grows, so a place never changes its object's identity.
-/

set_option autoImplicit false

namespace Closures

/-! ## Tables -/

/-- A finite map as a list of pairs. The first pair of a key counts. -/
abbrev Table (κ α : Type) := List (κ × α)

namespace Table

variable {κ α : Type} [BEq κ]

/-- What a key maps to. -/
def get? (t : Table κ α) (k : κ) : Option α := List.lookup k t

/-- Replace what a key maps to where it stands, or add the key at the end. -/
def put (k : κ) (a : α) : Table κ α → Table κ α
  | [] => [(k, a)]
  | (k', b) :: t => if k == k' then (k, a) :: t else (k', b) :: put k a t

end Table

/-! ## Values -/

/-- The place of an object on the heap. -/
abbrev Ref := Nat

/-- A value. -/
inductive Value where
  /-- The result of a call that yields nothing. -/
  | void
  | null
  | bool (value : Bool)
  | char (value : Char)
  | int (value : Int32)
  | long (value : Int64)
  | double (value : Float)
  | str (value : String)
  | ref (object : Ref)
deriving Inhabited

/-- An object. -/
inductive Obj where
  /-- An instance of a declared type. `serial` tells the order of creation, `outer` is the enclosing
  instance. -/
  | inst (type : ClassId) (serial : UInt32) (fields : Table FieldId Value) (outer : Option Ref)
  | boxed (kind : Primitive) (value : Value)
  | array (element : Ty) (values : Array Value)
deriving Inhabited

/-- The objects, in order of creation. -/
abbrev Heap := Array Obj

namespace Value

/-- What a field, array element or local of a type holds before it is written. -/
def defaultFor (t : Ty) : Value :=
  match t with
  | .primitive .boolean => .bool false
  | .primitive .char => .char (Char.ofNat 0)
  | .primitive .long => .long 0
  | .primitive .float | .primitive .double => .double 0
  | .primitive _ => .int 0
  | _ => .null

/-- Whether it is the null reference. -/
def isNull : Value → Bool
  | .null => true
  | _ => false

/-- The kind of a value in words. -/
def kindName (h : Heap) : Value → String
  | .void => "void"
  | .null => "null"
  | .bool _ => "boolean"
  | .char _ => "char"
  | .int _ => "int"
  | .long _ => "long"
  | .double _ => "double"
  | .str _ => "string"
  | .ref r =>
    match h[r]? with
    | some (.boxed _ _) => "box"
    | some (.array _ _) => "array"
    | some (.inst _ _ _ _) | none => "object"

/-! ## Text -/

/-- An instance by type number and serial. -/
def instanceText (type : ClassId) (serial : UInt32) : String := s!"#{type}@{serial}"

/-- The text of a value, if it follows no more than `steps` references, one inside the other. -/
def textWithin (h : Heap) : Nat → Value → Option String
  | _, .void => some ""
  | _, .null => some "null"
  | _, .bool b => some (if b then "true" else "false")
  | _, .char c => some c.toString
  | _, .int v => some (toString v.toInt)
  | _, .long v => some (toString v.toInt)
  | _, .double v => some (doubleText v)
  | _, .str s => some s
  | 0, .ref _ => none
  | steps + 1, .ref r =>
    match h[r]? with
    | some (.inst type serial _ _) => some (instanceText type serial)
    | some (.boxed _ v) => textWithin h steps v
    | some (.array _ vs) =>
      (vs.toList.mapM (textWithin h steps)).map fun texts => "[" ++ ", ".intercalate texts ++ "]"
    | none => some ""

/-- The text of a value. Instances are shown by number. An array that is inside itself has none. -/
def text (h : Heap) (v : Value) : String := (textWithin h (h.size + 1) v).getD ""

/-- The text of a value that tells boxes, arrays and instances apart, following at most `steps`
references. -/
def debugWithin (h : Heap) : Nat → Value → String
  | steps + 1, .ref r =>
    match h[r]? with
    | some (.inst type serial _ _) => "Instance(" ++ instanceText type serial ++ ")"
    | some (.boxed k v) => k.boxedName ++ "(" ++ debugWithin h steps v ++ ")"
    | some (.array _ vs) => s!"Array(len {vs.size})"
    | none => ""
  | _, v => text h v

/-- The text of a value that tells boxes, arrays and instances apart. -/
def debug (h : Heap) (v : Value) : String := debugWithin h (h.size + 1) v

end Value

end Closures
