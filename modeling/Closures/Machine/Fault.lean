import Closures.Hierarchy.Lookup
import Closures.Machine.Value
import Closures.Tree.Encode

/-!
# Faults

`Fault` lists what can go wrong in an evaluation, with what it is about. Its
kind and its wording are functions of it.
-/

set_option autoImplicit false

namespace Closures

/-- What is wrong with a program that no well-typed one shows. -/
inductive Invalid where
  | expectedBoolean (found : String)
  | expectedNumber (found : String)
  | danglingMethod
  | wrongArity (name : String) (expected given : Nat)
  | notInstantiable (name : String)
  | implicitConstructorArgs
  | unknownType (id : ClassId)
  | notAnObject (what found : String)
  | noSuchField (id : FieldId)
  | fieldOfBuiltIn
  | noEnclosing (owner : ClassId)
  | thisInStaticContext
  | unassignedLocal (id : LocalId)
  | forEachOverNonArray
  | indexingNonArray
  | lengthOfNonArray
  | complementOfDouble
  | shiftOfDouble
  | operatorOnBooleans (op : BinaryOp)
  | operatorOnDoubles (op : BinaryOp)
deriving DecidableEq, Repr

/-- A fault. -/
inductive Fault where
  | unboxingNull
  /-- Something was asked of `null`. -/
  | onNull (what : String)
  | throwNull
  | nullReceiver
  | notABox
  | badCast (found : String) (target : Ty)
  | divisionByZero
  | indexOutOfBounds (index : Int32) (length : Nat)
  | negativeArraySize (length : Int32)
  /-- A value was thrown. -/
  | thrown (value : Value)
  | noSuchMethod (type name : String)
  | unloweredClosure
  /-- Calls are nested too deeply. -/
  | stackOverflow
  | invalid (why : Invalid)

/-- The kinds of fault. -/
inductive Fault.Kind where
  | nullPointer | classCast | arithmetic | indexOutOfBounds | negativeArraySize | thrown
  | noSuchMethod | unloweredClosure | stackOverflow | invalid
deriving DecidableEq, Inhabited, Repr

/-- Calls may be nested this deep. -/
def maxCallDepth : Nat := 256

namespace Invalid

/-- What is wrong, in words. -/
def message (u : CompilationUnit) : Invalid → String
  | expectedBoolean found => s!"expected a boolean, found {found}"
  | expectedNumber found => s!"expected a number, found {found}"
  | danglingMethod => "dangling method id"
  | wrongArity name expected given => s!"`{name}` takes {expected} argument(s), {given} given"
  | notInstantiable name => s!"cannot instantiate {name}"
  | implicitConstructorArgs => "implicit constructor takes no arguments"
  | unknownType id => s!"unknown type #{id}"
  | notAnObject what found => s!"`{what}` on a {found}"
  | noSuchField id => s!"object has no field {id.owner}.{id.index}"
  | fieldOfBuiltIn => "field access on a built-in value"
  | noEnclosing owner => s!"no enclosing instance of {u.className owner}"
  | thisInStaticContext => "`this` in a static context"
  | unassignedLocal id => s!"local #{id} read before assignment"
  | forEachOverNonArray => "for-each over a non-array"
  | indexingNonArray => "indexing a non-array"
  | lengthOfNonArray => "length of a non-array"
  | complementOfDouble => "bitwise complement of a double"
  | shiftOfDouble => "shift of a double"
  | operatorOnBooleans op => s!"{op.tag} on booleans"
  | operatorOnDoubles op => s!"{op.tag} on doubles"

end Invalid

namespace Fault

/-- The kind of a fault. -/
def kind : Fault → Kind
  | unboxingNull | onNull _ | throwNull | nullReceiver => .nullPointer
  | notABox | badCast _ _ => .classCast
  | divisionByZero => .arithmetic
  | indexOutOfBounds _ _ => .indexOutOfBounds
  | negativeArraySize _ => .negativeArraySize
  | thrown _ => .thrown
  | noSuchMethod _ _ => .noSuchMethod
  | unloweredClosure => .unloweredClosure
  | stackOverflow => .stackOverflow
  | invalid _ => .invalid

/-- A fault in words. -/
def message (u : CompilationUnit) (h : Heap) : Fault → String
  | unboxingNull => "null pointer: unboxing null"
  | onNull what => s!"null pointer: `{what}` on null"
  | throwNull => "null pointer: throw null"
  | nullReceiver => "null pointer: receiver is null"
  | notABox => "class cast: object is not a boxed primitive"
  | badCast found target => s!"class cast: {found} cannot be cast to {u.typeName target}"
  | divisionByZero => "arithmetic: / by zero"
  | indexOutOfBounds index length =>
    s!"array index {index.toInt} out of bounds for length {length}"
  | negativeArraySize length => s!"negative array size {length.toInt}"
  | thrown v => s!"uncaught exception {v.text h}"
  | noSuchMethod type name => s!"no method `{name}` on {type}"
  | unloweredClosure => "lambda or method reference reached evaluation without being lowered"
  | stackOverflow => s!"call depth exceeded {maxCallDepth}"
  | invalid why => s!"invalid program: {why.message u}"

end Fault

end Closures
