/-!
# Primitive kinds

The eight primitive kinds, their names in the source language, and the widening order between
the numeric ones.
-/

set_option autoImplicit false

namespace Closures

/-- A primitive kind of the source language. -/
inductive Primitive where
  | boolean | byte | char | short | int | long | float | double
deriving DecidableEq, Repr, Inhabited

namespace Primitive

/-- All kinds, in declaration order. -/
def all : List Primitive := [boolean, byte, char, short, int, long, float, double]

/-- The keyword of the kind. -/
def name : Primitive → String
  | boolean => "boolean"
  | byte => "byte"
  | char => "char"
  | short => "short"
  | int => "int"
  | long => "long"
  | float => "float"
  | double => "double"

/-- The name of the wrapper class of the kind. -/
def boxedName : Primitive → String
  | boolean => "Boolean"
  | byte => "Byte"
  | char => "Character"
  | short => "Short"
  | int => "Integer"
  | long => "Long"
  | float => "Float"
  | double => "Double"

/-- Every kind but `boolean` is numeric. -/
def isNumeric : Primitive → Bool
  | boolean => false
  | _ => true

/-- Identity or widening conversion between kinds. `char` is apart from `byte` and `short`: it
widens to `int` but neither of them widens to it. -/
def widensTo : Primitive → Primitive → Bool
  | byte, short | byte, int | byte, long | byte, float | byte, double => true
  | short, int | short, long | short, float | short, double => true
  | char, int | char, long | char, float | char, double => true
  | int, long | int, float | int, double => true
  | long, float | long, double => true
  | float, double => true
  | a, b => a == b

end Primitive

end Closures
