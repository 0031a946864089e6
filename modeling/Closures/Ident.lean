/-!
# Identifiers

A compilation unit keeps all its type declarations in one arena, and everything else is addressed
relative to it:

* a **type** by its position in the arena (`ClassId`);
* a **method** or **field** by its declaring type and its position there (`MethodId`, `FieldId`);
* a **local** or parameter by a number that is unique in the unit (`LocalId`).

Identifiers are 32-bit words: they are read from files, where a larger number is refused, and
fresh ones are made by counting up, which wraps.
-/

set_option autoImplicit false

namespace Closures

/-- Position of a type declaration in the unit's arena. -/
abbrev ClassId := UInt32

/-- Identity of a local variable or parameter. -/
abbrev LocalId := UInt32

/-- A method or constructor: its declaring type and its position among that type's methods. -/
structure MethodId where
  /-- The declaring type. -/
  owner : ClassId
  /-- Position among the methods of `owner`. -/
  index : UInt32
deriving DecidableEq, Repr, Inhabited

/-- A field: its declaring type and its position among that type's fields. -/
structure FieldId where
  /-- The declaring type. -/
  owner : ClassId
  /-- Position among the fields of `owner`. -/
  index : UInt32
deriving DecidableEq, Repr, Inhabited

end Closures
