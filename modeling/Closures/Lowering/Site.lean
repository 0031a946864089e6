import Closures.Hierarchy.Subtyping
import Closures.Lowering.Cause

/-!
# Closure sites

A `Site` is where a closure stands: the type around it, the enclosing instances it can reach and the
locals it can see. `thisDepth`, `memberDepth` and `creationDepth` say which of the enclosing
instances an expression at the site means.
-/

set_option autoImplicit false

namespace Closures

/-- The locals in scope, innermost first. -/
abbrev Scope := List Param

/-- The innermost local with an id. -/
def Scope.lookup? (s : Scope) (id : LocalId) : Option Param := List.find? (·.id == id) s

/-- Where a closure stands. -/
structure Site where
  unit : CompilationUnit
  /-- The type around the site. -/
  owner : ClassId
  /-- The types of the enclosing instances; none in a static context. -/
  chain : List ClassId
  scope : Scope

namespace Site

/-- The declaration with a number, which must be there. -/
def decl (s : Site) (id : ClassId) : Except Cause TypeDecl :=
  match s.unit.decl? id with
  | some d => .ok d
  | none => .error (.unknownType id)

/-- The method with a number, which must be there. -/
def method (s : Site) (id : MethodId) : Except Cause Method :=
  match s.unit.method? id with
  | some m => .ok m
  | none => .error (.unknownMethod id)

/-- The field with a number, which must be there. -/
def field (s : Site) (id : FieldId) : Except Cause Field :=
  match s.unit.field? id with
  | some f => .ok f
  | none => .error (.unknownField id)

/-- The enclosing instance that `this` or `Q.this` means. A qualifying
interface, as in a call of its default method, leaves it at the innermost
one. -/
def thisDepth (s : Site) (qualifier : Option ClassId) : Except Cause Nat :=
  if s.chain.isEmpty then .error .thisInStaticContext
  else
    match qualifier with
    | none => .ok 0
    | some c => do
      if (← s.decl c).isInterface then return 0
      match s.chain.idxOf? c with
      | some depth => return depth
      | none => throw (.notEnclosing c)

/-- The innermost enclosing instance that has the members of `owner`. -/
def memberDepth (s : Site) (owner : ClassId) : Except Cause Nat :=
  if s.chain.isEmpty then .error (.memberInStaticContext owner)
  else
    match s.chain.findIdx? fun c => s.unit.isSubclass c owner with
    | some depth => .ok depth
    | none => .error (.unreachableMember owner s.owner)

/-- The enclosing instance that a new instance of a type is given, if it carries one. -/
def creationDepth (s : Site) (type : ClassId) : Except Cause (Option Nat) := do
  let _ ← s.decl type
  match s.unit.carrier? type with
  | some outer => return some (← s.memberDepth outer)
  | none => return none

/-- The type of the enclosing instance at a depth. -/
def instanceType (s : Site) (depth : Nat) : ClassId := s.chain.getD depth s.owner

end Site

end Closures
