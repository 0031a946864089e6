import Closures.Hierarchy.Nesting

/-!
# Why a site cannot be lowered

`Cause` lists the reasons, with what they are about; their kind and wording are functions of it. The
wording needs the unit only for names.
-/

set_option autoImplicit false

namespace Closures

/-- The kinds of failure. -/
inductive Failure where
  | ambiguousOrMissingSam
  | invalidCapture
  | unresolvableReference
  | incompatibleArity
deriving DecidableEq, Inhabited, Repr

namespace Failure

/-- The kind in words. -/
def text : Failure → String
  | ambiguousOrMissingSam => "ambiguous or missing functional interface method"
  | invalidCapture => "invalid capture"
  | unresolvableReference => "unresolvable method reference"
  | incompatibleArity => "incompatible arity"

/-- What to do about it. -/
def help : Failure → String
  | ambiguousOrMissingSam => "the target type must have exactly one abstract method"
  | invalidCapture =>
    "only effectively final locals and reachable enclosing instances can be captured"
  | unresolvableReference => "the reference must resolve to exactly one applicable member"
  | incompatibleArity =>
    "the functional interface method and the target must agree on parameters and result"

end Failure

/-- Why a closure site cannot be lowered. -/
inductive Cause where
  -- the target
  | notFunctional (ty : Ty)
  | noInterface (target : Ty)
  | noAbstractMethod (target : Ty)
  | manyAbstractMethods (target : Ty) (names : List String)
  -- names that are not there
  | unknownType (id : ClassId)
  | unknownMethod (id : MethodId)
  | unknownField (id : FieldId)
  -- enclosing instances
  | thisInStaticContext
  | memberInStaticContext (owner : ClassId)
  | notEnclosing (type : ClassId)
  | unreachableMember (owner site : ClassId)
  -- captured locals
  | invisibleLocal (id : LocalId)
  | mutableLocal (name : String)
  | assignedLocal (name : String)
  | nestedSite
  -- method references
  | constructorNeedsType
  | noMembers (ty : Ty)
  | noMember (owner : ClassId) (name : String)
  | noOverload (owner : ClassId) (name : String) (args : List Ty)
  | ambiguous (name : String) (count : Nat)
  | staticAndInstance (ty : Ty) (name : String)
  | notInstantiable (type : ClassId)
  | implicitConstructorOnly (type : ClassId) (sam : String) (count : Nat)
  | arrayArity (sam : String) (count : Nat)
  | arrayLength (ty : Ty)
  | noSuperclass (type : ClassId)
  | noCapturedInstance
  -- arity and result
  | lambdaArity (count : Nat) (sam : String) (expected : Nat)
  | lambdaWithoutValue (sam : String) (result : Ty)
  | referenceWithoutValue (sam : String) (result : Ty)
  | returnsValue (sam : String)
  | returnsNothing (sam : String)
deriving DecidableEq, Repr

namespace Cause

/-- The kind of failure. -/
def kind : Cause → Failure
  | notFunctional _ | noInterface _ | noAbstractMethod _ | manyAbstractMethods _ _ =>
    .ambiguousOrMissingSam
  | unknownField _ | thisInStaticContext | memberInStaticContext _ | notEnclosing _
  | unreachableMember _ _ | invisibleLocal _ | mutableLocal _ | assignedLocal _ | nestedSite
  | noCapturedInstance => .invalidCapture
  | unknownType _ | unknownMethod _ | constructorNeedsType | noMembers _ | noMember _ _
  | ambiguous _ _ | staticAndInstance _ _ | notInstantiable _ | noSuperclass _ =>
    .unresolvableReference
  | noOverload _ _ _ | implicitConstructorOnly _ _ _ | arrayArity _ _ | arrayLength _
  | lambdaArity _ _ _ | lambdaWithoutValue _ _ | referenceWithoutValue _ _ | returnsValue _
  | returnsNothing _ => .incompatibleArity

/-- The cause in words. -/
def message (u : CompilationUnit) : Cause → String
  | notFunctional t => s!"{u.typeName t} is not a functional interface"
  | noInterface t => s!"{u.typeName t} names no interface"
  | noAbstractMethod t => s!"{u.typeName t} has no abstract method to implement"
  | manyAbstractMethods t names =>
    let listed := ", ".intercalate names
    s!"{u.typeName t} has {names.length} abstract methods ({listed}), expected exactly one"
  | unknownType id => s!"unknown type #{id}"
  | unknownMethod id => s!"unknown method #{id.index} of {u.className id.owner}"
  | unknownField id => s!"unknown field #{id.index} of {u.className id.owner}"
  | thisInStaticContext =>
    "`this` needs an enclosing instance, but the site is in a static context"
  | memberInStaticContext owner =>
    let name := u.className owner
    s!"member of {name} needs an enclosing instance, but the site is in a static context"
  | notEnclosing c => s!"`{u.className c}.this` is not an enclosing instance here"
  | unreachableMember owner site =>
    s!"no enclosing instance of {u.className owner} is reachable from {u.qualifiedPath site}"
  | invisibleLocal id => s!"local #{id} is not visible from the closure site"
  | mutableLocal name => s!"local `{name}` is captured but not effectively final"
  | assignedLocal name => s!"local `{name}` is assigned inside a closure"
  | nestedSite => "nested closure site was not lowered before its enclosing body"
  | constructorNeedsType => "constructor references need a type qualifier"
  | noMembers t => s!"{u.typeName t} has no members to reference"
  | noMember owner name => s!"{u.className owner} has no method named `{name}`"
  | noOverload owner name args =>
    let listed := ", ".intercalate (u.typeNames args)
    s!"no `{name}` of {u.className owner} accepts ({listed})"
  | ambiguous name count => s!"reference to `{name}` is ambiguous between {count} overloads"
  | staticAndInstance t name =>
    s!"`{u.typeName t}::{name}` matches both a static and an instance method"
  | notInstantiable c => s!"{u.className c} cannot be instantiated"
  | implicitConstructorOnly c sam count =>
    let name := u.className c
    s!"{name} only has the implicit no-argument constructor, {sam} supplies {count} argument(s)"
  | arrayArity sam count =>
    s!"array constructor takes one length argument, {sam} supplies {count}"
  | arrayLength t => s!"array length cannot be taken from {u.typeName t}"
  | noSuperclass c => s!"{u.className c} has no superclass to reference"
  | noCapturedInstance => "reference target has no captured instance to run on"
  | lambdaArity count sam expected =>
    s!"lambda takes {count} parameter(s) but {sam} takes {expected}"
  | lambdaWithoutValue sam t => s!"lambda body has no value but {sam} must return {u.typeName t}"
  | referenceWithoutValue sam t =>
    s!"referenced member returns nothing but {sam} must return {u.typeName t}"
  | returnsValue sam => s!"lambda returns a value from a void method {sam}"
  | returnsNothing sam => s!"lambda returns without a value from a value-returning method {sam}"

end Cause

/-- A site that cannot be lowered, and why. -/
structure LoweringError where
  cause : Cause
  /-- The site. -/
  span : Span
deriving DecidableEq, Repr

namespace LoweringError

/-- The kind of failure. -/
def kind (e : LoweringError) : Failure := e.cause.kind

/-- The cause in words. -/
def message (u : CompilationUnit) (e : LoweringError) : String := e.cause.message u

/-- The kind and the cause in words. -/
def display (u : CompilationUnit) (e : LoweringError) : String :=
  e.kind.text ++ ": " ++ e.message u

end LoweringError

end Closures
