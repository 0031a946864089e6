import Closures.Hierarchy.Members
import Closures.Machine.Store

/-!
# Dispatch

The implementation of a method for an object is sought along the superclasses
first and then among the default methods of the interfaces, nearest first. It
must agree with the method that is called in name and erased parameters; if
there is none, name and number of parameters are enough.
-/

set_option autoImplicit false

namespace Closures

namespace CompilationUnit

/-- The interfaces that a type declares. -/
def interfacesOf (u : CompilationUnit) (id : ClassId) : List ClassId :=
  ((u.decl? id).map fun d => d.interfaces.map (·.id)).getD []

/-- The interfaces of a list of types and those they extend, nearest first, each once. -/
def interfaceOrder (u : CompilationUnit) (types : List ClassId) : List ClassId :=
  let start := types.flatMap u.interfacesOf
  breadthFirst (fun i => i) u.interfacesOf (start.length + u.edgeCount) start []

/-- The first method of some types that passes a test. -/
def firstMethod? (u : CompilationUnit) (types : List ClassId) (test : MethodId → Method → Bool) :
    Option MethodId :=
  types.findSome? fun c => ((u.methodsOf c).find? fun (id, m) => test id m).map (·.1)

/-- Whether a method of a class can be run on its instances. -/
def isConcrete (m : Method) : Bool := m.kind == .method && !m.isStatic && m.body.isSome

/-- The implementation that instances of a type have for the methods that pass a test. -/
def findImplementation? (u : CompilationUnit) (type : ClassId) (test : MethodId → Method → Bool) :
    Option MethodId :=
  let classes := u.lineage type
  match u.firstMethod? classes fun id m => isConcrete m && test id m with
  | some id => some id
  | none =>
    if classes.all fun c => (u.decl? c).isSome then
      u.firstMethod? (u.interfaceOrder classes) fun id m => m.isDefault && test id m
    else none

/-- The implementation that instances of a type have for methods of a name and number of
parameters. -/
def findByArity? (u : CompilationUnit) (type : ClassId) (name : String) (arity : Nat) :
    Option MethodId :=
  u.findImplementation? type fun _ m => m.name == name && m.params.length == arity

/-- The implementation that instances of a type have for a method. -/
def resolveVirtual? (u : CompilationUnit) (type : ClassId) (target : MethodId) : Option MethodId :=
  match u.method? target with
  | none => none
  | some t =>
    u.findImplementation? type (fun id m => m.name == t.name && u.erasedParams id == u.erasedParams target)
      <|> u.findByArity? type t.name t.params.length

end CompilationUnit

end Closures
