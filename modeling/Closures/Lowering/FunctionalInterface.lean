import Closures.Hierarchy.Members
import Closures.Lowering.Cause

/-!
# Functional interfaces

`FunctionalInterface.resolve` finds the single abstract method of a target type: of an interface, or
of an intersection of interfaces.

* Abstract redeclarations of the methods that every object has do not count.
* An abstract method is retired by a default method of the same signature in a proper subinterface.
* Methods that agree on name and on parameters, as seen from the target, are the same method.
-/

set_option autoImplicit false

namespace Closures

/-- The single abstract method of a target type. -/
structure FunctionalInterface where
  /-- The member of the target that supplies the method. -/
  interface : ClassType
  /-- The method as declared. -/
  method : MethodId
  name : String
  /-- Parameter types at the type arguments of the target. -/
  params : List Ty
  returnType : Ty
  throws : List Ty
  /-- The parameter types an implementation must declare to be dispatched to. -/
  erasedParams : List Ty
  erasedReturn : Ty
  /-- The other members of the target. -/
  markers : List ClassType
deriving DecidableEq, Inhabited, Repr

namespace FunctionalInterface

/-- Whether the method yields a value. -/
def returnsValue (f : FunctionalInterface) : Bool := !f.returnType.isVoid

/-- A method met while searching the interfaces of a target. -/
structure Candidate where
  /-- The position of the member of the target it was reached from. -/
  member : Nat
  /-- The interface that declares it, instantiated along the way from the member. -/
  owner : ClassType
  id : MethodId
  method : Method
  /-- The declared erasure of its parameters. -/
  erased : List Ty
  /-- The erasure of its parameters as instantiated. -/
  signature : List Ty

namespace Candidate

/-- The methods that every object has. -/
def isObjectMethod (c : Candidate) : Bool :=
  match c.method.name, c.erased with
  | "equals", [.object] | "hashCode", [] | "toString", [] => true
  | _, _ => false

/-- Whether one method is a default that retires another. -/
def retires (u : CompilationUnit) (other c : Candidate) : Bool :=
  other.method.isDefault && other.owner.id != c.owner.id
    && u.isSubclass other.owner.id c.owner.id && other.signature == c.signature
    && other.method.name == c.method.name

/-- What identifies a method among the members of the target. -/
def key (c : Candidate) : String × List Ty := (c.method.name, c.signature)

end Candidate

/-- A use of a type and of its supertypes, nearest first, each type once. -/
def reachable (u : CompilationUnit) (member : ClassType) : List ClassType :=
  breadthFirst (·.id) u.directSupertypes (u.edgeCount + 1) [member] []

/-- What the type parameters of a type stand for in a use of it. -/
def bindingsOf (u : CompilationUnit) (owner : ClassType) : Bindings :=
  match u.decl? owner.id with
  | some d => .ofArgs d.typeParams owner.args
  | none => []

/-- The methods of an interface that take part: abstract and default ones. -/
def candidatesOf (u : CompilationUnit) (member : Nat) (owner : ClassType) : List Candidate :=
  ((u.methodsOf owner.id).filter fun (_, m) =>
      !m.isStatic && m.kind == .method && (m.isAbstract || m.isDefault)).map fun (id, m) =>
    { member, owner, id, method := m
      erased := u.erasedParams id
      signature := m.params.map fun p =>
        (p.ty.subst (bindingsOf u owner)).erasure (u.typeParamsOf id) }

/-- The methods of all interfaces that the members of a target lead to. -/
def candidates (u : CompilationUnit) (members : List ClassType) : List Candidate :=
  members.zipIdx.flatMap fun (m, i) => (reachable u m).flatMap (candidatesOf u i)

/-- The abstract methods among candidates that are left to implement. -/
def abstractOnes (u : CompilationUnit) (all : List Candidate) : List Candidate :=
  all.filter fun c =>
    !c.method.isDefault && !c.isObjectMethod && !all.any fun other => other.retires u c

/-- A listed member of a target, which must be an interface. In an intersection the root type says
nothing and is left out. -/
def listedMember (u : CompilationUnit) (inIntersection : Bool) :
    Ty → Except Cause (Option ClassType)
  | .object => if inIntersection then .ok none else .error (.notFunctional .object)
  | .declared id args =>
    if (u.decl? id).any (·.isInterface) then .ok (some ⟨id, args⟩)
    else .error (.notFunctional (.declared id args))
  | t => .error (.notFunctional t)

/-- The interfaces that a target names, at least one. -/
def members (u : CompilationUnit) (target : Ty) : Except Cause (List ClassType) := do
  let listed ←
    match target with
    | .inter ts => ts.mapM (listedMember u true)
    | t => [t].mapM (listedMember u false)
  match listed.filterMap id with
  | [] => throw (.noInterface target)
  | ms => return ms

/-- The abstract method of a target as its implementations see it. -/
def ofCandidate (u : CompilationUnit) (members : List ClassType) (c : Candidate) :
    FunctionalInterface :=
  let bindings := bindingsOf u c.owner
  { interface := members.getD c.member c.owner
    method := c.id
    name := c.method.name
    params := c.method.params.map fun p => p.ty.subst bindings
    returnType := c.method.returnType.subst bindings
    throws := c.method.throws.map (Ty.subst bindings)
    erasedParams := c.erased
    erasedReturn := c.method.returnType.erasure (u.typeParamsOf c.id)
    markers := members.eraseIdx c.member }

/-- Find the single abstract method of a target. -/
def resolve (u : CompilationUnit) (target : Ty) : Except Cause FunctionalInterface := do
  let ms ← members u target
  let abstracts := abstractOnes u (candidates u ms)
  match abstracts, (abstracts.map Candidate.key).eraseDups with
  | [], _ => throw (.noAbstractMethod target)
  | c :: _, [_] => return ofCandidate u ms c
  | _ :: _, keys => throw (.manyAbstractMethods target (keys.map (·.1)))

end FunctionalInterface

end Closures
