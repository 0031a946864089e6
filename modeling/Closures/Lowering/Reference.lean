import Closures.Hierarchy.Members
import Closures.Lowering.Adaptation
import Closures.Lowering.FunctionalInterface
import Closures.Lowering.Site

/-!
# Method references

`Reference.resolve` classifies a method reference by its form and picks the one
member that it means. Members are tried in three phases; the first phase in
which one is applicable decides, and among several the most specific is taken.
-/

set_option autoImplicit false

namespace Closures

/-- The object that a bound reference runs on. -/
inductive BoundObject where
  /-- An enclosing instance. -/
  | instance_ (depth : Nat)
  /-- The value of an expression, with its static type. -/
  | value (ty : Ty)
deriving DecidableEq, Inhabited, Repr

/-- How a method reference reaches its member. -/
inductive Reference.Form where
  /-- `T::m` with a static method. -/
  | static (method : MethodId)
  /-- `T::m` with an instance method, run on the first argument. -/
  | unbound (method : MethodId) (receiver : Ty)
  /-- `e::m`. -/
  | bound (method : MethodId) (object : BoundObject)
  /-- `T::new`. Without a constructor the implicit one runs; `depth` is that of the enclosing
  instance that the new instance is given. -/
  | constructor (type : ClassType) (ctor : Option MethodId) (depth : Option Nat)
  /-- `T[]::new`. -/
  | newArray (element : Ty)
  /-- `super::m` and its qualified forms. -/
  | super (method : MethodId) (depth : Nat)
deriving DecidableEq, Inhabited, Repr

/-- A resolved method reference. -/
structure Reference where
  form : Reference.Form
  /-- The parameter types of the member as seen through the qualifier. -/
  params : List Ty
  mode : ArgMode
  /-- The type of the result. -/
  result : Ty
deriving DecidableEq, Inhabited, Repr

namespace Reference

/-- A member that a reference may mean. -/
structure Candidate where
  id : MethodId
  isVarargs : Bool
  params : List Ty
  result : Ty
deriving DecidableEq, Inhabited, Repr

/-- The candidates that are applicable in a phase, and how. -/
def applicableOnes (u : CompilationUnit) (cs : List Candidate) (args : List Ty) (phase : Phase) :
    List (Candidate × ArgMode) :=
  cs.filterMap fun c => (applicable? u c.isVarargs c.params args phase).map (c, ·)

/-- Whether the candidate at a position is more specific than all others. -/
def isBest (u : CompilationUnit) (hits : List (Candidate × ArgMode)) (i : Nat) (c : Candidate) :
    Bool :=
  hits.zipIdx.all fun ((other, _), j) => i == j || moreSpecific u c.params other.params

/-- The most specific candidate that is applicable in a phase. -/
def pick (s : Site) (cs : List Candidate) (args : List Ty) (phase : Phase) :
    Except Cause (Option (Candidate × ArgMode)) :=
  match applicableOnes s.unit cs args phase with
  | [] => .ok none
  | [hit] => .ok (some hit)
  | hit :: rest =>
    let hits := hit :: rest
    match hits.zipIdx.find? fun ((c, _), i) => isBest s.unit hits i c with
    | some (best, _) => .ok (some best)
    | none =>
      .error (.ambiguous (((s.unit.method? hit.1.id).map (·.name)).getD "") hits.length)

/-- The candidate of the first phase that yields one. -/
def select (s : Site) (cs : List Candidate) (args : List Ty) :
    List Phase → Except Cause (Option (Candidate × ArgMode))
  | [] => .ok none
  | phase :: phases => do
    match ← pick s cs args phase with
    | some hit => return some hit
    | none => select s cs args phases

/-- The use of a declared type that a type is, whose members can be referred to. -/
def classOf (t : Ty) : Except Cause ClassType :=
  match t.classType? with
  | some c => .ok c
  | none => .error (.noMembers t)

/-- A method as seen through a receiver type and explicit type arguments. -/
def instantiate (s : Site) (id : MethodId) (receiver : ClassType) (typeArgs : List Ty) :
    Except Cause Candidate := do
  let d ← s.decl id.owner
  let m ← s.method id
  let ofOwner : Bindings :=
    match s.unit.asSuper? receiver id.owner with
    | some owner => .ofArgs d.typeParams owner.args
    | none => []
  let bindings := ofOwner ++ Bindings.ofArgs m.typeParams typeArgs
  return { id, isVarargs := m.isVarargs
           params := m.params.map fun p => p.ty.subst bindings
           result := m.returnType.subst bindings }

/-- The methods of a name that a test keeps, as seen through a type. -/
def candidates (s : Site) (owner : ClassType) (name : String) (typeArgs : List Ty)
    (keep : Method → Bool) : Except Cause (List Candidate) := do
  let kept ← (s.unit.findMethods owner.id name).filterM fun id => return keep (← s.method id)
  kept.mapM fun id => instantiate s id owner typeArgs

/-- Select among all candidates, or report that none takes the arguments. -/
def selectOr (s : Site) (cs : List Candidate) (owner : ClassId) (name : String) (args : List Ty) :
    Except Cause (Candidate × ArgMode) := do
  match ← select s cs args Phase.all with
  | some hit => return hit
  | none => throw (.noOverload owner name args)

/-! ## The forms -/

/-- `T[]::new`. -/
def resolveNewArray (s : Site) (element : Ty) (sam : FunctionalInterface) :
    Except Cause Reference :=
  match sam.params with
  | [arg] =>
    if s.unit.isLooselyAssignable arg .int then
      .ok ⟨.newArray element, [.int], .fixed, .array element⟩
    else .error (.arrayLength arg)
  | params => .error (.arrayArity sam.name params.length)

/-- The constructors of a declaration, for a use of its type. -/
def constructors (d : TypeDecl) (type : ClassType) : List Candidate :=
  ((d.methodIds d.id).filter fun (_, m) => m.kind == .constructor).map fun (id, m) =>
    { id, isVarargs := m.isVarargs
      params := m.params.map fun p => p.ty.subst (.ofArgs d.typeParams type.args)
      result := type.toTy }

/-- `T::new`. -/
def resolveConstructor (s : Site) (t : Ty) (sam : FunctionalInterface) : Except Cause Reference := do
  let type ← classOf t
  let d ← s.decl type.id
  if d.isInterface || d.isAbstract then throw (.notInstantiable type.id)
  let depth ← s.creationDepth type.id
  match constructors d type with
  | [] =>
    if sam.params.isEmpty then return ⟨.constructor type none depth, [], .fixed, type.toTy⟩
    else throw (.implicitConstructorOnly type.id sam.name sam.params.length)
  | cs => do
    let (c, mode) ← selectOr s cs type.id "constructor" sam.params
    return ⟨.constructor type (some c.id) depth, c.params, mode, type.toTy⟩

/-- The arguments left for a method that is run on the first one, if that fits the type. -/
def unboundArgs? (s : Site) (t : Ty) : List Ty → Option (List Ty)
  | first :: rest => if s.unit.isLooselyAssignable first t then some rest else none
  | [] => none

/-- The reference to a chosen method. -/
def ofCandidate (form : Form) (hit : Candidate × ArgMode) : Reference :=
  ⟨form, hit.1.params, hit.2, hit.1.result⟩

/-- `T::m` in the given phases: a static method that takes all arguments, or an instance method that
is run on the first. -/
def resolveTypeMemberIn (s : Site) (t : Ty) (owner : ClassType) (name : String)
    (statics instances : List Candidate) (args : List Ty) : List Phase → Except Cause Reference
  | [] => .error (.noOverload owner.id name args)
  | phase :: phases => do
    let asStatic ← pick s statics args phase
    let asUnbound ←
      match unboundArgs? s t args with
      | some rest => pick s instances rest phase
      | none => pure none
    match asStatic, asUnbound with
    | some _, some _ => throw (.staticAndInstance t name)
    | some hit, none => return ofCandidate (.static hit.1.id) hit
    | none, some hit => return ofCandidate (.unbound hit.1.id t) hit
    | none, none => resolveTypeMemberIn s t owner name statics instances args phases

/-- `T::m`. -/
def resolveTypeMember (s : Site) (t : Ty) (name : String) (typeArgs : List Ty)
    (sam : FunctionalInterface) : Except Cause Reference := do
  let owner ← classOf t
  let statics ← candidates s owner name typeArgs (·.isStatic)
  let instances ← candidates s owner name typeArgs (!·.isStatic)
  if statics.isEmpty && instances.isEmpty then throw (.noMember owner.id name)
  resolveTypeMemberIn s t owner name statics instances sam.params Phase.all

/-- The object of a bound reference: `this` in any form is an enclosing instance. -/
def boundObject (s : Site) (t : Ty) : Expr → Except Cause BoundObject
  | .this q => return .instance_ (← s.thisDepth q)
  | _ => return .value t

/-- `e::m`. -/
def resolveBound (s : Site) (object : Expr) (t : Ty) (name : String) (typeArgs : List Ty)
    (sam : FunctionalInterface) : Except Cause Reference := do
  let owner ← classOf t
  let cs ← candidates s owner name typeArgs (!·.isStatic)
  if cs.isEmpty then throw (.noMember owner.id name)
  let receiver ← boundObject s t object
  let hit ← selectOr s cs owner.id name sam.params
  return ofCandidate (.bound hit.1.id receiver) hit

/-- The supertype whose members a `super` reference means: the interface that qualifies it, as the
innermost type uses it, or the superclass of the enclosing type at a depth. -/
def superStart (s : Site) (qualifier : Option ClassId) (depth : Nat) : Except Cause ClassType := do
  let interface? ←
    match qualifier with
    | some q => do if (← s.decl q).isInterface then pure (some q) else pure none
    | none => pure none
  match interface? with
  | some q => do
    let inner ← s.decl (s.instanceType 0)
    return (inner.interfaces.find? (·.id == q)).getD (.raw q)
  | none => do
    let type := s.instanceType depth
    match (← s.decl type).superclass with
    | some c => return c
    | none => throw (.noSuperclass type)

/-- `super::m`. -/
def resolveSuper (s : Site) (qualifier : Option ClassId) (name : String) (typeArgs : List Ty)
    (sam : FunctionalInterface) : Except Cause Reference := do
  let depth ← s.thisDepth qualifier
  let start ← superStart s qualifier depth
  let cs ← candidates s start name typeArgs fun m => !m.isStatic && !m.isAbstract
  if cs.isEmpty then throw (.noMember start.id name)
  let hit ← selectOr s cs start.id name sam.params
  return ofCandidate (.super hit.1.id depth) hit

/-- Classify a method reference and pick its member. -/
def resolve (s : Site) (r : MethodRef) (sam : FunctionalInterface) : Except Cause Reference :=
  match r.member, r.qualifier with
  | .new, .type (.array element) => resolveNewArray s element sam
  | .new, .type t => resolveConstructor s t sam
  | .new, _ => .error .constructorNeedsType
  | .method name, .type t => resolveTypeMember s t name r.typeArgs sam
  | .method name, .expr e t => resolveBound s e t name r.typeArgs sam
  | .method name, .super q => resolveSuper s q name r.typeArgs sam

end Reference

end Closures
