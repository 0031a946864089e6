import Closures.Tree.Basic

/-!
# Building trees

A `Builder` puts a unit together one declaration at a time and hands out fresh locals. Below it are
short forms for common expressions and statements.
-/

set_option autoImplicit false

namespace Closures

/-- A unit under construction. -/
structure Builder where
  unit : CompilationUnit
  nextLocal : LocalId

/-- A step in the construction of a unit. -/
abbrev Build := StateM Builder

namespace Builder

/-- A unit without declarations. -/
def empty (name : String) : Builder := ⟨.empty name, 1⟩

/-- Change a declaration. -/
def change (id : ClassId) (f : TypeDecl → TypeDecl) : Build Unit :=
  modify fun b => { b with unit := { b.unit with types := b.unit.types.modify id.toNat f } }

/-- The declaration with a number, or a bare one. -/
def declaration (id : ClassId) : Build TypeDecl := do
  return (← get).unit.types[id.toNat]?.getD (.empty id "" .topLevel)

/-- Add a declaration. -/
def declare (name : String) (kind : TypeKind) (outer : Option ClassId)
    (isStatic isInterface : Bool) : Build ClassId := do
  let b ← get
  let id := b.unit.types.length.toUInt32
  let d : TypeDecl := { TypeDecl.empty id name kind with outer, isStatic, isInterface }
  set { b with unit := { b.unit with types := b.unit.types ++ [d] } }
  return id

/-- Add a top-level class. -/
def topClass (name : String) : Build ClassId := declare name .topLevel none true false

/-- Add a top-level interface. -/
def topInterface (name : String) : Build ClassId := declare name .topLevel none true true

/-- Add a member class. -/
def memberClass (outer : ClassId) (name : String) (isStatic : Bool) : Build ClassId :=
  declare name .member (some outer) isStatic false

/-- Add a member interface. -/
def memberInterface (outer : ClassId) (name : String) : Build ClassId :=
  declare name .member (some outer) true true

/-- Add a class in the body of a method. -/
def localClass (outer : ClassId) (name : String) (isStatic : Bool) : Build ClassId :=
  declare name .inBlock (some outer) isStatic false

/-- Add an anonymous class. -/
def anonymousClass (outer : ClassId) (ordinal : String) : Build ClassId :=
  declare ordinal .anonymous (some outer) false false

/-- Set the superclass. -/
def extend (id : ClassId) (superclass : ClassType) : Build Unit :=
  change id fun d => { d with superclass := some superclass }

/-- Add an interface. -/
def implement (id : ClassId) (interface : ClassType) : Build Unit :=
  change id fun d => { d with interfaces := d.interfaces ++ [interface] }

/-- Set the type parameters, without bounds. -/
def typeParams (id : ClassId) (names : List String) : Build Unit :=
  change id fun d => { d with typeParams := names.map (⟨·, none⟩) }

/-- Add a field. -/
def addField (id : ClassId) (name : String) (ty : Ty) (isStatic : Bool) (init : Option Expr) :
    Build FieldId := do
  let index := (← declaration id).fields.length.toUInt32
  change id fun d => { d with fields := d.fields ++ [⟨name, ty, isStatic, false, init⟩] }
  return ⟨id, index⟩

/-- Set the initializer of a field. -/
def setFieldInit (field : FieldId) (init : Expr) : Build Unit :=
  change field.owner fun d =>
    { d with fields := d.fields.modify field.index.toNat fun f => { f with init := some init } }

/-- A fresh local that is never reassigned. -/
def freshLocal (name : String) (ty : Ty) : Build Param := do
  let b ← get
  set { b with nextLocal := b.nextLocal + 1 }
  return ⟨b.nextLocal, name, ty, true⟩

/-- A fresh local that is reassigned somewhere. -/
def mutableLocal (name : String) (ty : Ty) : Build Param := do
  return { ← freshLocal name ty with effectivelyFinal := false }

/-- Add a method. In an interface a method without a body is abstract. -/
def addMethod (id : ClassId) (m : Method) : Build MethodId := do
  let d ← declaration id
  let isAbstract :=
    m.isAbstract || (d.isInterface && m.body.isNone && !m.isStatic && m.kind == .method)
  change id fun d => { d with methods := d.methods ++ [{ m with isAbstract }] }
  return ⟨id, d.methods.length.toUInt32⟩

/-- Give a method a body. -/
def setBody (method : MethodId) (body : List Stmt) : Build Unit :=
  change method.owner fun d =>
    { d with methods := d.methods.modify method.index.toNat fun m =>
        { m with body := some body, isAbstract := false } }

/-- Add an initializer block. -/
def addInitializer (id : ClassId) (isStatic : Bool) (body : List Stmt) : Build Unit :=
  change id fun d => { d with initializers := d.initializers ++ [⟨isStatic, body⟩] }

end Builder

/-- A method without parameters, result and body. -/
def Method.named (name : String) : Method where
  name := name
  typeParams := []
  params := []
  returnType := .void
  throws := []
  kind := .method
  isStatic := false
  isAbstract := false
  isDefault := false
  isVarargs := false
  body := none
  span := .dummy

/-- A constructor without parameters and with an empty body. -/
def Method.constructor : Method :=
  { Method.named "<init>" with kind := .constructor, body := some [] }

/-! ## Short forms -/

namespace Expr

/-- Read of a field of the implicit instance, or of a static one. -/
def fieldOf (field : FieldId) : Expr := .fieldGet none field

/-- Call on an object. -/
def callOn (object : Expr) (method : MethodId) (args : List Expr) : Expr :=
  .call (.expr object) method args

/-- Creation of an instance without type arguments. -/
def newObject (type : ClassId) (ctor : Option MethodId) (args : List Expr) : Expr :=
  .new (.raw type) ctor none args

/-- Print the text of a value as a line. -/
def println (value : Expr) : Expr := .intrinsic .println [value]

/-- A lambda with an expression for its body. -/
def lambdaExpr (params : List Param) (body : Expr) (bodyType target : Ty) : Expr :=
  .lambda ⟨params, .expr body, bodyType, target, .dummy⟩

/-- A lambda with statements for its body. -/
def lambdaBlock (params : List Param) (body : List Stmt) (bodyType target : Ty) : Expr :=
  .lambda ⟨params, .block body, bodyType, target, .dummy⟩

/-- A method reference without type arguments. -/
def reference (qualifier : RefQualifier) (member : RefMember) (target : Ty) : Expr :=
  .methodRef ⟨qualifier, member, [], target, .dummy⟩

/-- `T::m`. -/
def typeRef (qualifier : Ty) (name : String) (target : Ty) : Expr :=
  reference (.type qualifier) (.method name) target

/-- `e::m`. -/
def boundRef (object : Expr) (ty : Ty) (name : String) (target : Ty) : Expr :=
  reference (.expr object ty) (.method name) target

/-- `T::new`. -/
def constructorRef (qualifier target : Ty) : Expr := reference (.type qualifier) .new target

/-- `super::m`. -/
def superRef (qualifier : Option ClassId) (name : String) (target : Ty) : Expr :=
  reference (.super qualifier) (.method name) target

/-- A method reference with explicit type arguments; anything else as it is. -/
def withTypeArgs (typeArgs : List Ty) : Expr → Expr
  | .methodRef site => .methodRef { site with typeArgs }
  | e => e

/-- A closure site with a span; anything else as it is. -/
def withSpan (span : Span) : Expr → Expr
  | .lambda site => .lambda { site with span }
  | .methodRef site => .methodRef { site with span }
  | e => e

end Expr

end Closures
