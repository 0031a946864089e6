import Closures.Span
import Closures.Ty

/-!
# The resolved tree

A compilation unit is a flat arena of type declarations; nesting is expressed by the `outer` links
between them. Names are resolved and expressions carry the types that later stages need.

* Before lowering, **closure sites** are the expressions `Expr.lambda` and `Expr.methodRef`.
* After lowering, each site is an `Expr.newClosure` or an `Expr.singleton` that names an **adapter
  type**, a synthesized declaration of kind `TypeKind.adapter`.

Local and anonymous class bodies do not see the locals of the method around them: such values reach
them through fields.
-/

set_option autoImplicit false

namespace Closures

/-! ## Operators -/

/-- Binary arithmetic operators. `add` concatenates when either side is a string. -/
inductive BinaryOp where
  | add | sub | mul | div | rem | bitAnd | bitOr | bitXor | shl | shr | ushr
deriving DecidableEq, Inhabited, Repr

/-- Unary operators. -/
inductive UnaryOp where
  | neg | not | bitNot
deriving DecidableEq, Inhabited, Repr

/-- Comparison operators. On references `eq` and `ne` compare identity. -/
inductive CompareOp where
  | eq | ne | lt | le | gt | ge
deriving DecidableEq, Inhabited, Repr

/-- Logical operators; the right operand is evaluated only when it decides. -/
inductive LogicalOp where
  | and | or
deriving DecidableEq, Inhabited, Repr

/-- Built-in operations. -/
inductive Intrinsic where
  /-- Print the texts of the arguments as one line. -/
  | println
deriving DecidableEq, Inhabited, Repr

/-! ## Expressions and statements -/

/-- A local variable or parameter, where it is declared. -/
structure Param where
  /-- Its identity. -/
  id : LocalId
  /-- Its source name. -/
  name : String
  /-- Its declared type. -/
  ty : Ty
  /-- Never assigned after its initialization. -/
  effectivelyFinal : Bool
deriving DecidableEq, Inhabited, Repr

/-- Right-hand side of a method reference. -/
inductive RefMember where
  /-- A method, by name. -/
  | method (name : String)
  /-- A constructor. -/
  | new
deriving DecidableEq, Inhabited, Repr

mutual

/-- An expression. -/
inductive Expr where
  | null
  | bool (value : Bool)
  | int (value : Int32)
  | long (value : Int64)
  | double (value : Float)
  | char (value : Char)
  | string (value : String)
  /-- Read of a local or parameter. -/
  | localGet (id : LocalId)
  /-- Assignment to a local; its value is the assigned one. -/
  | localSet (id : LocalId) (value : Expr)
  /-- The innermost instance, or the enclosing instance of the qualifying type. -/
  | this (qualifier : Option ClassId)
  /-- Field read. Without a receiver the field is static, or is read on the implicit instance. -/
  | fieldGet (receiver : Option Expr) (field : FieldId)
  /-- Field write; its value is the written one. -/
  | fieldSet (receiver : Option Expr) (field : FieldId) (value : Expr)
  | call (receiver : Receiver) (method : MethodId) (args : List Expr)
  /-- Object creation. Without a constructor the implicit one without parameters runs; `outer` is
  the explicit enclosing instance. -/
  | new (type : ClassType) (ctor : Option MethodId) (outer : Option Expr) (args : List Expr)
  | newArray (element : Ty) (length : Expr)
  | arrayLit (element : Ty) (values : List Expr)
  | arrayGet (array index : Expr)
  | arraySet (array index value : Expr)
  | arrayLength (array : Expr)
  | binary (op : BinaryOp) (left right : Expr)
  | compare (op : CompareOp) (left right : Expr)
  | logical (op : LogicalOp) (left right : Expr)
  | unary (op : UnaryOp) (operand : Expr)
  | cond (condition whenTrue whenFalse : Expr)
  /-- Checked reference cast, or primitive conversion when the type is primitive. -/
  | cast (operand : Expr) (ty : Ty)
  | instanceOf (operand : Expr) (ty : Ty)
  /-- Primitive to wrapper. -/
  | box (operand : Expr) (kind : Primitive)
  /-- Wrapper to primitive; faults on `null`. -/
  | unbox (operand : Expr) (kind : Primitive)
  /-- Primitive to primitive. -/
  | convert (operand : Expr) (kind : Primitive)
  /-- The operand, or a fault when it is `null`. -/
  | nullCheck (operand : Expr)
  | intrinsic (op : Intrinsic) (args : List Expr)
  /-- Closure site: a lambda. -/
  | lambda (site : Lambda)
  /-- Closure site: a method reference. -/
  | methodRef (site : MethodRef)
  /-- Allocate a capturing adapter; the captures fill its fields in order. -/
  | newClosure (adapter : ClassId) (captures : List Expr)
  /-- The shared instance of an adapter that captures nothing. -/
  | singleton (adapter : ClassId)

/-- The receiver of a call. -/
inductive Receiver where
  /-- Unqualified: a static method, or a method of the implicit instance. -/
  | implicit
  /-- Through the declaring type. -/
  | static
  /-- Virtual call on an object. -/
  | expr (object : Expr)
  /-- `super.m()` or `Q.super.m()`: exactly this method, on the instance that
  the qualifier picks. -/
  | super (qualifier : Option ClassId)
  /-- Exactly this method, on an object. -/
  | nonVirtual (object : Expr)

/-- A lambda expression. -/
structure Lambda where
  params : List Param
  body : LambdaBody
  /-- Type of the expression body, or of what a block body returns. -/
  bodyType : Ty
  /-- The functional interface it is to implement. -/
  target : Ty
  span : Span

/-- The body of a lambda. -/
inductive LambdaBody where
  | expr (value : Expr)
  | block (body : List Stmt)

/-- A method reference. -/
structure MethodRef where
  qualifier : RefQualifier
  member : RefMember
  /-- Explicit type arguments of the member. -/
  typeArgs : List Ty
  /-- The functional interface it is to implement. -/
  target : Ty
  span : Span

/-- Left-hand side of a method reference. -/
inductive RefQualifier where
  | type (ty : Ty)
  /-- An object, with its static type. -/
  | expr (object : Expr) (ty : Ty)
  | super (qualifier : Option ClassId)

/-- A statement. -/
inductive Stmt where
  /-- Declaration of a local. -/
  | declare (var : Param) (init : Option Expr)
  | expr (value : Expr)
  | ret (value : Option Expr)
  | cond (condition : Expr) (whenTrue : List Stmt) (whenFalse : Option (List Stmt))
  | whileLoop (condition : Expr) (body : List Stmt)
  /-- Basic loop; declarations in `init` are scoped to it. -/
  | forLoop (init : List Stmt) (condition : Option Expr) (update : List Expr) (body : List Stmt)
  /-- Loop over the elements of an array. -/
  | forEach (var : Param) (iterable : Expr) (body : List Stmt)
  | block (body : List Stmt)
  | raise (value : Expr)
  | tryCatch (body : List Stmt) (handler : Option CatchClause) (finally_ : Option (List Stmt))
  | breakLoop
  | continueLoop

/-- The handler of a `try` statement. -/
structure CatchClause where
  param : Param
  body : List Stmt

end

instance : Inhabited Expr := ⟨.null⟩

instance : Inhabited Stmt := ⟨.breakLoop⟩

/-- Lambdas and method references are the closure sites. -/
def Expr.isSite : Expr → Bool
  | .lambda _ | .methodRef _ => true
  | _ => false

/-! ## Declarations -/

/-- How a type declaration is nested. -/
inductive TypeKind where
  | topLevel
  /-- Directly in the body of another type. -/
  | member
  /-- In the body of a method or initializer. -/
  | inBlock
  | anonymous
  /-- Synthesized for a closure site. -/
  | adapter
deriving DecidableEq, Inhabited, Repr

/-- Named types number the closure sites in them; local, anonymous and adapter types leave that to
the nearest named type around them. -/
def TypeKind.isNamed : TypeKind → Bool
  | topLevel | member => true
  | inBlock | anonymous | adapter => false

/-- A field declaration. -/
structure Field where
  name : String
  ty : Ty
  isStatic : Bool
  isFinal : Bool
  init : Option Expr

/-- Methods proper and constructors share one list. -/
inductive MethodKind where
  | method | constructor
deriving DecidableEq, Inhabited, Repr

/-- A method or constructor declaration. -/
structure Method where
  name : String
  /-- Its own type parameters, apart from the declaring type's. -/
  typeParams : List TypeParam
  params : List Param
  returnType : Ty
  /-- Declared exception types. -/
  throws : List Ty
  kind : MethodKind
  isStatic : Bool
  isAbstract : Bool
  /-- A method of an interface that has a body. -/
  isDefault : Bool
  /-- The last parameter is an array that takes any number of arguments. -/
  isVarargs : Bool
  /-- Absent for an abstract method. -/
  body : Option (List Stmt)
  span : Span

/-- An initializer block. -/
structure Initializer where
  isStatic : Bool
  body : List Stmt

/-- What a field of an adapter holds. -/
inductive CaptureKind where
  /-- The value that a local had when the site was evaluated. -/
  | localValue (id : LocalId) (name : String)
  /-- The enclosing instance `depth` levels out from the type of the site. -/
  | enclosingInstance (depth : UInt32)
  /-- The receiver of a bound method reference. -/
  | boundReceiver
deriving DecidableEq, Inhabited, Repr

/-- When the shared instance of an adapter is created. -/
inductive SingletonInit where
  /-- When the site is first evaluated. -/
  | onDemand
  /-- When the program starts. -/
  | atStart
deriving DecidableEq, Inhabited, Repr

/-- How instances of an adapter come about. -/
inductive Instantiation where
  /-- One shared instance. -/
  | singleton (init : SingletonInit)
  /-- A fresh instance whenever the site is evaluated. -/
  | perEvaluation
deriving DecidableEq, Inhabited, Repr

/-- What an adapter type records about its site. -/
structure AdapterInfo where
  /-- Where the site is. -/
  site : Span
  /-- The type that contains the site. -/
  enclosing : ClassId
  /-- The interface whose single abstract method the adapter implements. -/
  functionalInterface : ClassType
  /-- The name of that method. -/
  sam : String
  /-- Further interfaces of an intersection target. -/
  markers : List ClassType
  /-- One entry per field, in field order. -/
  captures : List CaptureKind
  /-- The type whose implementation a super call in the closure runs. -/
  superDispatch : Option ClassId
  instantiation : Instantiation
deriving DecidableEq, Inhabited, Repr

/-- A class or interface declaration. -/
structure TypeDecl where
  id : ClassId
  /-- Simple name; anonymous classes have their ordinal. -/
  name : String
  kind : TypeKind
  isInterface : Bool
  isAbstract : Bool
  /-- Instances of a nested type that is not static carry an enclosing instance. -/
  isStatic : Bool
  /-- The type around it. -/
  outer : Option ClassId
  typeParams : List TypeParam
  superclass : Option ClassType
  interfaces : List ClassType
  fields : List Field
  methods : List Method
  initializers : List Initializer
  /-- Present on adapters only. -/
  adapter : Option AdapterInfo
  span : Span

/-- A bare declaration, without supertypes and members. -/
def TypeDecl.empty (id : ClassId) (name : String) (kind : TypeKind) : TypeDecl where
  id := id
  name := name
  kind := kind
  isInterface := false
  isAbstract := false
  isStatic := kind == .topLevel
  outer := none
  typeParams := []
  superclass := none
  interfaces := []
  fields := []
  methods := []
  initializers := []
  adapter := none
  span := .dummy

/-- A compilation unit: the declarations that are lowered and run together. The type with number
`i` stands at position `i`. -/
structure CompilationUnit where
  name : String
  /-- The file the unit was read from, for diagnostics. -/
  sourcePath : Option String
  types : List TypeDecl

/-- A unit without types. -/
def CompilationUnit.empty (name : String) : CompilationUnit := ⟨name, none, []⟩

end Closures
