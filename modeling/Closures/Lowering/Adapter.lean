import Closures.Lowering.Capture

/-!
# Adapters

A lowered site is described by a `Closure`: its name and number, what it
captures, the method it implements, and the parameters and body of the
implementation. From it come the **adapter**, a type declaration with one final
field per slot and that one method, and the **replacement**, the expression that
stands for the site from then on.

Names count the sites of each named type. Sites in local and anonymous classes
count with the named type around them.
-/

set_option autoImplicit false

namespace Closures

/-! ## Names -/

/-- The named types that sites were counted for so far, one entry per site. -/
abbrev Naming := List ClassId

/-- The name for a site in a type, after the given ones. -/
def Naming.name (given : Naming) (u : CompilationUnit) (enclosing : ClassId) : String :=
  u.qualifiedPath enclosing ++ "_$Lambda$" ++ (given.count (u.nearestNamed enclosing) + 1).repr

/-- Count a site in a type. -/
def Naming.add (given : Naming) (u : CompilationUnit) (enclosing : ClassId) : Naming :=
  u.nearestNamed enclosing :: given

/-! ## Adapters -/

/-- A lowered site. -/
structure Closure where
  name : String
  adapter : ClassId
  /-- The type that contains the site. -/
  enclosing : ClassId
  span : Span
  captures : CaptureSet
  sam : FunctionalInterface
  /-- The parameters of the implementation, with erased types. -/
  params : List Param
  body : List Stmt

namespace Closure

/-- Whether each evaluation of the site needs an instance of its own. -/
def isCapturing (c : Closure) : Bool := !c.captures.isEmpty

/-- The field for a slot. -/
def field (slot : Slot) : Field where
  name := slot.fieldName
  ty := slot.ty
  isStatic := false
  isFinal := true
  init := none

/-- The implementation of the abstract method. -/
def implementation (c : Closure) : Method where
  name := c.sam.name
  typeParams := []
  params := c.params
  returnType := c.sam.erasedReturn
  throws := c.sam.throws
  kind := .method
  isStatic := false
  isAbstract := false
  isDefault := false
  isVarargs := false
  body := some c.body
  span := c.span

/-- How instances come about. -/
def instantiation (c : Closure) (policy : SingletonInit) : Instantiation :=
  if c.isCapturing then .perEvaluation else .singleton policy

/-- What the adapter records about the site. -/
def info (c : Closure) (policy : SingletonInit) : AdapterInfo where
  site := c.span
  enclosing := c.enclosing
  functionalInterface := c.sam.interface
  sam := c.sam.name
  markers := c.sam.markers
  captures := c.captures.slots.map Slot.captureKind
  superDispatch := c.captures.superDispatch?
  instantiation := c.instantiation policy

/-- The adapter of a site. -/
def decl (u : CompilationUnit) (policy : SingletonInit) (c : Closure) : TypeDecl :=
  { TypeDecl.empty c.adapter c.name .adapter with
    isStatic := true
    outer := some (u.nearestNamed c.enclosing)
    interfaces := c.sam.interface :: c.sam.markers
    fields := c.captures.slots.map field
    methods := [c.implementation]
    adapter := some (c.info policy)
    span := c.span }

/-- What stands for the site; `operands` fill the fields. -/
def replacement (c : Closure) (operands : List Expr) : Expr :=
  if c.isCapturing then .newClosure c.adapter operands else .singleton c.adapter

end Closure

end Closures
