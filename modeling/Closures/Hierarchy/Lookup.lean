import Closures.Tree.Walk

/-!
# Finding declarations

Lookups in the arena of a unit, by number and by name, and the names used in messages. A number that
no declaration has is not an error here: it finds nothing, and is shown as `#number`.
-/

set_option autoImplicit false

namespace Closures

namespace CompilationUnit

/-- The declaration with a number. -/
def decl? (u : CompilationUnit) (id : ClassId) : Option TypeDecl := u.types[id.toNat]?

/-- The method with a number. -/
def method? (u : CompilationUnit) (id : MethodId) : Option Method :=
  (u.decl? id.owner).bind fun d => d.methods[id.index.toNat]?

/-- The field with a number. -/
def field? (u : CompilationUnit) (id : FieldId) : Option Field :=
  (u.decl? id.owner).bind fun d => d.fields[id.index.toNat]?

/-- The first type of the arena with a simple name. -/
def findType? (u : CompilationUnit) (name : String) : Option ClassId :=
  (u.types.find? (·.name == name)).map (·.id)

end CompilationUnit

/-- The methods of a declaration with their numbers, in order; `owner` is the number it is looked up
by. -/
def TypeDecl.methodIds (d : TypeDecl) (owner : ClassId) : List (MethodId × Method) :=
  d.methods.zipIdx.map fun (m, i) => (⟨owner, i.toUInt32⟩, m)

/-- The fields of a declaration with their numbers, in order. -/
def TypeDecl.fieldIds (d : TypeDecl) (owner : ClassId) : List (FieldId × Field) :=
  d.fields.zipIdx.map fun (f, i) => (⟨owner, i.toUInt32⟩, f)

namespace CompilationUnit

/-- The methods that a type itself declares, with their numbers. -/
def methodsOf (u : CompilationUnit) (id : ClassId) : List (MethodId × Method) :=
  match u.decl? id with
  | some d => d.methodIds id
  | none => []

/-- The first method of a name that a type itself declares. -/
def declaredMethod? (u : CompilationUnit) (id : ClassId) (name : String) : Option MethodId :=
  ((u.methodsOf id).find? fun (_, m) => m.name == name).map (·.1)

/-! ## Locals -/

end CompilationUnit

/-- The locals that a declaration declares: in methods, then in field initializers, then in
initializer blocks. -/
def TypeDecl.declaredLocals (d : TypeDecl) : List LocalId :=
  d.methods.flatMap (fun m =>
      m.params.map (·.id) ++ declaredIn (Stmt.walkOption (fun _ => true) m.body))
    ++ (d.fields.flatMap (fun f => declaredIn (Expr.walkOption (fun _ => true) f.init))
      ++ d.initializers.flatMap fun i => declaredIn (Stmt.nodes i.body))

namespace CompilationUnit

/-- The largest local that is declared anywhere in the unit. -/
def maxLocal? (u : CompilationUnit) : Option LocalId :=
  (u.types.flatMap TypeDecl.declaredLocals).max?

/-! ## Names -/

/-- The simple name of a type, for messages. -/
def className (u : CompilationUnit) (id : ClassId) : String :=
  match u.decl? id with
  | some d => d.name
  | none => s!"#{id}"

mutual

/-- The text of a type with declared types by name, for messages. -/
def typeName (u : CompilationUnit) : Ty → String
  | .declared id args =>
    match typeNames u args with
    | [] => u.className id
    | names => u.className id ++ "<" ++ ", ".intercalate names ++ ">"
  | .array t => typeName u t ++ "[]"
  | .inter ts => " & ".intercalate (typeNames u ts)
  | .void => Ty.text .void
  | .null => Ty.text .null
  | .primitive k => Ty.text (.primitive k)
  | .boxed k => Ty.text (.boxed k)
  | .object => Ty.text .object
  | .string => Ty.text .string
  | .var name => name

/-- The texts of a list of types. -/
def typeNames (u : CompilationUnit) : List Ty → List String
  | [] => []
  | t :: ts => typeName u t :: typeNames u ts

end

end CompilationUnit

end Closures
