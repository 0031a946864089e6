import Closures.Json.Value
import Closures.Tree.Basic

/-!
# Trees as JSON

A record is an object with all its fields, in order; an alternative is its name, or an object with
its name as the only key; absent values are `null`.
-/

set_option autoImplicit false

namespace Closures

/-- An alternative with what it carries. -/
def Json.tagged (name : String) (payload : Json) : Json := .obj [(name, payload)]

/-! ## Types -/

/-- The name of a primitive in JSON. -/
def Primitive.tag : Primitive → String
  | .boolean => "Boolean"
  | .char => "Char"
  | .byte => "Byte"
  | .short => "Short"
  | .int => "Int"
  | .long => "Long"
  | .float => "Float"
  | .double => "Double"

/-- A primitive as JSON. -/
def Primitive.toJson (k : Primitive) : Json := .str k.tag

/-- A method number as JSON. -/
def MethodId.toJson (m : MethodId) : Json := .obj [("class", .u32 m.owner), ("index", .u32 m.index)]

/-- A field number as JSON. -/
def FieldId.toJson (f : FieldId) : Json := .obj [("class", .u32 f.owner), ("index", .u32 f.index)]

/-- A span as JSON. -/
def Span.toJson (s : Span) : Json :=
  .obj [("file_id", .u32 s.file), ("start", .u32 s.start), ("end", .u32 s.stop)]

mutual

/-- A type as JSON. -/
def Ty.toJson : Ty → Json
  | .void => .str "Void"
  | .null => .str "Null"
  | .primitive k => .tagged "Primitive" k.toJson
  | .boxed k => .tagged "Boxed" k.toJson
  | .object => .str "Object"
  | .string => .str "String"
  | .declared id args => .tagged "Class" (.obj [("id", .u32 id), ("args", .arr (Ty.toJsonList args))])
  | .array t => .tagged "Array" t.toJson
  | .var name => .tagged "TypeVar" (.str name)
  | .inter ts => .tagged "Intersection" (.arr (Ty.toJsonList ts))

/-- Each type of a list as JSON. -/
def Ty.toJsonList : List Ty → List Json
  | [] => []
  | t :: ts => t.toJson :: Ty.toJsonList ts

end

/-- A list of types as JSON. -/
def Ty.listToJson (ts : List Ty) : Json := .arr (Ty.toJsonList ts)

/-- A use of a declared type as JSON. -/
def ClassType.toJson (c : ClassType) : Json :=
  .obj [("id", .u32 c.id), ("args", Ty.listToJson c.args)]

/-- A type parameter as JSON. -/
def TypeParam.toJson (p : TypeParam) : Json :=
  .obj [("name", .str p.name), ("bound", .option Ty.toJson p.bound)]

/-! ## Expressions and statements -/

/-- The name of a binary operator in JSON. -/
def BinaryOp.tag : BinaryOp → String
  | .add => "Add"
  | .sub => "Sub"
  | .mul => "Mul"
  | .div => "Div"
  | .rem => "Rem"
  | .bitAnd => "BitAnd"
  | .bitOr => "BitOr"
  | .bitXor => "BitXor"
  | .shl => "Shl"
  | .shr => "Shr"
  | .ushr => "UShr"

/-- The name of a unary operator in JSON. -/
def UnaryOp.tag : UnaryOp → String
  | .neg => "Neg"
  | .not => "Not"
  | .bitNot => "BitNot"

/-- The name of a comparison in JSON. -/
def CompareOp.tag : CompareOp → String
  | .eq => "Eq"
  | .ne => "Ne"
  | .lt => "Lt"
  | .le => "Le"
  | .gt => "Gt"
  | .ge => "Ge"

/-- The name of a logical operator in JSON. -/
def LogicalOp.tag : LogicalOp → String
  | .and => "And"
  | .or => "Or"

/-- The name of a built-in operation in JSON. -/
def Intrinsic.tag : Intrinsic → String
  | .println => "Println"

/-- The fields of a local variable. -/
def Param.fields (p : Param) : List (String × Json) :=
  [("id", .u32 p.id), ("name", .str p.name), ("ty", p.ty.toJson),
    ("effectively_final", .bool p.effectivelyFinal)]

/-- A local variable as JSON. -/
def Param.toJson (p : Param) : Json := .obj p.fields

/-- The right-hand side of a method reference as JSON. -/
def RefMember.toJson : RefMember → Json
  | .method name => .tagged "Method" (.str name)
  | .new => .str "New"

mutual

/-- An expression as JSON. -/
def Expr.toJson : Expr → Json
  | .null => .str "Null"
  | .bool b => .tagged "Bool" (.bool b)
  | .int v => .tagged "Int" (.int v.toInt)
  | .long v => .tagged "Long" (.int v.toInt)
  | .double v => .tagged "Double" (.float v)
  | .char c => .tagged "Char" (.str c.toString)
  | .string s => .tagged "String" (.str s)
  | .localGet id => .tagged "Local" (.u32 id)
  | .localSet id v => .tagged "Assign" (.obj [("local", .u32 id), ("value", v.toJson)])
  | .this q => .tagged "This" (.obj [("qualifier", .option .u32 q)])
  | .fieldGet r f =>
    .tagged "FieldGet" (.obj [("receiver", Expr.optionToJson r), ("field", f.toJson)])
  | .fieldSet r f v =>
    .tagged "FieldSet"
      (.obj [("receiver", Expr.optionToJson r), ("field", f.toJson), ("value", v.toJson)])
  | .call r m args =>
    .tagged "Call"
      (.obj [("receiver", r.toJson), ("method", m.toJson), ("args", .arr (Expr.listToJson args))])
  | .new t c o args =>
    .tagged "New"
      (.obj [("class", t.toJson), ("ctor", .option MethodId.toJson c),
        ("outer", Expr.optionToJson o), ("args", .arr (Expr.listToJson args))])
  | .newArray t n => .tagged "NewArray" (.obj [("element", t.toJson), ("length", n.toJson)])
  | .arrayLit t vs =>
    .tagged "ArrayLiteral" (.obj [("element", t.toJson), ("values", .arr (Expr.listToJson vs))])
  | .arrayGet a i => .tagged "ArrayGet" (.obj [("array", a.toJson), ("index", i.toJson)])
  | .arraySet a i v =>
    .tagged "ArraySet" (.obj [("array", a.toJson), ("index", i.toJson), ("value", v.toJson)])
  | .arrayLength a => .tagged "ArrayLength" a.toJson
  | .binary op l r =>
    .tagged "Binary" (.obj [("op", .str op.tag), ("left", l.toJson), ("right", r.toJson)])
  | .compare op l r =>
    .tagged "Compare" (.obj [("op", .str op.tag), ("left", l.toJson), ("right", r.toJson)])
  | .logical op l r =>
    .tagged "Logical" (.obj [("op", .str op.tag), ("left", l.toJson), ("right", r.toJson)])
  | .unary op e => .tagged "Unary" (.obj [("op", .str op.tag), ("operand", e.toJson)])
  | .cond c t e =>
    .tagged "Conditional"
      (.obj [("condition", c.toJson), ("then_expr", t.toJson), ("else_expr", e.toJson)])
  | .cast e t => .tagged "Cast" (.obj [("expr", e.toJson), ("ty", t.toJson)])
  | .instanceOf e t => .tagged "InstanceOf" (.obj [("expr", e.toJson), ("ty", t.toJson)])
  | .box e k => .tagged "Box" (.obj [("expr", e.toJson), ("kind", k.toJson)])
  | .unbox e k => .tagged "Unbox" (.obj [("expr", e.toJson), ("kind", k.toJson)])
  | .convert e k => .tagged "Convert" (.obj [("expr", e.toJson), ("to", k.toJson)])
  | .nullCheck e => .tagged "NullCheck" e.toJson
  | .intrinsic op args =>
    .tagged "Intrinsic" (.obj [("op", .str op.tag), ("args", .arr (Expr.listToJson args))])
  | .lambda site => .tagged "Lambda" site.toJson
  | .methodRef site => .tagged "MethodRef" site.toJson
  | .newClosure a cs =>
    .tagged "NewClosure" (.obj [("adapter", .u32 a), ("captures", .arr (Expr.listToJson cs))])
  | .singleton a => .tagged "ClosureSingleton" (.obj [("adapter", .u32 a)])

/-- Each expression of a list as JSON. -/
def Expr.listToJson : List Expr → List Json
  | [] => []
  | e :: es => e.toJson :: Expr.listToJson es

/-- An expression that may be absent as JSON. -/
def Expr.optionToJson : Option Expr → Json
  | none => .null
  | some e => e.toJson

/-- A receiver as JSON. -/
def Receiver.toJson : Receiver → Json
  | .implicit => .str "Implicit"
  | .static => .str "Static"
  | .expr e => .tagged "Expr" e.toJson
  | .super q => .tagged "Super" (.obj [("qualifier", .option .u32 q)])
  | .nonVirtual e => .tagged "NonVirtual" e.toJson

/-- A lambda as JSON. -/
def Lambda.toJson : Lambda → Json
  | ⟨ps, b, bt, t, s⟩ =>
    .obj [("params", .list Param.toJson ps), ("body", b.toJson), ("body_type", bt.toJson),
      ("target", t.toJson), ("span", s.toJson)]

/-- The body of a lambda as JSON. -/
def LambdaBody.toJson : LambdaBody → Json
  | .expr e => .tagged "Expr" e.toJson
  | .block b => .tagged "Block" (.arr (Stmt.listToJson b))

/-- A method reference as JSON. -/
def MethodRef.toJson : MethodRef → Json
  | ⟨q, m, ts, t, s⟩ =>
    .obj [("qualifier", q.toJson), ("member", m.toJson), ("type_args", Ty.listToJson ts),
      ("target", t.toJson), ("span", s.toJson)]

/-- The left-hand side of a method reference as JSON. -/
def RefQualifier.toJson : RefQualifier → Json
  | .type t => .tagged "Type" t.toJson
  | .expr e t => .tagged "Expr" (.obj [("expr", e.toJson), ("ty", t.toJson)])
  | .super q => .tagged "Super" (.obj [("qualifier", .option .u32 q)])

/-- A statement as JSON. -/
def Stmt.toJson : Stmt → Json
  | .declare p init => .tagged "Let" (.obj (p.fields ++ [("init", Expr.optionToJson init)]))
  | .expr e => .tagged "Expr" e.toJson
  | .ret v => .tagged "Return" (Expr.optionToJson v)
  | .cond c t e =>
    .tagged "If"
      (.obj [("condition", c.toJson), ("then_branch", .arr (Stmt.listToJson t)),
        ("else_branch", Stmt.optionToJson e)])
  | .whileLoop c b =>
    .tagged "While" (.obj [("condition", c.toJson), ("body", .arr (Stmt.listToJson b))])
  | .forLoop i c u b =>
    .tagged "For"
      (.obj [("init", .arr (Stmt.listToJson i)), ("condition", Expr.optionToJson c),
        ("update", .arr (Expr.listToJson u)), ("body", .arr (Stmt.listToJson b))])
  | .forEach v e b =>
    .tagged "ForEach"
      (.obj [("var", v.toJson), ("iterable", e.toJson), ("body", .arr (Stmt.listToJson b))])
  | .block b => .tagged "Block" (.arr (Stmt.listToJson b))
  | .raise e => .tagged "Throw" e.toJson
  | .tryCatch b c f =>
    .tagged "Try"
      (.obj [("body", .arr (Stmt.listToJson b)), ("catch", CatchClause.optionToJson c),
        ("finally", Stmt.optionToJson f)])
  | .breakLoop => .str "Break"
  | .continueLoop => .str "Continue"

/-- Each statement of a list as JSON. -/
def Stmt.listToJson : List Stmt → List Json
  | [] => []
  | s :: ss => s.toJson :: Stmt.listToJson ss

/-- A statement list that may be absent as JSON. -/
def Stmt.optionToJson : Option (List Stmt) → Json
  | none => .null
  | some b => .arr (Stmt.listToJson b)

/-- A handler that may be absent as JSON. -/
def CatchClause.optionToJson : Option CatchClause → Json
  | none => .null
  | some ⟨p, b⟩ => .obj [("param", p.toJson), ("body", .arr (Stmt.listToJson b))]

end

/-- A statement list as JSON. -/
def Stmt.blockToJson (b : List Stmt) : Json := .arr (Stmt.listToJson b)

/-! ## Declarations -/

/-- The name of a nesting kind in JSON. -/
def TypeKind.tag : TypeKind → String
  | .topLevel => "TopLevel"
  | .member => "Member"
  | .inBlock => "Local"
  | .anonymous => "Anonymous"
  | .adapter => "Adapter"

/-- The name of a method kind in JSON. -/
def MethodKind.tag : MethodKind → String
  | .method => "Method"
  | .constructor => "Constructor"

/-- The name of a creation policy in JSON. -/
def SingletonInit.tag : SingletonInit → String
  | .onDemand => "Lazy"
  | .atStart => "Eager"

/-- What an adapter field holds, as JSON. -/
def CaptureKind.toJson : CaptureKind → Json
  | .localValue id name => .tagged "Local" (.obj [("id", .u32 id), ("name", .str name)])
  | .enclosingInstance depth => .tagged "EnclosingInstance" (.obj [("depth", .u32 depth)])
  | .boundReceiver => .str "BoundReceiver"

/-- How instances come about, as JSON. -/
def Instantiation.toJson : Instantiation → Json
  | .singleton init => .tagged "Singleton" (.str init.tag)
  | .perEvaluation => .str "PerEvaluation"

/-- A field declaration as JSON. -/
def Field.toJson (f : Field) : Json :=
  .obj [("name", .str f.name), ("ty", f.ty.toJson), ("is_static", .bool f.isStatic),
    ("is_final", .bool f.isFinal), ("init", Expr.optionToJson f.init)]

/-- A method declaration as JSON. -/
def Method.toJson (m : Method) : Json :=
  .obj [("name", .str m.name), ("type_params", .list TypeParam.toJson m.typeParams),
    ("params", .list Param.toJson m.params), ("return_type", m.returnType.toJson),
    ("throws", Ty.listToJson m.throws), ("kind", .str m.kind.tag), ("is_static", .bool m.isStatic),
    ("is_abstract", .bool m.isAbstract), ("is_default", .bool m.isDefault),
    ("is_varargs", .bool m.isVarargs), ("body", Stmt.optionToJson m.body), ("span", m.span.toJson)]

/-- An initializer block as JSON. -/
def Initializer.toJson (i : Initializer) : Json :=
  .obj [("is_static", .bool i.isStatic), ("body", Stmt.blockToJson i.body)]

/-- What an adapter records about its site, as JSON. -/
def AdapterInfo.toJson (a : AdapterInfo) : Json :=
  .obj [("site", a.site.toJson), ("enclosing", .u32 a.enclosing),
    ("functional_interface", a.functionalInterface.toJson), ("sam", .str a.sam),
    ("markers", .list ClassType.toJson a.markers),
    ("captures", .list CaptureKind.toJson a.captures),
    ("super_dispatch", .option .u32 a.superDispatch), ("instantiation", a.instantiation.toJson)]

/-- A type declaration as JSON. -/
def TypeDecl.toJson (d : TypeDecl) : Json :=
  .obj [("id", .u32 d.id), ("name", .str d.name), ("kind", .str d.kind.tag),
    ("is_interface", .bool d.isInterface), ("is_abstract", .bool d.isAbstract),
    ("is_static", .bool d.isStatic), ("outer", .option .u32 d.outer),
    ("type_params", .list TypeParam.toJson d.typeParams),
    ("superclass", .option ClassType.toJson d.superclass),
    ("interfaces", .list ClassType.toJson d.interfaces), ("fields", .list Field.toJson d.fields),
    ("methods", .list Method.toJson d.methods),
    ("initializers", .list Initializer.toJson d.initializers),
    ("adapter", .option AdapterInfo.toJson d.adapter), ("span", d.span.toJson)]

/-- A compilation unit as JSON. -/
def CompilationUnit.toJson (u : CompilationUnit) : Json :=
  .obj [("name", .str u.name), ("source_path", .option .str u.sourcePath),
    ("types", .list TypeDecl.toJson u.types)]

end Closures
