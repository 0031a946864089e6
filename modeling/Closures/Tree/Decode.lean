import Closures.Json.Reading
import Closures.Tree.Encode

/-!
# Trees out of documents

Readers for every part of a tree, the inverse of how it is written as JSON.
Types, expressions and statements are nested, so their readers take the number
of levels they may go down; the height of a document is always enough.
Expressions and statements are nested in each other: `CodeReaders` holds the
readers for all parts of code, and each level is read by the readers of the
level below it.
-/

set_option autoImplicit false

namespace Closures

open Doc (Shape Variant)
open Doc.Shape (required optional absentable defaulted)

/-! ## Types -/

namespace Doc

/-- A primitive. -/
def primitive : Doc → Reading Primitive :=
  choice (Primitive.all.map fun k => (k.tag, k))

/-- A method number. -/
def methodId : Doc → Reading MethodId :=
  record? (MethodId.mk <$> required "class" u32 <*> required "index" u32)

/-- A field number. -/
def fieldId : Doc → Reading FieldId :=
  record? (FieldId.mk <$> required "class" u32 <*> required "index" u32)

/-- A span. -/
def span : Doc → Reading Span :=
  record? (Span.mk <$> required "file_id" u32 <*> required "start" u32 <*> required "end" u32)

/-- A type, at most `n` levels deep. -/
def tyWithin : Nat → Doc → Reading Ty
  | 0 => unfit
  | n + 1 =>
    variant fun name =>
      match name with
      | "Void" => some (.plain .void)
      | "Null" => some (.plain .null)
      | "Primitive" => some (.carrying fun p => Ty.primitive <$> p.primitive)
      | "Boxed" => some (.carrying fun p => Ty.boxed <$> p.primitive)
      | "Object" => some (.plain .object)
      | "String" => some (.plain .string)
      | "Class" =>
        some (.carrying (record?
          (Ty.declared <$> required "id" u32 <*> required "args" (items (tyWithin n)))))
      | "Array" => some (.carrying fun p => Ty.array <$> tyWithin n p)
      | "TypeVar" => some (.carrying fun p => Ty.var <$> p.string)
      | "Intersection" => some (.carrying fun p => Ty.inter <$> p.items (tyWithin n))
      | _ => none

/-- A type. -/
def ty (d : Doc) : Reading Ty := tyWithin d.height d

/-- A use of a declared type. -/
def classType : Doc → Reading ClassType :=
  record? (ClassType.mk <$> required "id" u32 <*> required "args" (items ty))

/-- A type parameter. -/
def typeParam : Doc → Reading TypeParam :=
  record? (TypeParam.mk <$> required "name" string <*> optional "bound" ty)

/-! ## Expressions and statements -/

/-- A binary operator. -/
def binaryOp : Doc → Reading BinaryOp :=
  choice ([.add, .sub, .mul, .div, .rem, .bitAnd, .bitOr, .bitXor, .shl, .shr, .ushr].map
    fun op => (op.tag, op))

/-- A unary operator. -/
def unaryOp : Doc → Reading UnaryOp := choice ([.neg, .not, .bitNot].map fun op => (op.tag, op))

/-- A comparison. -/
def compareOp : Doc → Reading CompareOp :=
  choice ([.eq, .ne, .lt, .le, .gt, .ge].map fun op => (op.tag, op))

/-- A logical operator. -/
def logicalOp : Doc → Reading LogicalOp := choice ([.and, .or].map fun op => (op.tag, op))

/-- A built-in operation. -/
def intrinsicOp : Doc → Reading Intrinsic := choice ([.println].map fun op => (op.tag, op))

/-- The fields of a local variable. -/
def paramShape : Shape Param :=
  Param.mk <$> required "id" u32 <*> required "name" string <*> required "ty" ty
    <*> required "effectively_final" boolean

/-- A local variable. -/
def param : Doc → Reading Param := record? paramShape

/-- The right-hand side of a method reference. -/
def refMember : Doc → Reading RefMember :=
  variant fun name =>
    match name with
    | "Method" => some (.carrying fun p => RefMember.method <$> p.string)
    | "New" => some (.plain .new)
    | _ => none

/-- The qualifier of `this` or `super`, as the only field of a record. -/
def qualifierShape : Shape (Option ClassId) := optional "qualifier" u32

/-- Readers for the parts of code. -/
structure CodeReaders where
  expr : Doc → Reading Expr
  receiver : Doc → Reading Receiver
  lambda : Doc → Reading Lambda
  body : Doc → Reading LambdaBody
  methodRef : Doc → Reading MethodRef
  refQualifier : Doc → Reading RefQualifier
  stmt : Doc → Reading Stmt
  handler : Doc → Reading CatchClause

namespace CodeReaders

/-- Readers that no document fits. -/
def nothing : CodeReaders := ⟨unfit, unfit, unfit, unfit, unfit, unfit, unfit, unfit⟩

variable (r : CodeReaders)

/-- An expression over parts that the readers read. -/
def exprOver : Doc → Reading Expr :=
  let expr (field : String) : Shape Expr := required field r.expr
  let exprs (field : String) : Shape (List Expr) := required field (items r.expr)
  variant fun name =>
    match name with
    | "Null" => some (.plain .null)
    | "Bool" => some (.carrying fun p => Expr.bool <$> p.boolean)
    | "Int" => some (.carrying fun p => Expr.int <$> p.i32)
    | "Long" => some (.carrying fun p => Expr.long <$> p.i64)
    | "Double" => some (.carrying fun p => Expr.double <$> p.float)
    | "Char" => some (.carrying fun p => Expr.char <$> p.char)
    | "String" => some (.carrying fun p => Expr.string <$> p.string)
    | "Local" => some (.carrying fun p => Expr.localGet <$> p.u32)
    | "Assign" =>
      some (.carrying (record? (Expr.localSet <$> required "local" u32 <*> expr "value")))
    | "This" => some (.carrying (record? (Expr.this <$> qualifierShape)))
    | "FieldGet" =>
      some (.carrying (record?
        (Expr.fieldGet <$> optional "receiver" r.expr <*> required "field" fieldId)))
    | "FieldSet" =>
      some (.carrying (record?
        (Expr.fieldSet <$> optional "receiver" r.expr <*> required "field" fieldId
          <*> expr "value")))
    | "Call" =>
      some (.carrying (record?
        (Expr.call <$> required "receiver" r.receiver <*> required "method" methodId
          <*> exprs "args")))
    | "New" =>
      some (.carrying (record?
        (Expr.new <$> required "class" classType <*> optional "ctor" methodId
          <*> optional "outer" r.expr <*> exprs "args")))
    | "NewArray" =>
      some (.carrying (record? (Expr.newArray <$> required "element" ty <*> expr "length")))
    | "ArrayLiteral" =>
      some (.carrying (record? (Expr.arrayLit <$> required "element" ty <*> exprs "values")))
    | "ArrayGet" =>
      some (.carrying (record? (Expr.arrayGet <$> expr "array" <*> expr "index")))
    | "ArraySet" =>
      some (.carrying (record?
        (Expr.arraySet <$> expr "array" <*> expr "index" <*> expr "value")))
    | "ArrayLength" => some (.carrying fun p => Expr.arrayLength <$> r.expr p)
    | "Binary" =>
      some (.carrying (record?
        (Expr.binary <$> required "op" binaryOp <*> expr "left" <*> expr "right")))
    | "Compare" =>
      some (.carrying (record?
        (Expr.compare <$> required "op" compareOp <*> expr "left" <*> expr "right")))
    | "Logical" =>
      some (.carrying (record?
        (Expr.logical <$> required "op" logicalOp <*> expr "left" <*> expr "right")))
    | "Unary" =>
      some (.carrying (record? (Expr.unary <$> required "op" unaryOp <*> expr "operand")))
    | "Conditional" =>
      some (.carrying (record?
        (Expr.cond <$> expr "condition" <*> expr "then_expr" <*> expr "else_expr")))
    | "Cast" => some (.carrying (record? (Expr.cast <$> expr "expr" <*> required "ty" ty)))
    | "InstanceOf" =>
      some (.carrying (record? (Expr.instanceOf <$> expr "expr" <*> required "ty" ty)))
    | "Box" => some (.carrying (record? (Expr.box <$> expr "expr" <*> required "kind" primitive)))
    | "Unbox" =>
      some (.carrying (record? (Expr.unbox <$> expr "expr" <*> required "kind" primitive)))
    | "Convert" =>
      some (.carrying (record? (Expr.convert <$> expr "expr" <*> required "to" primitive)))
    | "NullCheck" => some (.carrying fun p => Expr.nullCheck <$> r.expr p)
    | "Intrinsic" =>
      some (.carrying (record? (Expr.intrinsic <$> required "op" intrinsicOp <*> exprs "args")))
    | "Lambda" => some (.carrying fun p => Expr.lambda <$> r.lambda p)
    | "MethodRef" => some (.carrying fun p => Expr.methodRef <$> r.methodRef p)
    | "NewClosure" =>
      some (.carrying (record? (Expr.newClosure <$> required "adapter" u32 <*> exprs "captures")))
    | "ClosureSingleton" =>
      some (.carrying (record? (Expr.singleton <$> required "adapter" u32)))
    | _ => none

/-- A receiver over such parts. -/
def receiverOver : Doc → Reading Receiver :=
  variant fun name =>
    match name with
    | "Implicit" => some (.plain .implicit)
    | "Static" => some (.plain .static)
    | "Expr" => some (.carrying fun p => Receiver.expr <$> r.expr p)
    | "Super" => some (.carrying (record? (Receiver.super <$> qualifierShape)))
    | "NonVirtual" => some (.carrying fun p => Receiver.nonVirtual <$> r.expr p)
    | _ => none

/-- A lambda over such parts. -/
def lambdaOver : Doc → Reading Lambda :=
  record?
    (Lambda.mk <$> required "params" (items param) <*> required "body" r.body
      <*> required "body_type" ty <*> required "target" ty <*> defaulted "span" .dummy span)

/-- The body of a lambda over such parts. -/
def bodyOver : Doc → Reading LambdaBody :=
  variant fun name =>
    match name with
    | "Expr" => some (.carrying fun p => LambdaBody.expr <$> r.expr p)
    | "Block" => some (.carrying fun p => LambdaBody.block <$> p.items r.stmt)
    | _ => none

/-- A method reference over such parts. -/
def methodRefOver : Doc → Reading MethodRef :=
  record?
    (MethodRef.mk <$> required "qualifier" r.refQualifier <*> required "member" refMember
      <*> defaulted "type_args" [] (items ty) <*> required "target" ty
      <*> defaulted "span" .dummy span)

/-- The left-hand side of a method reference over such parts. -/
def refQualifierOver : Doc → Reading RefQualifier :=
  variant fun name =>
    match name with
    | "Type" => some (.carrying fun p => RefQualifier.type <$> p.ty)
    | "Expr" =>
      some (.carrying (record?
        (RefQualifier.expr <$> required "expr" r.expr <*> required "ty" ty)))
    | "Super" => some (.carrying (record? (RefQualifier.super <$> qualifierShape)))
    | _ => none

/-- A statement over such parts. -/
def stmtOver : Doc → Reading Stmt :=
  let expr (field : String) : Shape Expr := required field r.expr
  let block (field : String) : Shape (List Stmt) := required field (items r.stmt)
  variant fun name =>
    match name with
    | "Let" =>
      some (.carrying (record? (Stmt.declare <$> paramShape <*> optional "init" r.expr)))
    | "Expr" => some (.carrying fun p => Stmt.expr <$> r.expr p)
    | "Return" => some (.carrying fun p => Stmt.ret <$> p.orNull r.expr)
    | "If" =>
      some (.carrying (record?
        (Stmt.cond <$> expr "condition" <*> block "then_branch"
          <*> optional "else_branch" (items r.stmt))))
    | "While" =>
      some (.carrying (record? (Stmt.whileLoop <$> expr "condition" <*> block "body")))
    | "For" =>
      some (.carrying (record?
        (Stmt.forLoop <$> block "init" <*> optional "condition" r.expr
          <*> required "update" (items r.expr) <*> block "body")))
    | "ForEach" =>
      some (.carrying (record?
        (Stmt.forEach <$> required "var" param <*> expr "iterable" <*> block "body")))
    | "Block" => some (.carrying fun p => Stmt.block <$> p.items r.stmt)
    | "Throw" => some (.carrying fun p => Stmt.raise <$> r.expr p)
    | "Try" =>
      some (.carrying (record?
        (Stmt.tryCatch <$> block "body" <*> optional "catch" r.handler
          <*> optional "finally" (items r.stmt))))
    | "Break" => some (.plain .breakLoop)
    | "Continue" => some (.plain .continueLoop)
    | _ => none

/-- A handler over such parts. -/
def handlerOver : Doc → Reading CatchClause :=
  record?
    (CatchClause.mk <$> required "param" param <*> required "body" (items r.stmt))

/-- The readers of the level above. -/
def up : CodeReaders :=
  ⟨r.exprOver, r.receiverOver, r.lambdaOver, r.bodyOver, r.methodRefOver, r.refQualifierOver,
    r.stmtOver, r.handlerOver⟩

end CodeReaders

/-- The readers of code that is at most `n` levels deep. -/
def codeWithin : Nat → CodeReaders
  | 0 => .nothing
  | n + 1 => (codeWithin n).up

/-- An expression. -/
def expr (d : Doc) : Reading Expr := (codeWithin d.height).expr d

/-- A statement. -/
def stmt (d : Doc) : Reading Stmt := (codeWithin d.height).stmt d

/-- A lambda. -/
def lambda (d : Doc) : Reading Lambda := (codeWithin d.height).lambda d

/-- A method reference. -/
def methodRef (d : Doc) : Reading MethodRef := (codeWithin d.height).methodRef d

/-! ## Declarations -/

/-- A nesting kind. -/
def typeKind : Doc → Reading TypeKind :=
  choice ([.topLevel, .member, .inBlock, .anonymous, .adapter].map fun k => (k.tag, k))

/-- A method kind. -/
def methodKind : Doc → Reading MethodKind :=
  choice ([.method, .constructor].map fun k => (k.tag, k))

/-- A creation policy. -/
def singletonInit : Doc → Reading SingletonInit :=
  choice ([.onDemand, .atStart].map fun k => (k.tag, k))

/-- What an adapter field holds. -/
def captureKind : Doc → Reading CaptureKind :=
  variant fun name =>
    match name with
    | "Local" =>
      some (.carrying (record?
        (CaptureKind.localValue <$> required "id" u32 <*> required "name" string)))
    | "EnclosingInstance" =>
      some (.carrying (record? (CaptureKind.enclosingInstance <$> required "depth" u32)))
    | "BoundReceiver" => some (.plain .boundReceiver)
    | _ => none

/-- How instances of an adapter come about. -/
def instantiation : Doc → Reading Instantiation :=
  variant fun name =>
    match name with
    | "Singleton" => some (.carrying fun p => Instantiation.singleton <$> p.singletonInit)
    | "PerEvaluation" => some (.plain .perEvaluation)
    | _ => none

/-- A field declaration. -/
def field : Doc → Reading Field :=
  record?
    (Field.mk <$> required "name" string <*> required "ty" ty <*> required "is_static" boolean
      <*> required "is_final" boolean <*> optional "init" expr)

/-- A method declaration. -/
def method : Doc → Reading Method :=
  record?
    (Method.mk <$> required "name" string <*> required "type_params" (items typeParam)
      <*> required "params" (items param) <*> required "return_type" ty
      <*> required "throws" (items ty) <*> required "kind" methodKind
      <*> required "is_static" boolean <*> required "is_abstract" boolean
      <*> required "is_default" boolean <*> required "is_varargs" boolean
      <*> optional "body" (items stmt) <*> defaulted "span" .dummy span)

/-- An initializer block. -/
def initializer : Doc → Reading Initializer :=
  record? (Initializer.mk <$> required "is_static" boolean <*> required "body" (items stmt))

/-- What an adapter records about its site. -/
def adapterInfo : Doc → Reading AdapterInfo :=
  record?
    (AdapterInfo.mk <$> required "site" span <*> required "enclosing" u32
      <*> required "functional_interface" classType <*> required "sam" string
      <*> required "markers" (items classType) <*> required "captures" (items captureKind)
      <*> optional "super_dispatch" u32 <*> required "instantiation" instantiation)

/-- A type declaration. -/
def typeDecl : Doc → Reading TypeDecl :=
  record?
    (TypeDecl.mk <$> required "id" u32 <*> required "name" string <*> required "kind" typeKind
      <*> required "is_interface" boolean <*> required "is_abstract" boolean
      <*> required "is_static" boolean <*> optional "outer" u32
      <*> required "type_params" (items typeParam) <*> optional "superclass" classType
      <*> required "interfaces" (items classType) <*> required "fields" (items field)
      <*> required "methods" (items method) <*> required "initializers" (items initializer)
      <*> absentable "adapter" adapterInfo <*> defaulted "span" .dummy span)

/-- A compilation unit. -/
def compilationUnit : Doc → Reading CompilationUnit :=
  record?
    (CompilationUnit.mk <$> required "name" string <*> absentable "source_path" string
      <*> required "types" (items typeDecl))

end Doc

end Closures
