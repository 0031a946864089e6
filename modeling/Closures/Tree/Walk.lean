import Closures.Tree.Basic

/-!
# Walking trees

Three ways to enumerate the nodes of a tree:

* `Expr.walk` and `Stmt.walkAll` list statements and expressions **pre-order**, and a test on nodes
  decides below which of them the walk goes on;
* `Expr.children` lists the **direct** expression children of an expression; the body of a lambda is
  not among them;
* `Stmt.listAll` lists **statements only**, pre-order, and does not enter lambdas.

Locals are declared by declarations, for-each variables, catch parameters and lambda parameters;
`declaredIn` lists them in walk order.
-/

set_option autoImplicit false

namespace Closures

/-- A statement or an expression, as met by a walk. -/
inductive Node where
  | stmt (s : Stmt)
  | expr (e : Expr)

namespace Node

/-- A node and, if the walk goes on below it, what lies there. -/
def reach (descend : Node → Bool) (n : Node) (below : List Node) : List Node :=
  n :: if descend n then below else []

end Node

mutual

/-- The nodes of an expression, pre-order. -/
def Expr.walk (d : Node → Bool) : Expr → List Node
  | .null => Node.reach d (.expr .null) []
  | .bool b => Node.reach d (.expr (.bool b)) []
  | .int v => Node.reach d (.expr (.int v)) []
  | .long v => Node.reach d (.expr (.long v)) []
  | .double v => Node.reach d (.expr (.double v)) []
  | .char c => Node.reach d (.expr (.char c)) []
  | .string s => Node.reach d (.expr (.string s)) []
  | .localGet id => Node.reach d (.expr (.localGet id)) []
  | .localSet id v => Node.reach d (.expr (.localSet id v)) (v.walk d)
  | .this q => Node.reach d (.expr (.this q)) []
  | .fieldGet r f => Node.reach d (.expr (.fieldGet r f)) (Expr.walkOption d r)
  | .fieldSet r f v =>
    Node.reach d (.expr (.fieldSet r f v)) (Expr.walkOption d r ++ v.walk d)
  | .call r m args => Node.reach d (.expr (.call r m args)) (r.walk d ++ Expr.walkList d args)
  | .new t c o args =>
    Node.reach d (.expr (.new t c o args)) (Expr.walkOption d o ++ Expr.walkList d args)
  | .newArray t n => Node.reach d (.expr (.newArray t n)) (n.walk d)
  | .arrayLit t vs => Node.reach d (.expr (.arrayLit t vs)) (Expr.walkList d vs)
  | .arrayGet a i => Node.reach d (.expr (.arrayGet a i)) (a.walk d ++ i.walk d)
  | .arraySet a i v =>
    Node.reach d (.expr (.arraySet a i v)) (a.walk d ++ (i.walk d ++ v.walk d))
  | .arrayLength a => Node.reach d (.expr (.arrayLength a)) (a.walk d)
  | .binary op l r => Node.reach d (.expr (.binary op l r)) (l.walk d ++ r.walk d)
  | .compare op l r => Node.reach d (.expr (.compare op l r)) (l.walk d ++ r.walk d)
  | .logical op l r => Node.reach d (.expr (.logical op l r)) (l.walk d ++ r.walk d)
  | .unary op e => Node.reach d (.expr (.unary op e)) (e.walk d)
  | .cond c t e => Node.reach d (.expr (.cond c t e)) (c.walk d ++ (t.walk d ++ e.walk d))
  | .cast e t => Node.reach d (.expr (.cast e t)) (e.walk d)
  | .instanceOf e t => Node.reach d (.expr (.instanceOf e t)) (e.walk d)
  | .box e k => Node.reach d (.expr (.box e k)) (e.walk d)
  | .unbox e k => Node.reach d (.expr (.unbox e k)) (e.walk d)
  | .convert e k => Node.reach d (.expr (.convert e k)) (e.walk d)
  | .nullCheck e => Node.reach d (.expr (.nullCheck e)) (e.walk d)
  | .intrinsic op args => Node.reach d (.expr (.intrinsic op args)) (Expr.walkList d args)
  | .lambda ⟨ps, b, bt, t, s⟩ => Node.reach d (.expr (.lambda ⟨ps, b, bt, t, s⟩)) (b.walk d)
  | .methodRef ⟨q, m, ts, t, s⟩ =>
    Node.reach d (.expr (.methodRef ⟨q, m, ts, t, s⟩)) (q.walk d)
  | .newClosure a cs => Node.reach d (.expr (.newClosure a cs)) (Expr.walkList d cs)
  | .singleton a => Node.reach d (.expr (.singleton a)) []

/-- The nodes of a list of expressions, pre-order. -/
def Expr.walkList (d : Node → Bool) : List Expr → List Node
  | [] => []
  | e :: es => e.walk d ++ Expr.walkList d es

/-- The nodes of an expression that may be absent. -/
def Expr.walkOption (d : Node → Bool) : Option Expr → List Node
  | none => []
  | some e => e.walk d

/-- The nodes of the object that a receiver names. -/
def Receiver.walk (d : Node → Bool) : Receiver → List Node
  | .implicit => []
  | .static => []
  | .expr e => e.walk d
  | .super _ => []
  | .nonVirtual e => e.walk d

/-- The nodes of a lambda body. -/
def LambdaBody.walk (d : Node → Bool) : LambdaBody → List Node
  | .expr e => e.walk d
  | .block b => Stmt.walkAll d b

/-- The nodes of the object that a reference qualifier names. -/
def RefQualifier.walk (d : Node → Bool) : RefQualifier → List Node
  | .type _ => []
  | .expr e _ => e.walk d
  | .super _ => []

/-- The nodes of a statement, pre-order. -/
def Stmt.walk (d : Node → Bool) : Stmt → List Node
  | .declare p init => Node.reach d (.stmt (.declare p init)) (Expr.walkOption d init)
  | .expr e => Node.reach d (.stmt (.expr e)) (e.walk d)
  | .ret v => Node.reach d (.stmt (.ret v)) (Expr.walkOption d v)
  | .cond c t e =>
    Node.reach d (.stmt (.cond c t e)) (c.walk d ++ (Stmt.walkAll d t ++ Stmt.walkOption d e))
  | .whileLoop c b => Node.reach d (.stmt (.whileLoop c b)) (c.walk d ++ Stmt.walkAll d b)
  | .forLoop i c u b =>
    Node.reach d (.stmt (.forLoop i c u b))
      (Stmt.walkAll d i ++ (Expr.walkOption d c ++ (Expr.walkList d u ++ Stmt.walkAll d b)))
  | .forEach v e b => Node.reach d (.stmt (.forEach v e b)) (e.walk d ++ Stmt.walkAll d b)
  | .block b => Node.reach d (.stmt (.block b)) (Stmt.walkAll d b)
  | .raise e => Node.reach d (.stmt (.raise e)) (e.walk d)
  | .tryCatch b c f =>
    Node.reach d (.stmt (.tryCatch b c f))
      (Stmt.walkAll d b ++ (CatchClause.walkOption d c ++ Stmt.walkOption d f))
  | .breakLoop => Node.reach d (.stmt .breakLoop) []
  | .continueLoop => Node.reach d (.stmt .continueLoop) []

/-- The nodes of a statement list, pre-order. -/
def Stmt.walkAll (d : Node → Bool) : List Stmt → List Node
  | [] => []
  | s :: ss => s.walk d ++ Stmt.walkAll d ss

/-- The nodes of a statement list that may be absent. -/
def Stmt.walkOption (d : Node → Bool) : Option (List Stmt) → List Node
  | none => []
  | some b => Stmt.walkAll d b

/-- The nodes of a handler that may be absent. -/
def CatchClause.walkOption (d : Node → Bool) : Option CatchClause → List Node
  | none => []
  | some ⟨_, b⟩ => Stmt.walkAll d b

end

/-- All nodes of an expression, pre-order. -/
def Expr.nodes (e : Expr) : List Node := e.walk fun _ => true

/-- All nodes of a statement list, pre-order. -/
def Stmt.nodes (ss : List Stmt) : List Node := Stmt.walkAll (fun _ => true) ss

/-- All nodes of a lambda body, pre-order. -/
def LambdaBody.nodes (b : LambdaBody) : List Node := b.walk fun _ => true

/-! ## Children -/

/-- The object that a receiver names. -/
def Receiver.children : Receiver → List Expr
  | .expr e | .nonVirtual e => [e]
  | .implicit | .static | .super _ => []

/-- The object that a reference qualifier names. -/
def RefQualifier.children : RefQualifier → List Expr
  | .expr e _ => [e]
  | .type _ | .super _ => []

/-- The direct expression children, in evaluation order. The body of a lambda is evaluated
elsewhere and is not among them. -/
def Expr.children : Expr → List Expr
  | .null | .bool _ | .int _ | .long _ | .double _ | .char _ | .string _ | .localGet _ | .this _
  | .singleton _ | .lambda _ => []
  | .localSet _ v => [v]
  | .fieldGet r _ => r.toList
  | .fieldSet r _ v => r.toList ++ [v]
  | .call r _ args => r.children ++ args
  | .new _ _ o args => o.toList ++ args
  | .newArray _ n => [n]
  | .arrayLit _ vs => vs
  | .arrayGet a i => [a, i]
  | .arraySet a i v => [a, i, v]
  | .binary _ l r | .compare _ l r | .logical _ l r => [l, r]
  | .cond c t e => [c, t, e]
  | .arrayLength e | .nullCheck e | .unary _ e | .cast e _ | .instanceOf e _ | .box e _
  | .unbox e _ | .convert e _ => [e]
  | .intrinsic _ args => args
  | .methodRef site => site.qualifier.children
  | .newClosure _ cs => cs

/-! ## Statements only -/

mutual

/-- A statement and the statements nested in it, pre-order, outside lambdas. -/
def Stmt.list : Stmt → List Stmt
  | .declare p init => [.declare p init]
  | .expr e => [.expr e]
  | .ret v => [.ret v]
  | .cond c t e => .cond c t e :: (Stmt.listAll t ++ Stmt.listOption e)
  | .whileLoop c b => .whileLoop c b :: Stmt.listAll b
  | .forLoop i c u b => .forLoop i c u b :: (Stmt.listAll i ++ Stmt.listAll b)
  | .forEach v e b => .forEach v e b :: Stmt.listAll b
  | .block b => .block b :: Stmt.listAll b
  | .raise e => [.raise e]
  | .tryCatch b c f =>
    .tryCatch b c f :: (Stmt.listAll b ++ (CatchClause.listOption c ++ Stmt.listOption f))
  | .breakLoop => [.breakLoop]
  | .continueLoop => [.continueLoop]

/-- The statements of a list and those nested in them, pre-order, outside lambdas. -/
def Stmt.listAll : List Stmt → List Stmt
  | [] => []
  | s :: ss => s.list ++ Stmt.listAll ss

/-- The statements of a list that may be absent. -/
def Stmt.listOption : Option (List Stmt) → List Stmt
  | none => []
  | some b => Stmt.listAll b

/-- The statements of a handler that may be absent. -/
def CatchClause.listOption : Option CatchClause → List Stmt
  | none => []
  | some ⟨_, b⟩ => Stmt.listAll b

end

/-! ## Declared locals -/

/-- The locals that a node itself declares. -/
def Node.declared : Node → List LocalId
  | .stmt (.declare p _) => [p.id]
  | .stmt (.forEach v _ _) => [v.id]
  | .stmt (.tryCatch _ (some handler) _) => [handler.param.id]
  | .expr (.lambda site) => site.params.map (·.id)
  | _ => []

/-- The locals declared in a list of nodes, in order. -/
def declaredIn (nodes : List Node) : List LocalId := nodes.flatMap Node.declared

/-- Whether a node is a closure site. -/
def Node.isSite : Node → Bool
  | .expr e => e.isSite
  | .stmt _ => false

/-- The nodes of a declaration: field initializers, then initializer blocks, then method bodies. -/
def TypeDecl.nodes (d : TypeDecl) : List Node :=
  d.fields.flatMap (fun f => Expr.walkOption (fun _ => true) f.init)
    ++ (d.initializers.flatMap (fun i => Stmt.nodes i.body)
      ++ d.methods.flatMap fun m => Stmt.walkOption (fun _ => true) m.body)

/-- The number of closure sites in a declaration, those nested in other sites included. -/
def TypeDecl.siteCount (d : TypeDecl) : Nat := d.nodes.countP Node.isSite

end Closures
