import Closures.Tree.Basic

/-!
# Replacing expressions in trees

* `Expr.replaceM` replaces expressions **bottom-up**: the children of a node first, then the node
  itself, so a replacement is not visited again. It runs in any monad, which is how a visitor can
  also count, collect or fail.
* `Stmt.mapReturnsM` changes the `return` statements of a body, outside lambdas, in order.
-/

set_option autoImplicit false

namespace Closures

section Monadic

variable {m : Type → Type} [Monad m]

mutual

/-- Replace the nodes of an expression bottom-up. -/
def Expr.replaceM (f : Expr → m Expr) : Expr → m Expr
  | .null => f .null
  | .bool b => f (.bool b)
  | .int v => f (.int v)
  | .long v => f (.long v)
  | .double v => f (.double v)
  | .char c => f (.char c)
  | .string s => f (.string s)
  | .localGet id => f (.localGet id)
  | .localSet id v => do f (.localSet id (← v.replaceM f))
  | .this q => f (.this q)
  | .fieldGet r field => do f (.fieldGet (← Expr.replaceOptionM f r) field)
  | .fieldSet r field v => do
    f (.fieldSet (← Expr.replaceOptionM f r) field (← v.replaceM f))
  | .call r method args => do
    f (.call (← r.replaceM f) method (← Expr.replaceListM f args))
  | .new t c o args => do
    f (.new t c (← Expr.replaceOptionM f o) (← Expr.replaceListM f args))
  | .newArray t n => do f (.newArray t (← n.replaceM f))
  | .arrayLit t vs => do f (.arrayLit t (← Expr.replaceListM f vs))
  | .arrayGet a i => do f (.arrayGet (← a.replaceM f) (← i.replaceM f))
  | .arraySet a i v => do
    f (.arraySet (← a.replaceM f) (← i.replaceM f) (← v.replaceM f))
  | .arrayLength a => do f (.arrayLength (← a.replaceM f))
  | .binary op l r => do f (.binary op (← l.replaceM f) (← r.replaceM f))
  | .compare op l r => do f (.compare op (← l.replaceM f) (← r.replaceM f))
  | .logical op l r => do f (.logical op (← l.replaceM f) (← r.replaceM f))
  | .unary op e => do f (.unary op (← e.replaceM f))
  | .cond c t e => do f (.cond (← c.replaceM f) (← t.replaceM f) (← e.replaceM f))
  | .cast e t => do f (.cast (← e.replaceM f) t)
  | .instanceOf e t => do f (.instanceOf (← e.replaceM f) t)
  | .box e k => do f (.box (← e.replaceM f) k)
  | .unbox e k => do f (.unbox (← e.replaceM f) k)
  | .convert e k => do f (.convert (← e.replaceM f) k)
  | .nullCheck e => do f (.nullCheck (← e.replaceM f))
  | .intrinsic op args => do f (.intrinsic op (← Expr.replaceListM f args))
  | .lambda ⟨ps, b, bt, t, s⟩ => do f (.lambda ⟨ps, ← b.replaceM f, bt, t, s⟩)
  | .methodRef ⟨q, mem, ts, t, s⟩ => do f (.methodRef ⟨← q.replaceM f, mem, ts, t, s⟩)
  | .newClosure a cs => do f (.newClosure a (← Expr.replaceListM f cs))
  | .singleton a => f (.singleton a)

/-- Replace the nodes of each expression of a list, in order. -/
def Expr.replaceListM (f : Expr → m Expr) : List Expr → m (List Expr)
  | [] => pure []
  | e :: es => do return (← e.replaceM f) :: (← Expr.replaceListM f es)

/-- Replace the nodes of an expression that may be absent. -/
def Expr.replaceOptionM (f : Expr → m Expr) : Option Expr → m (Option Expr)
  | none => pure none
  | some e => do return some (← e.replaceM f)

/-- Replace the nodes of the object that a receiver names. -/
def Receiver.replaceM (f : Expr → m Expr) : Receiver → m Receiver
  | .implicit => pure .implicit
  | .static => pure .static
  | .expr e => do return .expr (← e.replaceM f)
  | .super q => pure (.super q)
  | .nonVirtual e => do return .nonVirtual (← e.replaceM f)

/-- Replace the nodes of a lambda body. -/
def LambdaBody.replaceM (f : Expr → m Expr) : LambdaBody → m LambdaBody
  | .expr e => do return .expr (← e.replaceM f)
  | .block b => do return .block (← Stmt.replaceListM f b)

/-- Replace the nodes of the object that a reference qualifier names. -/
def RefQualifier.replaceM (f : Expr → m Expr) : RefQualifier → m RefQualifier
  | .type t => pure (.type t)
  | .expr e t => do return .expr (← e.replaceM f) t
  | .super q => pure (.super q)

/-- Replace the expressions in a statement. -/
def Stmt.replaceM (f : Expr → m Expr) : Stmt → m Stmt
  | .declare p init => do return .declare p (← Expr.replaceOptionM f init)
  | .expr e => do return .expr (← e.replaceM f)
  | .ret v => do return .ret (← Expr.replaceOptionM f v)
  | .cond c t e => do
    return .cond (← c.replaceM f) (← Stmt.replaceListM f t) (← Stmt.replaceOptionM f e)
  | .whileLoop c b => do return .whileLoop (← c.replaceM f) (← Stmt.replaceListM f b)
  | .forLoop i c u b => do
    return .forLoop (← Stmt.replaceListM f i) (← Expr.replaceOptionM f c)
      (← Expr.replaceListM f u) (← Stmt.replaceListM f b)
  | .forEach v e b => do return .forEach v (← e.replaceM f) (← Stmt.replaceListM f b)
  | .block b => do return .block (← Stmt.replaceListM f b)
  | .raise e => do return .raise (← e.replaceM f)
  | .tryCatch b c fin => do
    return .tryCatch (← Stmt.replaceListM f b) (← CatchClause.replaceOptionM f c)
      (← Stmt.replaceOptionM f fin)
  | .breakLoop => pure .breakLoop
  | .continueLoop => pure .continueLoop

/-- Replace the expressions in each statement of a list, in order. -/
def Stmt.replaceListM (f : Expr → m Expr) : List Stmt → m (List Stmt)
  | [] => pure []
  | s :: ss => do return (← s.replaceM f) :: (← Stmt.replaceListM f ss)

/-- Replace the expressions in a statement list that may be absent. -/
def Stmt.replaceOptionM (f : Expr → m Expr) : Option (List Stmt) → m (Option (List Stmt))
  | none => pure none
  | some b => do return some (← Stmt.replaceListM f b)

/-- Replace the expressions in a handler that may be absent. -/
def CatchClause.replaceOptionM (f : Expr → m Expr) : Option CatchClause → m (Option CatchClause)
  | none => pure none
  | some ⟨p, b⟩ => do return some ⟨p, ← Stmt.replaceListM f b⟩

end

/-! ## Returns -/

mutual

/-- Change the operands of the `return` statements in a statement, outside lambdas, in order. -/
def Stmt.mapReturnsM (f : Option Expr → m (Option Expr)) : Stmt → m Stmt
  | .ret v => do return .ret (← f v)
  | .cond c t e => do
    return .cond c (← Stmt.mapReturnsListM f t) (← Stmt.mapReturnsOptionM f e)
  | .whileLoop c b => do return .whileLoop c (← Stmt.mapReturnsListM f b)
  | .forLoop i c u b => do
    return .forLoop (← Stmt.mapReturnsListM f i) c u (← Stmt.mapReturnsListM f b)
  | .forEach v e b => do return .forEach v e (← Stmt.mapReturnsListM f b)
  | .block b => do return .block (← Stmt.mapReturnsListM f b)
  | .tryCatch b c fin => do
    return .tryCatch (← Stmt.mapReturnsListM f b) (← CatchClause.mapReturnsOptionM f c)
      (← Stmt.mapReturnsOptionM f fin)
  | .declare p init => pure (.declare p init)
  | .expr e => pure (.expr e)
  | .raise e => pure (.raise e)
  | .breakLoop => pure .breakLoop
  | .continueLoop => pure .continueLoop

/-- Change the operands of the `return` statements in a statement list. -/
def Stmt.mapReturnsListM (f : Option Expr → m (Option Expr)) : List Stmt → m (List Stmt)
  | [] => pure []
  | s :: ss => do return (← s.mapReturnsM f) :: (← Stmt.mapReturnsListM f ss)

/-- Change the operands of the `return` statements in a statement list that may be absent. -/
def Stmt.mapReturnsOptionM (f : Option Expr → m (Option Expr)) :
    Option (List Stmt) → m (Option (List Stmt))
  | none => pure none
  | some b => do return some (← Stmt.mapReturnsListM f b)

/-- Change the operands of the `return` statements in a handler that may be absent. -/
def CatchClause.mapReturnsOptionM (f : Option Expr → m (Option Expr)) :
    Option CatchClause → m (Option CatchClause)
  | none => pure none
  | some ⟨p, b⟩ => do return some ⟨p, ← Stmt.mapReturnsListM f b⟩

end

end Monadic

/-- Replace the nodes of an expression bottom-up. -/
def Expr.replace (f : Expr → Expr) (e : Expr) : Expr := Id.run (e.replaceM fun x => pure (f x))

/-- Replace the expressions of a statement list bottom-up. -/
def Stmt.replaceAll (f : Expr → Expr) (ss : List Stmt) : List Stmt :=
  Id.run (Stmt.replaceListM (fun x => pure (f x)) ss)

/-- Replace the nodes of a lambda body bottom-up. -/
def LambdaBody.replace (f : Expr → Expr) (b : LambdaBody) : LambdaBody :=
  Id.run (b.replaceM fun x => pure (f x))

/-- Change the operands of the `return` statements of a body, outside lambdas. -/
def Stmt.mapReturns (f : Option Expr → Option Expr) (ss : List Stmt) : List Stmt :=
  Id.run (Stmt.mapReturnsListM (fun v => pure (f v)) ss)

end Closures
