import Closures.Lowering.Adapter

/-!
# Lowering bodies

Every lambda and method reference is replaced by the construction of its
adapter.

* A site takes its number and its name before the sites inside it do.
* The sites inside a lambda are replaced before its captures are looked at, so
  that it also captures what they need.

Lowering is structural in the tree. The scope is passed down, so leaving a block
needs no clearing up; numbers, names and adapters are the state.
-/

set_option autoImplicit false

namespace Closures

namespace Lowering

/-- What lowering has used up and produced so far. -/
structure Progress where
  nextAdapter : ClassId
  nextLocal : LocalId
  naming : Naming
  /-- The adapters, last first. -/
  adapters : List TypeDecl

/-- A step of lowering. -/
abbrev Step := StateT Progress (Except LoweringError)

/-- Where lowering is. -/
structure Context where
  unit : CompilationUnit
  policy : SingletonInit
  /-- The type whose members are being lowered. -/
  owner : ClassId
  /-- The types of the enclosing instances there. -/
  chain : List ClassId

/-- Blame a failure on a site. -/
def blame {α : Type} (span : Span) : Except Cause α → Step α
  | .ok a => pure a
  | .error cause => throw ⟨cause, span⟩

/-- The scope inside declarations made in order. -/
def Scope.enter (scope : Scope) (ps : List Param) : Scope := ps.reverse ++ scope

/-- The locals that a statement declares for those after it. -/
def declares : Stmt → List Param
  | .declare p _ => [p]
  | _ => []

namespace Context

/-- A site here. -/
def site (cx : Context) (scope : Scope) : Site := ⟨cx.unit, cx.owner, cx.chain, scope⟩

/-- Take the next number and name. -/
def allocate (cx : Context) : Step (ClassId × String) := do
  let p ← get
  set { p with
    nextAdapter := p.nextAdapter + 1
    naming := p.naming.add cx.unit cx.owner }
  return (p.nextAdapter, p.naming.name cx.unit cx.owner)

/-- A new parameter. -/
def freshLocal (name : String) (ty : Ty) : Step Param := do
  let p ← get
  set { p with nextLocal := p.nextLocal + 1 }
  return ⟨p.nextLocal, name, ty, true⟩

/-- Keep the adapter of a site; what stands for the site. -/
def finish (cx : Context) (c : Closure) (operands : List Expr) : Step Expr := do
  modify fun p => { p with adapters := c.decl cx.unit cx.policy :: p.adapters }
  return c.replacement operands

end Context

/-! ## Lambdas -/

/-- The operand of a `return` in a lambda body, adapted to the method it implements. -/
def adaptReturn (u : CompilationUnit) (bodyType : Ty) (sam : FunctionalInterface) :
    Option Expr → Except Cause (Option Expr)
  | some v =>
    if sam.returnsValue then
      .ok (some (adaptValue u (adaptValue u v bodyType sam.returnType) sam.returnType
        sam.erasedReturn))
    else .error (.returnsValue sam.name)
  | none => if sam.returnsValue then .error (.returnsNothing sam.name) else .ok none

/-- The body of the method that a lambda becomes. -/
def lambdaStatements (u : CompilationUnit) (body : LambdaBody) (bodyType : Ty)
    (sam : FunctionalInterface) : Except Cause (List Stmt) :=
  match body with
  | .expr value =>
    match returnValue u value bodyType sam.returnType sam.erasedReturn with
    | some stmts => .ok stmts
    | none => .error (.lambdaWithoutValue sam.name sam.returnType)
  | .block stmts =>
    if sam.returnsValue && bodyType.isVoid then
      .error (.lambdaWithoutValue sam.name sam.returnType)
    else Stmt.mapReturnsListM (adaptReturn u bodyType sam) stmts

/-- A parameter of the method that a lambda becomes. If its type differs from the erased one, a new
parameter takes its place and its own declaration opens the body. -/
def bridgeParam (u : CompilationUnit) (p : Param) (erased instantiated : Ty) :
    Step (Param × List Stmt) :=
  if p.ty = erased then pure (p, [])
  else do
    let incoming ← Context.freshLocal p.name erased
    let value := adaptValue u (.localGet incoming.id) erased instantiated
    return (incoming, [.declare p (some (adaptValue u value instantiated p.ty))])

/-- Replace a lambda whose inner sites have been replaced. -/
def finishLambda (cx : Context) (scope : Scope) (adapter : ClassId) (name : String)
    (sam : FunctionalInterface) (l : Lambda) : Step Expr := do
  let site := cx.site scope
  let captures ← blame l.span (CaptureSet.ofLambda site l.params l.body)
  let stmts ← blame l.span (lambdaStatements cx.unit l.body l.bodyType sam)
  let bridged ← (l.params.zip (sam.erasedParams.zip sam.params)).mapM fun (p, erased, instantiated) =>
    bridgeParam cx.unit p erased instantiated
  let body := bridged.flatMap (·.2) ++ captures.redirectAll site adapter stmts
  cx.finish
    { name, adapter, enclosing := cx.owner, span := l.span, captures, sam
      params := bridged.map (·.1)
      body }
    (captures.operands site none)

/-- A lambda must have as many parameters as the method it implements. -/
def checkArity (params : List Param) (sam : FunctionalInterface) : Except Cause Unit :=
  if params.length = sam.params.length then .ok ()
  else .error (.lambdaArity params.length sam.name sam.params.length)

/-! ## Method references -/

/-- Read of a slot that must be there. -/
def readSlot (adapter : ClassId) (slot : Option Nat) : Except Cause Expr :=
  match slot with
  | some i => .ok (CaptureSet.slotRead adapter i)
  | none => .error .noCapturedInstance

/-- The call that a method reference becomes. -/
def referenceCall (u : CompilationUnit) (adapter : ClassId) (captures : CaptureSet) (r : Reference)
    (args : List (Expr × Ty)) : Except Cause Expr :=
  let built (args : List (Expr × Ty)) : List Expr := buildArguments u args r.params r.mode
  match r.form with
  | .static m => .ok (.call .static m (built args))
  | .unbound m receiver =>
    match args with
    | (first, t) :: rest =>
      .ok (.call (.expr (.nullCheck (adaptValue u first t receiver))) m (built rest))
    | [] => .error .noCapturedInstance
  | .bound m (.instance_ depth) => do
    return .call (.expr (← readSlot adapter (captures.instanceSlot? depth))) m (built args)
  | .bound m (.value _) => do
    return .call (.expr (← readSlot adapter captures.receiverSlot?)) m (built args)
  | .constructor type ctor none => .ok (.new type ctor none (built args))
  | .constructor type ctor (some depth) => do
    let outer ← readSlot adapter (captures.instanceSlot? depth)
    return .new type ctor (some outer) (built args)
  | .newArray element => .ok (.newArray element ((built args).getLastD (.int 0)))
  | .super m depth => do
    return .call (.nonVirtual (← readSlot adapter (captures.instanceSlot? depth))) m (built args)

/-- The expression whose value a bound reference runs on. -/
def receiverOf (form : Reference.Form) (qualifier : RefQualifier) : Option Expr :=
  match form, qualifier with
  | .bound _ (.value _), .expr e _ => some e
  | _, _ => none

/-- Replace a method reference in whose qualifier sites have been replaced. -/
def finishReference (cx : Context) (scope : Scope) (adapter : ClassId) (name : String)
    (sam : FunctionalInterface) (ref : MethodRef) : Step Expr := do
  let site := cx.site scope
  let r ← blame ref.span (Reference.resolve site ref sam)
  let captures := CaptureSet.ofReference site r.form
  let params ← sam.erasedParams.zipIdx.mapM fun (erased, i) =>
    Context.freshLocal ("arg" ++ i.repr) erased
  let args := (params.zip (sam.erasedParams.zip sam.params)).map fun (p, erased, instantiated) =>
    (adaptValue cx.unit (.localGet p.id) erased instantiated, instantiated)
  let call ← blame ref.span (referenceCall cx.unit adapter captures r args)
  match returnValue cx.unit call r.result sam.returnType sam.erasedReturn with
  | none => throw ⟨.referenceWithoutValue sam.name sam.returnType, ref.span⟩
  | some body =>
    cx.finish
      { name, adapter, enclosing := cx.owner, span := ref.span, captures, sam, params, body }
      (captures.operands site (receiverOf r.form ref.qualifier))

/-! ## Trees -/

mutual

/-- Replace the sites in an expression. -/
def lowerExpr (cx : Context) (scope : Scope) : Expr → Step Expr
  | .null => return .null
  | .bool b => return .bool b
  | .int v => return .int v
  | .long v => return .long v
  | .double v => return .double v
  | .char c => return .char c
  | .string s => return .string s
  | .localGet id => return .localGet id
  | .localSet id v => return .localSet id (← lowerExpr cx scope v)
  | .this q => return .this q
  | .fieldGet r f => return .fieldGet (← lowerOption cx scope r) f
  | .fieldSet r f v => do
    let r ← lowerOption cx scope r
    return .fieldSet r f (← lowerExpr cx scope v)
  | .call r m args => do
    let r ← lowerReceiver cx scope r
    return .call r m (← lowerExprs cx scope args)
  | .new t c o args => do
    let o ← lowerOption cx scope o
    return .new t c o (← lowerExprs cx scope args)
  | .newArray t n => return .newArray t (← lowerExpr cx scope n)
  | .arrayLit t vs => return .arrayLit t (← lowerExprs cx scope vs)
  | .arrayGet a i => do
    let a ← lowerExpr cx scope a
    return .arrayGet a (← lowerExpr cx scope i)
  | .arraySet a i v => do
    let a ← lowerExpr cx scope a
    let i ← lowerExpr cx scope i
    return .arraySet a i (← lowerExpr cx scope v)
  | .arrayLength a => return .arrayLength (← lowerExpr cx scope a)
  | .binary op l r => do
    let l ← lowerExpr cx scope l
    return .binary op l (← lowerExpr cx scope r)
  | .compare op l r => do
    let l ← lowerExpr cx scope l
    return .compare op l (← lowerExpr cx scope r)
  | .logical op l r => do
    let l ← lowerExpr cx scope l
    return .logical op l (← lowerExpr cx scope r)
  | .unary op e => return .unary op (← lowerExpr cx scope e)
  | .cond c t e => do
    let c ← lowerExpr cx scope c
    let t ← lowerExpr cx scope t
    return .cond c t (← lowerExpr cx scope e)
  | .cast e t => return .cast (← lowerExpr cx scope e) t
  | .instanceOf e t => return .instanceOf (← lowerExpr cx scope e) t
  | .box e k => return .box (← lowerExpr cx scope e) k
  | .unbox e k => return .unbox (← lowerExpr cx scope e) k
  | .convert e k => return .convert (← lowerExpr cx scope e) k
  | .nullCheck e => return .nullCheck (← lowerExpr cx scope e)
  | .intrinsic op args => return .intrinsic op (← lowerExprs cx scope args)
  | .lambda ⟨params, body, bodyType, target, span⟩ => do
    let (adapter, name) ← cx.allocate
    let sam ← blame span (FunctionalInterface.resolve cx.unit target)
    blame span (checkArity params sam)
    let body ← lowerBody cx (Scope.enter scope params) body
    finishLambda cx scope adapter name sam ⟨params, body, bodyType, target, span⟩
  | .methodRef ⟨qualifier, member, typeArgs, target, span⟩ => do
    let (adapter, name) ← cx.allocate
    let sam ← blame span (FunctionalInterface.resolve cx.unit target)
    let qualifier ← lowerQualifier cx scope qualifier
    finishReference cx scope adapter name sam ⟨qualifier, member, typeArgs, target, span⟩
  | .newClosure a cs => return .newClosure a (← lowerExprs cx scope cs)
  | .singleton a => return .singleton a

/-- Replace the sites in each expression of a list, in order. -/
def lowerExprs (cx : Context) (scope : Scope) : List Expr → Step (List Expr)
  | [] => return []
  | e :: es => do
    let e ← lowerExpr cx scope e
    return e :: (← lowerExprs cx scope es)

/-- Replace the sites in an expression that may be absent. -/
def lowerOption (cx : Context) (scope : Scope) : Option Expr → Step (Option Expr)
  | none => return none
  | some e => return some (← lowerExpr cx scope e)

/-- Replace the sites in the object that a receiver names. -/
def lowerReceiver (cx : Context) (scope : Scope) : Receiver → Step Receiver
  | .implicit => return .implicit
  | .static => return .static
  | .expr e => return .expr (← lowerExpr cx scope e)
  | .super q => return .super q
  | .nonVirtual e => return .nonVirtual (← lowerExpr cx scope e)

/-- Replace the sites in a lambda body. -/
def lowerBody (cx : Context) (scope : Scope) : LambdaBody → Step LambdaBody
  | .expr e => return .expr (← lowerExpr cx scope e)
  | .block b => return .block (← lowerStmts cx scope b)

/-- Replace the sites in the object that a reference qualifier names. -/
def lowerQualifier (cx : Context) (scope : Scope) : RefQualifier → Step RefQualifier
  | .type t => return .type t
  | .expr e t => return .expr (← lowerExpr cx scope e) t
  | .super q => return .super q

/-- Replace the sites in a statement. -/
def lowerStmt (cx : Context) (scope : Scope) : Stmt → Step Stmt
  | .declare p init => return .declare p (← lowerOption cx scope init)
  | .expr e => return .expr (← lowerExpr cx scope e)
  | .ret v => return .ret (← lowerOption cx scope v)
  | .cond c t e => do
    let c ← lowerExpr cx scope c
    let t ← lowerStmts cx scope t
    return .cond c t (← lowerBlock cx scope e)
  | .whileLoop c b => do
    let c ← lowerExpr cx scope c
    return .whileLoop c (← lowerStmts cx scope b)
  | .forLoop i c u b => do
    let inner := Scope.enter scope (i.flatMap declares)
    let i ← lowerStmts cx scope i
    let c ← lowerOption cx inner c
    let u ← lowerExprs cx inner u
    return .forLoop i c u (← lowerStmts cx inner b)
  | .forEach v e b => do
    let e ← lowerExpr cx scope e
    return .forEach v e (← lowerStmts cx (Scope.enter scope [v]) b)
  | .block b => return .block (← lowerStmts cx scope b)
  | .raise e => return .raise (← lowerExpr cx scope e)
  | .tryCatch b c f => do
    let b ← lowerStmts cx scope b
    let c ← lowerHandler cx scope c
    return .tryCatch b c (← lowerBlock cx scope f)
  | .breakLoop => return .breakLoop
  | .continueLoop => return .continueLoop

/-- Replace the sites in a statement list, in which each declaration is seen by those after it. -/
def lowerStmts (cx : Context) (scope : Scope) : List Stmt → Step (List Stmt)
  | [] => return []
  | s :: ss => do
    let t ← lowerStmt cx scope s
    return t :: (← lowerStmts cx (Scope.enter scope (declares s)) ss)

/-- Replace the sites in a statement list that may be absent. -/
def lowerBlock (cx : Context) (scope : Scope) : Option (List Stmt) → Step (Option (List Stmt))
  | none => return none
  | some b => return some (← lowerStmts cx scope b)

/-- Replace the sites in a handler that may be absent. -/
def lowerHandler (cx : Context) (scope : Scope) : Option CatchClause → Step (Option CatchClause)
  | none => return none
  | some ⟨p, b⟩ => return some ⟨p, ← lowerStmts cx (Scope.enter scope [p]) b⟩

end

end Lowering

end Closures
