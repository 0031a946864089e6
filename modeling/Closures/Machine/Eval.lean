import Closures.Machine.Dispatch

/-!
# Evaluation

Expressions and statements are evaluated by recursion on the tree. Where
evaluation leaves the tree, in calls and in the creation of instances, it goes
through `Calls`, so that one tree can be reasoned about without the others;
`invoke` and `construct` close the circle.

The **budget** bounds how deep calls and creations are nested, how many rounds
each loop may take and how many references the text of a value follows. It is
spent on nothing else, so two trees that make the same calls and the same rounds
need the same budget.
-/

set_option autoImplicit false

namespace Closures

/-- How a statement ends. -/
inductive Flow where
  /-- Normally. -/
  | next
  | ret (value : Value)
  | breakLoop
  | continueLoop
deriving Inhabited

/-- How evaluation leaves the tree at hand. -/
structure Calls where
  /-- Run exactly this method. -/
  invoke : MethodId → Option Ref → List Value → Action Value
  /-- Create an instance. -/
  construct : ClassId → Option MethodId → Option Ref → List Value → Action Value
  /-- The text of a value in a joined text or a printed line. -/
  text : Value → Action String
  /-- The rounds that each loop may take. -/
  rounds : Nat

/-! ## Calls -/

/-- Call a method on an object, with the implementation that its type has. -/
def callVirtual (u : CompilationUnit) (k : Calls) (object : Ref) (method : MethodId)
    (args : List Value) : Action Value := do
  let name := ((u.method? method).map (·.name)).getD ""
  let type ← Action.ofExcept (instanceType (← get).heap name object)
  match u.resolveVirtual? type method with
  | some target => k.invoke target (some object) args
  | none => Action.fault (.noSuchMethod (u.className type) name)

/-- The text of a value that is not asked for its own, following at most `steps` references. -/
def plainText (steps : Nat) (v : Value) : Action String := do
  match v.textWithin (← get).heap steps with
  | some text => return text
  | none => throw .exhausted

/-- The text of a value in a joined text or a printed line. Instances are asked
for their own; without one they are shown by name and serial. -/
def stringify (u : CompilationUnit) (invoke : MethodId → Option Ref → List Value → Action Value)
    (steps : Nat) (v : Value) : Action String := do
  match v with
  | .ref r =>
    match (← get).heap[r]? with
    | some (.inst type serial _ _) =>
      match u.findByArity? type "toString" 0 with
      | some method => do plainText steps (← invoke method (some r) [])
      | none => return s!"{u.className type}@{serial}"
    | _ => plainText steps v
  | _ => plainText steps v

/-- Join the texts of values. -/
def stringifyAll (k : Calls) : List Value → Action String
  | [] => return ""
  | v :: vs => do
    let text ← k.text v
    return text ++ (← stringifyAll k vs)

/-- Whether a value is a text. -/
def Value.isText : Value → Bool
  | .str _ => true
  | _ => false

/-- A binary operator; `add` joins texts. -/
def binaryOp (k : Calls) (op : BinaryOp) (v w : Value) : Action Value := do
  if op = .add && (v.isText || w.isText) then
    let left ← k.text v
    return .str (left ++ (← k.text w))
  else Action.ofExcept (arithmetic (← get).heap op v w)

/-! ## Closures -/

/-- Set the first fields of an object in order. -/
def fillFields (adapter : ClassId) (r : Ref) : Nat → List Value → Action Unit
  | _, [] => return ()
  | i, v :: vs => do
    storeField r ⟨adapter, i.toUInt32⟩ v
    fillFields adapter r (i + 1) vs

/-- A new instance of a capturing adapter. -/
def newClosure (u : CompilationUnit) (adapter : ClassId) (captures : List Value) : Action Value := do
  let v ← allocate u adapter none
  match v with
  | .ref r => fillFields adapter r 0 captures
  | _ => pure ()
  return v

/-- The shared instance of an adapter. -/
def singleton (u : CompilationUnit) (adapter : ClassId) : Action Value := do
  match (← get).singletons.get? adapter with
  | some v => return v
  | none => do
    let v ← allocate u adapter none
    modify fun s => { s with singletons := s.singletons.put adapter v }
    return v

/-! ## Loops -/

/-- Take rounds of a loop until one says how the loop ends. -/
def iterate : Nat → Eval (Option Flow) → Eval Flow
  | 0, _ => throw .exhausted
  | rounds + 1, round => do
    match ← round with
    | some flow => return flow
    | none => iterate rounds round

/-- How a loop ends after its body has ended so, if it does. -/
def Flow.endsLoop? : Flow → Option Flow
  | .breakLoop => some .next
  | .ret v => some (.ret v)
  | .next | .continueLoop => none

/-- Run a loop body for each value. -/
def forEachValue (body : Value → Eval Flow) : List Value → Eval Flow
  | [] => return .next
  | v :: vs => do
    match (← body v).endsLoop? with
    | some flow => return flow
    | none => forEachValue body vs

/-! ## Handlers -/

/-- Hand a thrown value to a handler. `accepts` tells which values it takes. -/
def handling (body : Eval Flow) (accepts : Heap → Value → Bool) (handler : Value → Eval Flow) :
    Eval Flow := fun c =>
  match body c with
  | (.error (.fault (.thrown v)), c') =>
    if accepts c'.store.heap v then handler v c' else (.error (.fault (.thrown v)), c')
  | r => r

/-- Go through a final block after a body, however that ended. The end of the final block counts if
it is not a normal one. -/
def finally_ (body final : Eval Flow) : Eval Flow := fun c =>
  match body c with
  | (.error .exhausted, c') => (.error .exhausted, c')
  | (outcome, c') =>
    match final c' with
    | (.ok .next, c'') => (outcome, c'')
    | r => r

/-! ## Trees -/

/-- Values of a type that can be cast to it: `null` and its instances. -/
def castTo (u : CompilationUnit) (v : Value) (t : Ty) (h : Heap) : Except Fault Value :=
  match t with
  | .primitive k => v.convert h k
  | _ =>
    if v.isNull || isInstance u h v t then .ok v else .error (.badCast (v.kindName h) t)

/-- The enclosing instance that a new instance of a type is given when none is named. -/
def implicitOuter (u : CompilationUnit) (h : Heap) (this : Option Ref) (d : TypeDecl) :
    Except Fault (Option Ref) :=
  match d.outer with
  | some owner =>
    if !d.isStatic && d.kind != .topLevel && d.kind != .adapter then
      (enclosing u h this owner).map some
    else .ok none
  | none => .ok none

mutual

/-- Evaluate an expression. -/
def evalExpr (u : CompilationUnit) (k : Calls) : Expr → Eval Value
  | .null => return .null
  | .bool b => return .bool b
  | .int v => return .int v
  | .long v => return .long v
  | .double v => return .double v
  | .char c => return .char c
  | .string s => return .str s
  | .localGet id => readLocal id
  | .localSet id e => do
    let v ← evalExpr u k e
    writeLocal id v
    return v
  | .this q => do
    let this := (← get).frame.this
    return .ref (← Eval.onHeap fun h => thisObject u h this q)
  | .fieldGet r f => do
    match (← get).store.statics.get? f with
    | some v => return v
    | none => do
      let object ← evalFieldOwner u k f r
      Eval.onHeap fun h => loadField h f object
  | .fieldSet r f e => do
    match (← get).store.statics.get? f with
    | some _ => do
      let v ← evalExpr u k e
      modify fun c => { c with store := { c.store with statics := c.store.statics.put f v } }
      return v
    | none => do
      let object ← evalFieldOwner u k f r
      let v ← evalExpr u k e
      (storeField object f v).inFrame
      return v
  | .call r m args =>
    match u.method? m with
    | none => Eval.fault (.invalid .danglingMethod)
    | some declared => evalCall u k m declared (evalExprs u k args) r
  | .new t ctor outer args => do
    let d ← Eval.onHeap fun _ => declOf u t.id
    let outer ← evalOuter u k d outer
    let args ← evalExprs u k args
    (k.construct t.id ctor outer args).inFrame
  | .newArray t e => do
    let v ← evalExpr u k e
    let length ← Eval.onHeap fun h => v.asInt h
    if length.toInt < 0 then Eval.fault (.negativeArraySize length)
    (newObject (.array t (Array.replicate length.toInt.toNat (.defaultFor t)))).inFrame
  | .arrayLit t es => do
    let vs ← evalExprs u k es
    (newObject (.array t vs.toArray)).inFrame
  | .arrayGet a i => do
    let array ← evalExpr u k a
    let i ← evalExpr u k i
    Eval.onHeap fun h => do
      let index ← i.asInt h
      let vs ← elements h .indexingNonArray (← nonNull h "array read" array)
      return vs.getD (← elementAt index vs) .null
  | .arraySet a i e => do
    let array ← evalExpr u k a
    let i ← evalExpr u k i
    let index ← Eval.onHeap fun h => i.asInt h
    let v ← evalExpr u k e
    let (object, place) ← Eval.onHeap fun h => do
      let object ← nonNull h "array write" array
      let vs ← elements h .indexingNonArray object
      return (object, ← elementAt index vs)
    (storeElement object place v).inFrame
    return v
  | .arrayLength a => do
    let array ← evalExpr u k a
    Eval.onHeap fun h => do
      let vs ← elements h .lengthOfNonArray (← nonNull h "array length" array)
      return .int (Int32.ofNat vs.size)
  | .binary op l r => do
    let v ← evalExpr u k l
    let w ← evalExpr u k r
    (binaryOp k op v w).inFrame
  | .compare op l r => do
    let v ← evalExpr u k l
    let w ← evalExpr u k r
    return .bool (← Eval.onHeap fun h => compareOp h op v w)
  | .logical op l r => do
    let v ← evalExpr u k l
    let left ← Eval.onHeap fun h => v.asBool h
    match op, left with
    | .and, false => return .bool false
    | .or, true => return .bool true
    | .and, true | .or, false => do
      let w ← evalExpr u k r
      return .bool (← Eval.onHeap fun h => w.asBool h)
  | .unary op e => do
    let v ← evalExpr u k e
    Eval.onHeap fun h => unaryOp h op v
  | .cond c t e => do
    let v ← evalExpr u k c
    if ← Eval.onHeap fun h => v.asBool h then evalExpr u k t else evalExpr u k e
  | .cast e t => do
    let v ← evalExpr u k e
    Eval.onHeap (castTo u v t)
  | .instanceOf e t => do
    let v ← evalExpr u k e
    return .bool (isInstance u (← get).store.heap v t)
  | .box e kind => do
    let v ← evalExpr u k e
    let content ← Eval.onHeap fun h => v.convert h kind
    (newObject (.boxed kind content)).inFrame
  | .unbox e kind => do
    let v ← evalExpr u k e
    Eval.onHeap fun h => do (← v.unboxed h).convert h kind
  | .convert e kind => do
    let v ← evalExpr u k e
    Eval.onHeap fun h => v.convert h kind
  | .nullCheck e => do
    let v ← evalExpr u k e
    if v.isNull then Eval.fault .nullReceiver else return v
  | .intrinsic .println args => do
    let vs ← evalExprs u k args
    (do printLine (← stringifyAll k vs) : Action Unit).inFrame
    return .void
  | .lambda _ => Eval.fault .unloweredClosure
  | .methodRef _ => Eval.fault .unloweredClosure
  | .newClosure adapter es => do
    let captures ← evalExprs u k es
    (newClosure u adapter captures).inFrame
  | .singleton adapter => (singleton u adapter).inFrame

/-- Evaluate expressions in order. -/
def evalExprs (u : CompilationUnit) (k : Calls) : List Expr → Eval (List Value)
  | [] => return []
  | e :: es => do
    let v ← evalExpr u k e
    return v :: (← evalExprs u k es)

/-- The object whose field is accessed: that of the receiver, or the innermost one that has the
field. -/
def evalFieldOwner (u : CompilationUnit) (k : Calls) (f : FieldId) : Option Expr → Eval Ref
  | some e => do
    let v ← evalExpr u k e
    Eval.onHeap fun h => nonNull h "field access" v
  | none => do
    let this := (← get).frame.this
    Eval.onHeap fun h => enclosing u h this f.owner

/-- The enclosing instance that a new instance is given. -/
def evalOuter (u : CompilationUnit) (k : Calls) (d : TypeDecl) : Option Expr → Eval (Option Ref)
  | some e => do
    let v ← evalExpr u k e
    return some (← Eval.onHeap fun h => nonNull h "inner class creation" v)
  | none => do
    let this := (← get).frame.this
    Eval.onHeap fun h => implicitOuter u h this d

/-- Evaluate a call of a declared method; `args` evaluates the arguments. -/
def evalCall (u : CompilationUnit) (k : Calls) (m : MethodId) (declared : Method)
    (args : Eval (List Value)) : Receiver → Eval Value
  | .static => do
    let vs ← args
    (k.invoke m none vs).inFrame
  | .implicit =>
    if declared.isStatic then do
      let vs ← args
      (k.invoke m none vs).inFrame
    else do
      let this := (← get).frame.this
      let object ← Eval.onHeap fun h => enclosing u h this m.owner
      let vs ← args
      (callVirtual u k object m vs).inFrame
  | .expr e => do
    let v ← evalExpr u k e
    let object ← Eval.onHeap fun h => nonNull h declared.name v
    let vs ← args
    (callVirtual u k object m vs).inFrame
  | .super q => do
    let this := (← get).frame.this
    let object ← Eval.onHeap fun h => thisObject u h this q
    let vs ← args
    (k.invoke m (some object) vs).inFrame
  | .nonVirtual e => do
    let v ← evalExpr u k e
    let object ← Eval.onHeap fun h => nonNull h declared.name v
    let vs ← args
    (k.invoke m (some object) vs).inFrame

end

/-- Evaluate an expression as a truth value. -/
def evalCondition (u : CompilationUnit) (k : Calls) (e : Expr) : Eval Bool := do
  let v ← evalExpr u k e
  Eval.onHeap fun h => v.asBool h

/-- Evaluate an expression that may be absent. -/
def evalOption (u : CompilationUnit) (k : Calls) (otherwise : Value) : Option Expr → Eval Value
  | some e => evalExpr u k e
  | none => return otherwise

mutual

/-- Execute a statement. -/
def execStmt (u : CompilationUnit) (k : Calls) : Stmt → Eval Flow
  | .declare p init => do
    writeLocal p.id (← evalOption u k (.defaultFor p.ty) init)
    return .next
  | .expr e => do
    let _ ← evalExpr u k e
    return .next
  | .ret e => return .ret (← evalOption u k .void e)
  | .cond c t e => do
    if ← evalCondition u k c then execStmts u k t else execOption u k e
  | .whileLoop c b =>
    iterate k.rounds do
      if ← evalCondition u k c then return (← execStmts u k b).endsLoop? else return some .next
  | .forLoop i c update b => do
    match ← execStmts u k i with
    | .ret v => return .ret v
    | .next | .breakLoop | .continueLoop =>
      iterate k.rounds do
        let go ←
          match c with
          | some c => evalCondition u k c
          | none => pure true
        if go then
          match (← execStmts u k b).endsLoop? with
          | some flow => return some flow
          | none => do
            let _ ← evalExprs u k update
            return none
        else return some .next
  | .forEach p e b => do
    let v ← evalExpr u k e
    let vs ← Eval.onHeap fun h => do
      elements h .forEachOverNonArray (← nonNull h "for-each" v)
    forEachValue (fun v => do writeLocal p.id v; execStmts u k b) vs.toList
  | .block b => execStmts u k b
  | .raise e => do
    let v ← evalExpr u k e
    if v.isNull then Eval.fault .throwNull else Eval.fault (.thrown v)
  | .tryCatch b handler final => execFinal u k (execHandled u k (execStmts u k b) handler) final
  | .breakLoop => return .breakLoop
  | .continueLoop => return .continueLoop

/-- Execute statements until one does not end normally. -/
def execStmts (u : CompilationUnit) (k : Calls) : List Stmt → Eval Flow
  | [] => return .next
  | s :: ss => do
    match ← execStmt u k s with
    | .next => execStmts u k ss
    | .ret v => return .ret v
    | .breakLoop => return .breakLoop
    | .continueLoop => return .continueLoop

/-- Execute statements that may be absent. -/
def execOption (u : CompilationUnit) (k : Calls) : Option (List Stmt) → Eval Flow
  | none => return .next
  | some b => execStmts u k b

/-- Execute a body under a handler that may be absent. -/
def execHandled (u : CompilationUnit) (k : Calls) (body : Eval Flow) :
    Option CatchClause → Eval Flow
  | none => body
  | some ⟨p, b⟩ =>
    handling body (fun h v => isInstance u h v p.ty) fun v => do
      writeLocal p.id v
      execStmts u k b

/-- Execute a body and a final block that may be absent. -/
def execFinal (u : CompilationUnit) (k : Calls) (body : Eval Flow) :
    Option (List Stmt) → Eval Flow
  | none => body
  | some b => finally_ body (execStmts u k b)

end

/-! ## Methods and instances -/

/-- The locals of a call: parameters with their arguments. -/
def bindParams (params : List Param) (args : List Value) : Table LocalId Value :=
  (params.zip args).foldl (fun t (p, v) => t.put p.id v) []

/-- Do an action one call deeper. -/
def oneDeeper {α : Type} (a : Action α) : Action α := fun s =>
  let (r, s') := a { s with depth := s.depth + 1 }
  (r, { s' with depth := s'.depth - 1 })

/-- Run exactly a method. -/
def runMethod (u : CompilationUnit) (k : Calls) (id : MethodId) (this : Option Ref)
    (args : List Value) : Action Value := do
  match u.method? id with
  | none => Action.fault (.invalid .danglingMethod)
  | some m =>
    match m.body with
    | none => Action.fault (.noSuchMethod (u.className id.owner) (m.name ++ " (abstract)"))
    | some body =>
      if args.length ≠ m.params.length then
        Action.fault (.invalid (.wrongArity m.name m.params.length args.length))
      else if maxCallDepth ≤ (← get).depth then Action.fault .stackOverflow
      else
        match ← oneDeeper ((execStmts u k body).within ⟨this, bindParams m.params args⟩) with
        | .ret v => return v
        | .next | .breakLoop | .continueLoop => return .void

/-- Run the initializers of some fields in order, and hand on their values. -/
def initFields (u : CompilationUnit) (k : Calls) (write : FieldId → Value → Eval Unit) :
    List (FieldId × Field) → Eval Unit
  | [] => return ()
  | (id, f) :: rest => do
    match f.init with
    | some e => write id (← evalExpr u k e)
    | none => pure ()
    initFields u k write rest

/-- Run initializer blocks in order. How they end does not matter. -/
def runInitializers (u : CompilationUnit) (k : Calls) : List Initializer → Eval Unit
  | [] => return ()
  | i :: rest => do
    let _ ← execStmts u k i.body
    runInitializers u k rest

/-- Run the field initializers and initializer blocks of a declaration, static ones or others. -/
def initDecl (u : CompilationUnit) (k : Calls) (isStatic : Bool)
    (write : FieldId → Value → Eval Unit) (d : TypeDecl) : Eval Unit := do
  initFields u k write ((d.fieldIds d.id).filter fun (_, f) => f.isStatic == isStatic)
  runInitializers u k (d.initializers.filter fun i => i.isStatic == isStatic)

/-- Run the initializers of declarations on a new instance. -/
def initInstance (u : CompilationUnit) (k : Calls) (object : Ref) : List TypeDecl → Eval Unit
  | [] => return ()
  | d :: ds => do
    initDecl u k false (fun f v => (storeField object f v).inFrame) d
    initInstance u k object ds

/-- Create an instance: field initializers and initializer blocks from the root
superclass down, then the constructor. -/
def createInstance (u : CompilationUnit) (k : Calls) (type : ClassId) (ctor : Option MethodId)
    (outer : Option Ref) (args : List Value) : Action Value := do
  let d ← Action.ofExcept (declOf u type)
  if d.isInterface || d.isAbstract then Action.fault (.invalid (.notInstantiable d.name))
  let v ← allocate u type outer
  match v with
  | .ref object => do
    let decls ← Action.ofExcept ((u.lineage type).mapM (declOf u))
    (initInstance u k object decls.reverse).within ⟨some object, []⟩
    match ctor with
    | some c => do let _ ← k.invoke c (some object) args
    | none => if !args.isEmpty then Action.fault (.invalid .implicitConstructorArgs)
    return v
  | _ => return v

mutual

/-- Run exactly a method, within a budget. -/
def invoke (u : CompilationUnit) : Nat → MethodId → Option Ref → List Value → Action Value
  | 0, _, _, _ => throw .exhausted
  | n + 1, m, this, args =>
    runMethod u ⟨invoke u n, construct u n, stringify u (invoke u n) n, n⟩ m this args

/-- Create an instance, within a budget. -/
def construct (u : CompilationUnit) :
    Nat → ClassId → Option MethodId → Option Ref → List Value → Action Value
  | 0, _, _, _, _ => throw .exhausted
  | n + 1, type, ctor, outer, args =>
    createInstance u ⟨invoke u n, construct u n, stringify u (invoke u n) n, n⟩ type ctor outer args

end

/-- How evaluation leaves a tree, within a budget. -/
def callsWithin (u : CompilationUnit) (budget : Nat) : Calls :=
  ⟨invoke u budget, construct u budget, stringify u (invoke u budget) budget, budget⟩

end Closures
