import Closures.Lowering.Reference
import Closures.Tree.Replace

/-!
# Captures

A closure runs in a method of its adapter, away from its site. What it needs
from the site is found by walking its body (`CaptureSet.ofLambda`), stored in
the fields of the adapter when the site is evaluated (`CaptureSet.operands`),
and read back from there by the body (`CaptureSet.redirect`).

* Locals declared inside the body stay where they are; outer ones must be
  effectively final and are captured by value.
* `this`, members of enclosing instances and creation of inner instances capture
  an enclosing instance.
* Inner sites are lowered before the body around them is looked at, so what they
  need shows up as the operands of their construction.
-/

set_option autoImplicit false

namespace Closures

/-- A piece of outer state that a closure uses. -/
inductive Binding where
  /-- A local, copied when the site is evaluated. -/
  | localValue (id : LocalId) (name : String) (ty : Ty)
  /-- An enclosing instance, held by reference. -/
  | enclosingInstance (depth : Nat) (type : ClassId)
  /-- A field that is reached through an enclosing instance, never copied. -/
  | outerField (depth : Nat) (field : FieldId)
  /-- The type whose implementation a super call runs. -/
  | superDispatch (declaring : ClassId)
  /-- The object of a bound method reference. -/
  | boundReceiver (ty : Ty)
deriving DecidableEq, Inhabited, Repr

/-- What one field of an adapter holds. -/
inductive Slot where
  | localValue (id : LocalId) (name : String) (ty : Ty)
  | instance_ (depth : Nat) (type : ClassId)
  | receiver (ty : Ty)
deriving DecidableEq, Inhabited, Repr

namespace Slot

/-- The name of the field. -/
def fieldName : Slot → String
  | localValue _ name _ => "val$" ++ name
  | instance_ depth _ => "this$" ++ depth.repr
  | receiver _ => "receiver$"

/-- The type of the field. -/
def ty : Slot → Ty
  | localValue _ _ t | receiver t => t
  | instance_ _ type => .raw type

/-- What the adapter records about the field. -/
def captureKind : Slot → CaptureKind
  | localValue id name _ => .localValue id name
  | instance_ depth _ => .enclosingInstance depth.toUInt32
  | receiver _ => .boundReceiver

end Slot

/-- The slot that a binding needs. -/
def Binding.slot? : Binding → Option Slot
  | localValue id name t => some (.localValue id name t)
  | enclosingInstance depth type => some (.instance_ depth type)
  | boundReceiver t => some (.receiver t)
  | outerField _ _ | superDispatch _ => none

/-- The captures of a site and the slots that hold them, in order of first use, each once. -/
structure CaptureSet where
  bindings : List Binding
  slots : List Slot
deriving DecidableEq, Inhabited, Repr

/-- Append an element unless it is there. -/
def addNew {α : Type} [BEq α] (xs : List α) (x : α) : List α :=
  if xs.contains x then xs else xs ++ [x]

namespace CaptureSet

/-- No captures. -/
def empty : CaptureSet := ⟨[], []⟩

/-- Add a binding. -/
def add (c : CaptureSet) (b : Binding) : CaptureSet :=
  if c.bindings.contains b then c
  else ⟨c.bindings ++ [b], b.slot?.elim c.slots (addNew c.slots)⟩

/-- Add the enclosing instance at a depth. -/
def addInstance (c : CaptureSet) (s : Site) (depth : Nat) : CaptureSet :=
  c.add (.enclosingInstance depth (s.instanceType depth))

/-- Whether nothing is captured. -/
def isEmpty (c : CaptureSet) : Bool := c.bindings.isEmpty

/-- The slot of a local. -/
def localSlot? (c : CaptureSet) (id : LocalId) : Option Nat :=
  c.slots.findIdx? fun
    | .localValue i _ _ => i == id
    | _ => false

/-- The slot of the enclosing instance at a depth. -/
def instanceSlot? (c : CaptureSet) (depth : Nat) : Option Nat :=
  c.slots.findIdx? fun
    | .instance_ d _ => d == depth
    | _ => false

/-- The slot of the bound receiver. -/
def receiverSlot? (c : CaptureSet) : Option Nat :=
  c.slots.findIdx? fun
    | .receiver _ => true
    | _ => false

/-- The type whose implementation a super call runs. -/
def superDispatch? (c : CaptureSet) : Option ClassId :=
  c.bindings.findSome? fun
    | .superDispatch d => some d
    | _ => none

/-! ## Analysis -/

/-- Note what an expression of a closure body uses from outside; `declared` are the locals of the
closure itself. -/
def visit (s : Site) (declared : List LocalId) (c : CaptureSet) : Expr → Except Cause CaptureSet
  | .localGet id =>
    if declared.contains id then .ok c
    else
      match s.scope.lookup? id with
      | none => .error (.invisibleLocal id)
      | some p =>
        if p.effectivelyFinal then .ok (c.add (.localValue p.id p.name p.ty))
        else .error (.mutableLocal p.name)
  | .localSet id _ =>
    if declared.contains id then .ok c
    else .error (.assignedLocal (((s.scope.lookup? id).map (·.name)).getD s!"#{id}"))
  | .this q => return c.addInstance s (← s.thisDepth q)
  | .fieldGet none f | .fieldSet none f _ => do
    if (← s.field f).isStatic then return c
    let depth ← s.memberDepth f.owner
    return (c.addInstance s depth).add (.outerField depth f)
  | .call .implicit m _ => do
    if (← s.method m).isStatic then return c
    return c.addInstance s (← s.memberDepth m.owner)
  | .call (.super q) m _ => do
    let depth ← s.thisDepth q
    return (c.addInstance s depth).add (.superDispatch m.owner)
  | .new t _ none _ => do
    match ← s.creationDepth t.id with
    | some depth => return c.addInstance s depth
    | none => return c
  | .lambda _ | .methodRef _ => .error .nestedSite
  | _ => .ok c

/-- Note what a node of a closure body uses from outside. -/
def visitNode (s : Site) (declared : List LocalId) (c : CaptureSet) : Node → Except Cause CaptureSet
  | .expr e => visit s declared c e
  | .stmt _ => .ok c

/-- The captures of a lambda whose inner sites have been lowered. -/
def ofLambda (s : Site) (params : List Param) (body : LambdaBody) : Except Cause CaptureSet :=
  let nodes := body.nodes
  nodes.foldlM (visitNode s (params.map (·.id) ++ declaredIn nodes)) empty

/-- The captures that the form of a method reference implies. -/
def ofReference (s : Site) : Reference.Form → CaptureSet
  | .bound _ (.instance_ depth) => empty.addInstance s depth
  | .bound _ (.value t) => empty.add (.boundReceiver t)
  | .constructor _ _ (some depth) => empty.addInstance s depth
  | .super method depth => (empty.addInstance s depth).add (.superDispatch method.owner)
  | .static _ | .unbound _ _ | .constructor _ _ none | .newArray _ => empty

/-! ## Reading back -/

/-- Read of a slot in the method of an adapter. -/
def slotRead (adapter : ClassId) (slot : Nat) : Expr :=
  .fieldGet (some (.this none)) ⟨adapter, slot.toUInt32⟩

/-- Read of the captured enclosing instance at a depth. -/
def readInstance? (c : CaptureSet) (adapter : ClassId) (depth : Except Cause Nat) : Option Expr :=
  match depth with
  | .ok d => (c.instanceSlot? d).map (slotRead adapter)
  | .error _ => none

/-- Redirect an expression of a closure body to the fields of the adapter. -/
def redirect (s : Site) (c : CaptureSet) (adapter : ClassId) : Expr → Expr
  | .localGet id =>
    match c.localSlot? id with
    | some slot => slotRead adapter slot
    | none => .localGet id
  | .this q => (c.readInstance? adapter (s.thisDepth q)).getD (.this q)
  | .fieldGet none f =>
    if (s.unit.field? f).any (!·.isStatic) then
      .fieldGet (c.readInstance? adapter (s.memberDepth f.owner)) f
    else .fieldGet none f
  | .fieldSet none f v =>
    if (s.unit.field? f).any (!·.isStatic) then
      .fieldSet (c.readInstance? adapter (s.memberDepth f.owner)) f v
    else .fieldSet none f v
  | .call .implicit m args =>
    if (s.unit.method? m).any (!·.isStatic) then
      match c.readInstance? adapter (s.memberDepth m.owner) with
      | some object => .call (.expr object) m args
      | none => .call .implicit m args
    else .call .implicit m args
  | .call (.super q) m args =>
    match c.readInstance? adapter (s.thisDepth q) with
    | some object => .call (.nonVirtual object) m args
    | none => .call (.super q) m args
  | .new t ctor none args =>
    match s.creationDepth t.id with
    | .ok (some depth) => .new t ctor (c.readInstance? adapter (.ok depth)) args
    | .ok none | .error _ => .new t ctor none args
  | e => e

/-- Redirect a statement list to the fields of the adapter. -/
def redirectAll (s : Site) (c : CaptureSet) (adapter : ClassId) (body : List Stmt) : List Stmt :=
  Stmt.replaceAll (redirect s c adapter) body

/-- Redirect a lambda body to the fields of the adapter. -/
def redirectBody (s : Site) (c : CaptureSet) (adapter : ClassId) (body : LambdaBody) : LambdaBody :=
  body.replace (redirect s c adapter)

/-- The expression whose value fills a slot when the site is evaluated. -/
def operand (s : Site) (receiver : Option Expr) : Slot → Expr
  | .localValue id _ _ => .localGet id
  | .instance_ 0 _ => .this none
  | .instance_ depth _ => .this (some (s.instanceType depth))
  | .receiver _ => .nullCheck (receiver.getD .null)

/-- What fills the slots when the site is evaluated, in order. -/
def operands (s : Site) (c : CaptureSet) (receiver : Option Expr) : List Expr :=
  c.slots.map (operand s receiver)

end CaptureSet

end Closures
