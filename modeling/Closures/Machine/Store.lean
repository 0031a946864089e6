import Closures.Hierarchy.Nesting
import Closures.Hierarchy.Subtyping
import Closures.Machine.Number

/-!
# The store

What evaluation keeps between calls: the heap, static fields, shared closure
instances, printed lines, the depth of calls and the last serial. A `Frame` is
what one activation has to itself.

`Action` is a computation on the store, `Eval` one in a frame. Both keep what
they did when they halt, so a handler finds the frame and the store as they were
left. To halt is to fault, or to run out of the evaluation budget; only faults
can be handled.
-/

set_option autoImplicit false

namespace Closures

/-- What evaluation keeps between calls. -/
structure Store where
  heap : Heap
  statics : Table FieldId Value
  /-- The shared instance of each adapter that has been asked for it. -/
  singletons : Table ClassId Value
  /-- The printed lines, last first. -/
  printed : List String
  /-- The number of calls in progress. -/
  depth : Nat
  /-- The serial of the last instance. -/
  serial : UInt32

/-- The store before anything happened. -/
def Store.empty : Store := ⟨#[], [], [], [], 0, 0⟩

/-- The activation of a method, initializer or field initializer. -/
structure Frame where
  this : Option Ref
  locals : Table LocalId Value
deriving Inhabited

/-- The activation of static code without parameters. -/
def Frame.empty : Frame := ⟨none, []⟩

/-- A frame and the store. -/
structure Config where
  frame : Frame
  store : Store

/-- Why a computation stops without a result. -/
inductive Halt where
  | fault (fault : Fault)
  /-- The evaluation budget is used up. -/
  | exhausted

/-- A computation on the store. -/
abbrev Action (α : Type) := ExceptT Halt (StateM Store) α

/-- A computation in a frame. -/
abbrev Eval (α : Type) := ExceptT Halt (StateM Config) α

/-- Carry out an action from within a frame. -/
def Action.inFrame {α : Type} (a : Action α) : Eval α := fun ⟨frame, store⟩ =>
  let (r, s) := a store
  (r, ⟨frame, s⟩)

/-- Evaluate in a frame of its own. -/
def Eval.within {α : Type} (frame : Frame) (e : Eval α) : Action α := fun s =>
  let (r, c) := e ⟨frame, s⟩
  (r, c.store)

namespace Action

/-- Fault. -/
def fault {α : Type} (f : Fault) : Action α := throw (.fault f)

/-- The result of a pure computation. -/
def ofExcept {α : Type} : Except Fault α → Action α
  | .ok a => pure a
  | .error f => fault f

end Action

/-- Fault. -/
def Eval.fault {α : Type} (f : Fault) : Eval α := throw (.fault f)

/-- The result of a pure computation on the heap. -/
def Eval.onHeap {α : Type} (f : Heap → Except Fault α) : Eval α := do
  match f (← get).store.heap with
  | .ok a => return a
  | .error e => Eval.fault e

/-! ## Locals -/

/-- The value of a local. -/
def readLocal (id : LocalId) : Eval Value := do
  match (← get).frame.locals.get? id with
  | some v => return v
  | none => Eval.fault (.invalid (.unassignedLocal id))

/-- Set a local. -/
def writeLocal (id : LocalId) (v : Value) : Eval Unit :=
  modify fun c => { c with frame := { c.frame with locals := c.frame.locals.put id v } }

/-! ## Objects -/

/-- Put an object on the heap. -/
def newObject (o : Obj) : Action Value :=
  modifyGet fun s =>
    let place := s.heap.size
    (.ref place, { s with heap := s.heap.push o })

/-- The object of a reference that must not be null; `what` is what it is needed for. -/
def nonNull (h : Heap) (what : String) : Value → Except Fault Ref
  | .ref r => .ok r
  | .null => .error (.onNull what)
  | v => .error (.invalid (.notAnObject what (v.kindName h)))

/-- The type of an instance; `what` is the method that is looked for. -/
def instanceType (h : Heap) (what : String) (r : Ref) : Except Fault ClassId :=
  match h[r]? with
  | some (.inst type _ _ _) => .ok type
  | _ => .error (.noSuchMethod "built-in value" what)

/-- The value of a field of an object. -/
def loadField (h : Heap) (field : FieldId) (r : Ref) : Except Fault Value :=
  match h[r]? with
  | some (.inst _ _ fields _) =>
    match fields.get? field with
    | some v => .ok v
    | none => .error (.invalid (.noSuchField field))
  | _ => .error (.invalid .fieldOfBuiltIn)

/-- An object with a field set; only instances have fields. -/
def Obj.withField (field : FieldId) (v : Value) : Obj → Obj
  | .inst type serial fields outer => .inst type serial (fields.put field v) outer
  | o => o

/-- Set a field of an object. -/
def storeField (r : Ref) (field : FieldId) (v : Value) : Action Unit :=
  modify fun s => { s with heap := s.heap.modify r (Obj.withField field v) }

/-- The elements of an array. -/
def elements (h : Heap) (otherwise : Invalid) (r : Ref) : Except Fault (Array Value) :=
  match h[r]? with
  | some (.array _ vs) => .ok vs
  | _ => .error (.invalid otherwise)

/-- The place of an element that must be there. -/
def elementAt (index : Int32) (vs : Array Value) : Except Fault Nat :=
  if 0 ≤ index.toInt ∧ index.toInt < vs.size then .ok index.toInt.toNat
  else .error (.indexOutOfBounds index vs.size)

/-- An object with an array element set; only arrays have elements. -/
def Obj.withElement (i : Nat) (v : Value) : Obj → Obj
  | .array t vs => .array t (vs.setIfInBounds i v)
  | o => o

/-- Set an element of an array. -/
def storeElement (r : Ref) (i : Nat) (v : Value) : Action Unit :=
  modify fun s => { s with heap := s.heap.modify r (Obj.withElement i v) }

/-! ## Types of objects -/

mutual

/-- Whether a value is an instance of a type. -/
def isInstance (u : CompilationUnit) (h : Heap) (v : Value) : Ty → Bool
  | .inter ts =>
    match v with
    | .null | .void => false
    | _ => isInstanceOfAll u h v ts
  | .object | .var _ =>
    match v with
    | .null | .void => false
    | _ => true
  | .string =>
    match v with
    | .str _ => true
    | _ => false
  | .declared id _ =>
    match v with
    | .ref r =>
      match h[r]? with
      | some (.inst type _ _ _) => u.isSubclass type id
      | _ => false
    | _ => false
  | .boxed k =>
    match v with
    | .ref r =>
      match h[r]? with
      | some (.boxed kind _) => kind == k
      | _ => false
    | _ => false
  | .array _ =>
    match v with
    | .ref r =>
      match h[r]? with
      | some (.array _ _) => true
      | _ => false
    | _ => false
  | .void => false
  | .null => false
  | .primitive _ => false

/-- Whether a value is an instance of each type of a list. -/
def isInstanceOfAll (u : CompilationUnit) (h : Heap) (v : Value) : List Ty → Bool
  | [] => true
  | t :: ts => isInstance u h v t && isInstanceOfAll u h v ts

end

/-- The object and those around it along enclosing instances, at most `steps` links. -/
def outwardFrom (h : Heap) : Nat → Ref → List Ref
  | 0, r => [r]
  | steps + 1, r =>
    match h[r]? with
    | some (.inst _ _ _ (some outer)) => r :: outwardFrom h steps outer
    | _ => [r]

/-- Whether an object is an instance of a declared type. -/
def isInstanceOf (u : CompilationUnit) (h : Heap) (owner : ClassId) (r : Ref) : Bool :=
  match h[r]? with
  | some (.inst type _ _ _) => u.isSubclass type owner
  | _ => false

/-- The innermost of the object at hand and its enclosing instances that is an
instance of a type. -/
def enclosing (u : CompilationUnit) (h : Heap) (this : Option Ref) (owner : ClassId) :
    Except Fault Ref :=
  match this.bind fun r => (outwardFrom h h.size r).find? (isInstanceOf u h owner) with
  | some r => .ok r
  | none => .error (.invalid (.noEnclosing owner))

/-- The declaration of a type that must be there. -/
def declOf (u : CompilationUnit) (id : ClassId) : Except Fault TypeDecl :=
  match u.decl? id with
  | some d => .ok d
  | none => .error (.invalid (.unknownType id))

/-- The object that `this` or `Q.this` means. -/
def thisObject (u : CompilationUnit) (h : Heap) (this : Option Ref) (qualifier : Option ClassId) :
    Except Fault Ref := do
  let enclosingOf ←
    match qualifier with
    | some q => do if (← declOf u q).isInterface then pure none else pure (some q)
    | none => pure none
  match enclosingOf, this with
  | some q, _ => enclosing u h this q
  | none, some r => return r
  | none, none => throw (.invalid .thisInStaticContext)

/-! ## Allocation -/

/-- The superclass of a type. -/
def CompilationUnit.superclass? (u : CompilationUnit) (id : ClassId) : Option ClassId :=
  (u.decl? id).bind fun d => d.superclass.map (·.id)

/-- A type and its superclasses, nearest first. -/
def CompilationUnit.lineage (u : CompilationUnit) (id : ClassId) : List ClassId :=
  CompilationUnit.follow u.superclass? u.types.length id

/-- The fields that a declaration gives its instances, with the values they start from. -/
def TypeDecl.blankFields (d : TypeDecl) : Table FieldId Value :=
  ((d.fieldIds d.id).filter fun (_, f) => !f.isStatic).map fun (id, f) => (id, .defaultFor f.ty)

/-- The fields of a new instance of a type. -/
def blankInstance (u : CompilationUnit) (type : ClassId) : Table FieldId Value :=
  (u.lineage type).flatMap fun id => ((u.decl? id).map TypeDecl.blankFields).getD []

/-- Put a new instance on the heap. -/
def allocate (u : CompilationUnit) (type : ClassId) (outer : Option Ref) : Action Value := do
  modify fun s => { s with serial := s.serial + 1 }
  newObject (.inst type (← get).serial (blankInstance u type) outer)

/-- Print a line. -/
def printLine (line : String) : Action Unit :=
  modify fun s => { s with printed := line :: s.printed }

end Closures
