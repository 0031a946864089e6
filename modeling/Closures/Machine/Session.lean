import Closures.Machine.Eval

/-!
# Sessions

A session runs a unit from outside: `start` prepares the store, then methods are
run and called on it in any order. A fault ends the step in which it arises and
leaves the store as it was at that moment.
-/

set_option autoImplicit false

namespace Closures

namespace Session

/-- Whether the shared instance of an adapter is created when the program starts. -/
def isEager (d : TypeDecl) : Bool :=
  d.adapter.any fun a => a.instantiation == .singleton .atStart

/-- The static fields of a unit with the values they start from. -/
def blankStatics (u : CompilationUnit) : Table FieldId Value :=
  u.types.flatMap fun d =>
    ((d.fieldIds d.id).filter fun (_, f) => f.isStatic).map fun (id, f) => (id, .defaultFor f.ty)

/-- Create the shared instances that are due when the program starts. -/
def createEager (u : CompilationUnit) : List TypeDecl → Action Unit
  | [] => return ()
  | d :: ds => do
    if isEager d then
      let v ← allocate u d.id none
      modify fun s => { s with singletons := s.singletons.put d.id v }
    createEager u ds

/-- Set a static field. -/
def writeStatic (id : FieldId) (v : Value) : Eval Unit :=
  modify fun c => { c with store := { c.store with statics := c.store.statics.put id v } }

/-- Run the static initializers of declarations, each in a frame of its own. -/
def initStatics (u : CompilationUnit) (k : Calls) : List TypeDecl → Action Unit
  | [] => return ()
  | d :: ds => do
    (initDecl u k true writeStatic d).within Frame.empty
    initStatics u k ds

/-- A budget that no program in use reaches. -/
def ample : Nat := 1000000000

/-- Prepare the store: shared instances that are due, static fields, then static
initializers in order of the declarations. -/
def start (u : CompilationUnit) (budget : Nat) : Action Unit := do
  createEager u u.types
  modify fun s => { s with statics := blankStatics u }
  initStatics u (callsWithin u budget) u.types

/-- Run a static method, by names. -/
def run (u : CompilationUnit) (budget : Nat) (type method : String) (args : List Value) :
    Action Value :=
  match (u.findType? type).bind fun c => u.declaredMethod? c method with
  | some id => invoke u budget id none args
  | none => Action.fault (.noSuchMethod type method)

/-- Call a method on a value, by name and number of arguments. -/
def call (u : CompilationUnit) (budget : Nat) (receiver : Value) (name : String)
    (args : List Value) : Action Value := do
  let h := (← get).heap
  let object ← Action.ofExcept (nonNull h name receiver)
  let type ← Action.ofExcept (instanceType h name object)
  match u.findByArity? type name args.length with
  | some id => invoke u budget id (some object) args
  | none => Action.fault (.noSuchMethod (u.className type) name)

/-- The value of a static field, by names. -/
def staticField? (u : CompilationUnit) (s : Store) (type name : String) : Option Value := do
  let c ← u.findType? type
  let d ← u.decl? c
  let (id, _) ← (d.fieldIds c).find? fun (_, f) => f.isStatic && f.name == name
  s.statics.get? id

/-- The printed lines, in order. -/
def output (s : Store) : List String := s.printed.reverse

/-- The store with the printed lines taken away. -/
def clearOutput (s : Store) : Store := { s with printed := [] }

end Session

end Closures
