import Closures.Hierarchy.Lookup

/-!
# Breadth-first search

`breadthFirst` lists what can be reached along edges, nearest first, and each
key once. It is the one search behind subtyping, member lookup and the
collection of abstract methods.

Every step takes one entry off the queue. Only the first entry of a key adds
entries, so the steps never outnumber the starting entries and the edges
together; that many are given.
-/

set_option autoImplicit false

namespace Closures

/-- What the entries of a queue lead to in at most `steps` steps: nearest first, each key once, and
nothing with a key that was `seen`. -/
def breadthFirst {α κ : Type} [BEq κ] (key : α → κ) (next : α → List α) :
    Nat → List α → List κ → List α
  | 0, _, _ => []
  | _ + 1, [], _ => []
  | steps + 1, x :: queue, seen =>
    if seen.contains (key x) then breadthFirst key next steps queue seen
    else x :: breadthFirst key next steps (queue ++ next x) (key x :: seen)

/-- The declared supertypes: the superclass, then the interfaces. -/
def TypeDecl.supertypes (d : TypeDecl) : List ClassType := d.superclass.toList ++ d.interfaces

namespace CompilationUnit

/-- The declared supertypes of a type, by number. -/
def supertypesOf (u : CompilationUnit) (id : ClassId) : List ClassId :=
  match u.decl? id with
  | some d => d.supertypes.map (·.id)
  | none => []

/-- The number of supertype edges of the unit. -/
def edgeCount (u : CompilationUnit) : Nat := (u.types.flatMap (·.supertypes)).length

/-- A type and its supertypes, nearest first, each once. -/
def ancestors (u : CompilationUnit) (id : ClassId) : List ClassId :=
  breadthFirst (fun i => i) u.supertypesOf (u.edgeCount + 1) [id] []

end CompilationUnit

end Closures
