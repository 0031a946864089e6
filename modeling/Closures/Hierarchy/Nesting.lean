import Closures.Hierarchy.Lookup

/-!
# Nesting

Types are nested through their `outer` links. Following them from a type meets each declaration at
most once when the links do not run in a circle, so a walk outwards takes at most as many steps as
there are declarations, and one more for a link that leads to no declaration.

* `outward` lists a type and the types around it;
* `enclosingChain` lists the types whose instances code in a type can reach;
* `qualifiedPath` joins the names along the way.
-/

set_option autoImplicit false

namespace Closures

namespace CompilationUnit

/-- The type around a type. -/
def outer? (u : CompilationUnit) (id : ClassId) : Option ClassId :=
  (u.decl? id).bind (·.outer)

/-- Follow a link from a type, at most `steps` times; what is met, the start first. -/
def follow (link : ClassId → Option ClassId) : Nat → ClassId → List ClassId
  | 0, id => [id]
  | steps + 1, id =>
    match link id with
    | some next => id :: follow link steps next
    | none => [id]

/-- A type and the types around it, innermost first. -/
def outward (u : CompilationUnit) (id : ClassId) : List ClassId :=
  follow u.outer? u.types.length id

/-- The outermost type around a type. -/
def topLevel (u : CompilationUnit) (id : ClassId) : ClassId :=
  (u.outward id).getLastD id

/-- Whether the number is that of a named type. -/
def isNamed (u : CompilationUnit) (id : ClassId) : Bool :=
  (u.decl? id).any (·.kind.isNamed)

/-- The innermost type around a type, or itself, that is a named one; the outermost if there is
none. -/
def nearestNamed (u : CompilationUnit) (id : ClassId) : ClassId :=
  ((u.outward id).find? u.isNamed).getD (u.topLevel id)

/-- Names joined with `_` along the nesting, for at most `steps` links. The name of an adapter is
qualified already. -/
def pathWithin (u : CompilationUnit) : Nat → ClassId → String
  | 0, id => u.className id
  | steps + 1, id =>
    match u.decl? id with
    | none => s!"#{id}"
    | some d =>
      match d.kind, d.outer with
      | .topLevel, _ | .adapter, _ | _, none => d.name
      | _, some outer => pathWithin u steps outer ++ "_" ++ d.name

/-- The names of a type and the types around it joined with `_`, outermost first. -/
def qualifiedPath (u : CompilationUnit) (id : ClassId) : String :=
  u.pathWithin u.types.length id

/-- The type of the enclosing instance that instances of a type carry. -/
def carrier? (u : CompilationUnit) (id : ClassId) : Option ClassId :=
  (u.decl? id).bind fun d =>
    if !d.isStatic && d.kind != .topLevel then d.outer else none

/-- The types whose instances code in `id` can reach: at depth 0 the type itself, at each further
depth the type of the enclosing instance. A static context reaches none. -/
def enclosingChain (u : CompilationUnit) (id : ClassId) (isStatic : Bool) : List ClassId :=
  if isStatic then [] else follow u.carrier? u.types.length id

end CompilationUnit

end Closures
