import Closures.Hierarchy.Search

/-!
# Subtyping

* `isSubclass`: reachability along superclass and interface edges, for declared types;
* `asSuper?`: a use of a type seen as a use of one of its ancestors;
* `isAssignable`: strict assignability, without boxing;
* `isLooselyAssignable`: the same with boxing and unboxing at the top.
-/

set_option autoImplicit false

namespace Closures

namespace CompilationUnit

/-- Whether a declared type is another or one of its descendants. -/
def isSubclass (u : CompilationUnit) (sub sup : ClassId) : Bool :=
  (u.ancestors sub).contains sup

/-- The declared supertypes of a use of a type, with its arguments put in. -/
def directSupertypes (u : CompilationUnit) (t : ClassType) : List ClassType :=
  match u.decl? t.id with
  | none => []
  | some d =>
    d.supertypes.map fun s =>
      ⟨s.id, Ty.substList (Bindings.ofArgs d.typeParams t.args) s.args⟩

/-- The first use of `ancestor` met on the paths of at most `steps` edges from `t`, superclass
first, each path followed to its end before the next. -/
def asSuperWithin (u : CompilationUnit) (ancestor : ClassId) : Nat → ClassType → Option ClassType
  | 0, t => if t.id = ancestor then some t else none
  | steps + 1, t =>
    if t.id = ancestor then some t
    else (u.directSupertypes t).findSome? (asSuperWithin u ancestor steps)

/-- A use of a type seen as a use of an ancestor, as a class of pairs is seen as the functions of
its two components. -/
def asSuper? (u : CompilationUnit) (t : ClassType) (ancestor : ClassId) : Option ClassType :=
  u.asSuperWithin ancestor u.types.length t

/-- Strict assignability: identity, widening of primitives, widening of references. -/
def isAssignable (u : CompilationUnit) (source target : Ty) : Bool :=
  if source = target then true
  else
    match source, target with
    | .primitive a, .primitive b => a.widensTo b
    | .primitive _, _ | _, .primitive _ => false
    | .void, _ | _, .void => false
    | s, .inter members => members.attach.all fun ⟨m, _⟩ => isAssignable u s m
    | .inter members, t => members.attach.any fun ⟨m, _⟩ => isAssignable u m t
    | _, .object | _, .var _ | .null, _ => true
    | .var _, _ => false
    | .declared a _, .declared b _ => u.isSubclass a b
    | .array a, .array b =>
      if a.isPrimitive || b.isPrimitive then a == b else isAssignable u a b
    | _, _ => false
termination_by sizeOf source + sizeOf target
decreasing_by
  all_goals simp_wf
  · have := List.sizeOf_lt_of_mem ‹m ∈ members›
    omega
  · have := List.sizeOf_lt_of_mem ‹m ∈ members›
    omega
  · omega

/-- Assignability where a primitive may be boxed and a wrapper may be unboxed. -/
def isLooselyAssignable (u : CompilationUnit) (source target : Ty) : Bool :=
  u.isAssignable source target ||
    match source, target with
    | .primitive k, t => u.isAssignable (.boxed k) t
    | .boxed k, .primitive t => k.widensTo t
    | _, _ => false

end CompilationUnit

end Closures
