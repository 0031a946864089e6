import Closures.Hierarchy.Subtyping

/-!
# Members

`findMethods` searches a type and its supertypes for methods of a name. A method with the same
erased parameters as one found nearer is overridden by that one and left out.
-/

set_option autoImplicit false

namespace Closures

namespace CompilationUnit

/-- The type parameters in scope for a method: those of its type, then its own. -/
def typeParamsOf (u : CompilationUnit) (id : MethodId) : List TypeParam :=
  ((u.decl? id.owner).map (·.typeParams)).getD []
    ++ ((u.method? id).map (·.typeParams)).getD []

/-- The erased parameter types of a method as it is declared. -/
def erasedParams (u : CompilationUnit) (id : MethodId) : List Ty :=
  match u.method? id with
  | some m => m.params.map fun p => p.ty.erasure (u.typeParamsOf id)
  | none => []

/-- Add a method unless one with the same erased parameters was found before. -/
def addUnlessOverridden (u : CompilationUnit) (found : List MethodId) (id : MethodId) :
    List MethodId :=
  if found.any fun f => u.erasedParams f == u.erasedParams id then found else found ++ [id]

/-- The methods of a name that a type and its supertypes declare, nearest first. -/
def methodsNamed (u : CompilationUnit) (id : ClassId) (name : String) : List MethodId :=
  (u.ancestors id).flatMap fun c =>
    ((u.methodsOf c).filter fun (_, m) => m.name == name && m.kind == .method).map (·.1)

/-- The methods of a name that can be called on a type: declared ones first, then inherited ones
that none of those overrides. -/
def findMethods (u : CompilationUnit) (id : ClassId) (name : String) : List MethodId :=
  (u.methodsNamed id name).foldl u.addUnlessOverridden []

end CompilationUnit

end Closures
