import Closures.Hierarchy.Subtyping

/-!
# Adapting values

Glue between the signature that a functional interface asks for and the signature of what a closure
runs: boxing, unboxing and conversion of single values (`adaptValue`), fitting of argument lists to
parameter lists in three phases (`applicable?`), packing of a variadic tail (`buildArguments`).
-/

set_option autoImplicit false

namespace Closures

/-- Convert between primitives, if they differ. -/
def Expr.convertFrom (e : Expr) (source target : Primitive) : Expr :=
  if source = target then e else .convert e target

/-- Turn a value of one type into one that can be used as another. -/
def adaptValue (u : CompilationUnit) (e : Expr) (source target : Ty) : Expr :=
  if source = target || target.isVoid || source.isVoid then e
  else
    match source, target with
    | .primitive a, .primitive b => e.convertFrom a b
    | .primitive a, .boxed b => .box (e.convertFrom a b) b
    | .primitive a, _ => .box e a
    | .boxed a, .primitive b => (Expr.unbox e a).convertFrom a b
    | _, .primitive b => .unbox (.cast e (.boxed b)) b
    | _, _ => if u.isAssignable source target then e else .cast e target

/-- How arguments are passed. -/
inductive ArgMode where
  /-- One for each parameter. -/
  | fixed
  /-- From position `count` on they are packed into an array. -/
  | variadic (count : Nat) (element : Ty)
deriving DecidableEq, Inhabited, Repr

/-- The phases of applicability, of which the first that yields a method decides. -/
inductive Phase where
  /-- Widening only. -/
  | strict
  /-- Boxing and unboxing too. -/
  | loose
  /-- A variable number of arguments too. -/
  | variadic
deriving DecidableEq, Inhabited, Repr

/-- The phases in order. -/
def Phase.all : List Phase := [.strict, .loose, .variadic]

/-- Whether an argument fits a parameter in a phase. -/
def Phase.fits (u : CompilationUnit) : Phase → Ty → Ty → Bool
  | .strict, a, p => u.isAssignable a p
  | .loose, a, p | .variadic, a, p => u.isLooselyAssignable a p

/-- Whether two lists are equally long and related element by element. -/
def allMatch {α β : Type} (r : α → β → Bool) : List α → List β → Bool
  | [], [] => true
  | a :: as, b :: bs => r a b && allMatch r as bs
  | _, _ => false

/-- How a method with these parameter types takes these arguments in a phase, if it does. -/
def applicable? (u : CompilationUnit) (isVarargs : Bool) (params args : List Ty) (phase : Phase) :
    Option ArgMode :=
  match phase with
  | .strict | .loose => if allMatch (phase.fits u) args params then some .fixed else none
  | .variadic =>
    if !isVarargs then none
    else do
      let last ← params.getLast?
      let element ← last.element?
      let leading := params.dropLast
      if leading.length ≤ args.length
          && allMatch (phase.fits u) (args.take leading.length) leading
          && (args.drop leading.length).all (phase.fits u · element) then
        some (.variadic leading.length element)
      else none

/-- Whether every parameter of one list can be used as the matching one of another. -/
def moreSpecific (u : CompilationUnit) (a b : List Ty) : Bool := allMatch u.isAssignable a b

/-- Adapt values to the types they are matched with; surplus ones on either side are dropped. -/
def adaptEach (u : CompilationUnit) : List (Expr × Ty) → List Ty → List Expr
  | (e, t) :: args, p :: params => adaptValue u e t p :: adaptEach u args params
  | _, _ => []

/-- Adapt typed arguments to parameters, packing a variadic tail. A leading argument that has no
parameter belongs to the tail. -/
def buildArguments (u : CompilationUnit) (args : List (Expr × Ty)) (params : List Ty) :
    ArgMode → List Expr
  | .fixed => adaptEach u args params
  | .variadic count element =>
    let leading := min count params.length
    adaptEach u (args.take leading) params
      ++ [.arrayLit element ((args.drop leading).map fun (e, t) => adaptValue u e t element)]

/-- The statements that end a method with a value of type `result`, for a method that returns
`instantiated` and is declared to return `erased`. None when a value is due and there is none. -/
def returnValue (u : CompilationUnit) (value : Expr) (result instantiated erased : Ty) :
    Option (List Stmt) :=
  if instantiated.isVoid then some [.expr value]
  else if result.isVoid then none
  else
    some [.ret (some (adaptValue u (adaptValue u value result instantiated) instantiated erased))]

end Closures
