import Closures.Ident
import Closures.Primitive

/-!
# Types

The types of the resolved tree, with

* **equality**, decided by a structural test (`Ty.beq`) that is proved lawful;
* **substitution** of type variables by name, first binding first;
* **erasure**, which forgets type arguments and sends a type variable to the erasure of its bound;
* the plain **text** of a type, in which a declared type appears by its number.

Type variables are names, so the same name may mean different things in different declarations;
every function here takes the scope it needs as an argument.
-/

set_option autoImplicit false

namespace Closures

/-- A type of the resolved tree. -/
inductive Ty where
  /-- No value; only as a result. -/
  | void
  /-- The type of the `null` literal. -/
  | null
  /-- A primitive value. -/
  | primitive (kind : Primitive)
  /-- The wrapper class of a primitive. -/
  | boxed (kind : Primitive)
  /-- The root reference type. -/
  | object
  /-- The built-in string type. -/
  | string
  /-- A class or interface of the unit, with its type arguments. -/
  | declared (id : ClassId) (args : List Ty)
  /-- An array with the given element type. -/
  | array (element : Ty)
  /-- A type variable. -/
  | var (name : String)
  /-- An intersection; only as a target type. -/
  | inter (members : List Ty)
deriving Inhabited, Repr

namespace Ty

/-! ## Equality -/

mutual

/-- Structural equality test on types. -/
def beq : Ty → Ty → Bool
  | void, void => true
  | null, null => true
  | primitive a, primitive b => a == b
  | boxed a, boxed b => a == b
  | object, object => true
  | string, string => true
  | declared a as, declared b bs => a == b && beqList as bs
  | array a, array b => beq a b
  | var a, var b => a == b
  | inter as, inter bs => beqList as bs
  | _, _ => false

/-- Structural equality test on lists of types. -/
def beqList : List Ty → List Ty → Bool
  | [], [] => true
  | a :: as, b :: bs => beq a b && beqList as bs
  | _, _ => false

end

mutual

/-- The equality test decides equality. -/
theorem beq_iff : ∀ a b : Ty, beq a b = true ↔ a = b
  | void, b => by cases b <;> simp [beq]
  | null, b => by cases b <;> simp [beq]
  | primitive _, b => by cases b <;> simp [beq]
  | boxed _, b => by cases b <;> simp [beq]
  | object, b => by cases b <;> simp [beq]
  | string, b => by cases b <;> simp [beq]
  | declared _ as, b => by
    cases b with
    | declared _ bs => simp [beq, beqList_iff as bs]
    | _ => simp [beq]
  | array a, b => by
    cases b with
    | array b => simp [beq, beq_iff a b]
    | _ => simp [beq]
  | var _, b => by cases b <;> simp [beq]
  | inter as, b => by
    cases b with
    | inter bs => simp [beq, beqList_iff as bs]
    | _ => simp [beq]

/-- The equality test on lists decides equality. -/
theorem beqList_iff : ∀ as bs : List Ty, beqList as bs = true ↔ as = bs
  | [], bs => by cases bs <;> simp [beqList]
  | a :: as, bs => by
    cases bs with
    | nil => simp [beqList]
    | cons b bs => simp [beqList, beq_iff a b, beqList_iff as bs]

end

instance : BEq Ty := ⟨beq⟩

instance : LawfulBEq Ty where
  eq_of_beq {a b} h := (beq_iff a b).1 h
  rfl {a} := (beq_iff a a).2 rfl

instance : DecidableEq Ty := fun a b => decidable_of_iff (beq a b = true) (beq_iff a b)

/-! ## Shapes -/

/-- The primitive type `int`. -/
def int : Ty := primitive .int

/-- The primitive type `boolean`. -/
def boolean : Ty := primitive .boolean

/-- A declared type without type arguments. -/
def raw (id : ClassId) : Ty := declared id []

/-- The type of a call that yields nothing. -/
def isVoid : Ty → Bool
  | void => true
  | _ => false

/-- The type of a primitive value. -/
def isPrimitive : Ty → Bool
  | primitive _ => true
  | _ => false

/-- The type of a value that may be `null`. -/
def isReference : Ty → Bool
  | void | primitive _ => false
  | _ => true

/-- The kind of a primitive type. -/
def kind? : Ty → Option Primitive
  | primitive k => some k
  | _ => none

/-- The element type of an array type. -/
def element? : Ty → Option Ty
  | array t => some t
  | _ => none

end Ty

/-- A use of a declared type: its number and its type arguments. -/
structure ClassType where
  /-- The declared type. -/
  id : ClassId
  /-- Its type arguments; none for a raw use. -/
  args : List Ty
deriving DecidableEq, Inhabited, Repr

namespace ClassType

/-- A use without type arguments. -/
def raw (id : ClassId) : ClassType := ⟨id, []⟩

/-- The use as a type. -/
def toTy (c : ClassType) : Ty := .declared c.id c.args

end ClassType

/-- A type that is a use of a declared type, seen as one. -/
def Ty.classType? : Ty → Option ClassType
  | .declared id args => some ⟨id, args⟩
  | _ => none

/-- A type parameter of a type or method. -/
structure TypeParam where
  /-- The name by which type variables refer to it. -/
  name : String
  /-- The upper bound, if one is declared. -/
  bound : Option Ty
deriving DecidableEq, Inhabited, Repr

/-- What type variables stand for, by name. The first binding of a name counts. -/
abbrev Bindings := List (String × Ty)

/-- Pair type parameters with arguments. A use with another number of arguments, such as a raw
one, binds nothing. -/
def Bindings.ofArgs (params : List TypeParam) (args : List Ty) : Bindings :=
  if params.length = args.length then (params.map (·.name)).zip args else []

namespace Ty

/-! ## Substitution -/

mutual

/-- Replace the bound type variables. -/
def subst (s : Bindings) : Ty → Ty
  | var name => (s.lookup name).getD (var name)
  | declared id args => declared id (substList s args)
  | array t => array (subst s t)
  | inter ts => inter (substList s ts)
  | void => void
  | null => null
  | primitive k => primitive k
  | boxed k => boxed k
  | object => object
  | string => string

/-- Replace the bound type variables in each type of a list. -/
def substList (s : Bindings) : List Ty → List Ty
  | [] => []
  | t :: ts => subst s t :: substList s ts

end

theorem substList_eq_map (s : Bindings) : ∀ ts : List Ty, substList s ts = ts.map (subst s)
  | [] => rfl
  | t :: ts => by simp [substList, substList_eq_map s ts]

/-! ## Erasure -/

/-- Erase a type, given what each type variable erases to. An intersection erases to its first
member. -/
def eraseWith (erased : String → Ty) : Ty → Ty
  | var name => erased name
  | declared id _ => raw id
  | array t => array (eraseWith erased t)
  | inter [] => object
  | inter (t :: _) => eraseWith erased t
  | void => void
  | null => null
  | primitive k => primitive k
  | boxed k => boxed k
  | object => object
  | string => string

/-- The bound that erasure follows for a type variable: the one declared by the first parameter of
that name, unless it is the variable itself. -/
def boundOf (params : List TypeParam) (name : String) : Option Ty :=
  match (params.find? (·.name == name)).bind (·.bound) with
  | some (var other) => if other == name then none else some (var other)
  | bound => bound

/-- What a type variable erases to, following at most `steps` bounds. -/
def eraseVar (params : List TypeParam) : Nat → String → Ty
  | 0, _ => object
  | steps + 1, name =>
    match boundOf params name with
    | some bound => bound.eraseWith (eraseVar params steps)
    | none => object

/-- Forget type arguments and replace type variables by the erasure of their bounds in `params`, or
by `object` when unbounded or unknown. A chain of bounds without repetition is no longer than
`params`, so following that many is enough. -/
def erasure (params : List TypeParam) (t : Ty) : Ty :=
  t.eraseWith (eraseVar params params.length)

/-! ## Text -/

mutual

/-- The plain text of a type, with declared types by number. -/
def text : Ty → String
  | void => "void"
  | null => "null"
  | primitive k => k.name
  | boxed k => k.boxedName
  | object => "Object"
  | string => "String"
  | declared id [] => s!"#{id}"
  | declared id args => s!"#{id}<" ++ ", ".intercalate (texts args) ++ ">"
  | array t => text t ++ "[]"
  | var name => name
  | inter ts => " & ".intercalate (texts ts)

/-- The plain texts of a list of types. -/
def texts : List Ty → List String
  | [] => []
  | t :: ts => text t :: texts ts

end

end Ty

end Closures
