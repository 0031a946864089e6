import Mathlib.Data.List.Forall2
import Closures.Machine.Session

/-!
# What evaluation sees of a unit

The record that an adapter keeps about its site plays no part in evaluation, but
for what the start of a session creates. A unit without these records is
**bare**. Lookups, hierarchy and dispatch are the same in a unit and in the bare
one, so they are the same in any two units that have the same code.
-/

set_option autoImplicit false

namespace Closures

/-- A declaration without what it records about a site. -/
def TypeDecl.bare (d : TypeDecl) : TypeDecl := { d with adapter := none }

namespace CompilationUnit

variable (u : CompilationUnit)

/-- A unit without what its adapters record. -/
def bare : CompilationUnit := { u with types := u.types.map TypeDecl.bare }

/-! ## Lookups -/

@[simp] theorem decl?_bare (id : ClassId) : u.bare.decl? id = (u.decl? id).map TypeDecl.bare := by
  simp [decl?, bare]

@[simp] theorem method?_bare : u.bare.method? = u.method? := by
  funext id
  cases h : u.decl? id.owner <;> simp [method?, h, TypeDecl.bare]

@[simp] theorem methodsOf_bare : u.bare.methodsOf = u.methodsOf := by
  funext id
  cases h : u.decl? id <;> simp [methodsOf, h, TypeDecl.bare, TypeDecl.methodIds]

@[simp] theorem className_bare : u.bare.className = u.className := by
  funext id
  cases h : u.decl? id <;> simp [className, h, TypeDecl.bare]

theorem findType?_bare : u.bare.findType? = u.findType? := by
  funext name
  simp only [findType?, bare, List.find?_map, Option.map_map]
  rfl

theorem declaredMethod?_bare : u.bare.declaredMethod? = u.declaredMethod? := by
  funext id name
  simp [declaredMethod?]

/-! ## Hierarchy -/

@[simp] theorem edgeCount_bare : u.bare.edgeCount = u.edgeCount := by
  simp [edgeCount, bare, List.flatMap_map, TypeDecl.bare, TypeDecl.supertypes]

theorem isSubclass_bare : u.bare.isSubclass = u.isSubclass := by
  have hsupertypes : u.bare.supertypesOf = u.supertypesOf := by
    funext id
    cases h : u.decl? id <;> simp [supertypesOf, h, TypeDecl.bare, TypeDecl.supertypes]
  funext sub sup
  simp [isSubclass, ancestors, hsupertypes]

@[simp] theorem length_types_bare : u.bare.types.length = u.types.length := List.length_map ..

@[simp] theorem lineage_bare : u.bare.lineage = u.lineage := by
  have hsuper : u.bare.superclass? = u.superclass? := by
    funext id
    cases h : u.decl? id <;> simp [superclass?, h, TypeDecl.bare]
  funext id
  simp [lineage, hsuper]

theorem blankInstance_bare : blankInstance u.bare = blankInstance u := by
  funext type
  have hblank : TypeDecl.blankFields ∘ TypeDecl.bare = TypeDecl.blankFields := rfl
  simp [blankInstance, hblank]

theorem blankStatics_bare : Session.blankStatics u.bare = Session.blankStatics u := by
  rw [Session.blankStatics, Session.blankStatics, bare, List.flatMap_map]
  rfl

/-! ## Dispatch -/

@[simp] theorem erasedParams_bare : u.bare.erasedParams = u.erasedParams := by
  funext id
  cases h : u.decl? id.owner <;> cases h' : u.method? id <;>
    simp [erasedParams, typeParamsOf, h, h', TypeDecl.bare]

@[simp] theorem findImplementation?_bare : u.bare.findImplementation? = u.findImplementation? := by
  have hinterfaces : u.bare.interfacesOf = u.interfacesOf := by
    funext id
    cases h : u.decl? id <;> simp [interfacesOf, h, TypeDecl.bare]
  have horder : u.bare.interfaceOrder = u.interfaceOrder := by
    funext types
    simp [interfaceOrder, hinterfaces]
  have hfirst : u.bare.firstMethod? = u.firstMethod? := by
    funext types test
    simp [firstMethod?]
  funext type test
  simp [findImplementation?, horder, hfirst]

@[simp] theorem findByArity?_bare : u.bare.findByArity? = u.findByArity? := by
  funext type name arity
  simp [findByArity?]

theorem resolveVirtual?_bare : u.bare.resolveVirtual? = u.resolveVirtual? := by
  funext type target
  simp [resolveVirtual?]

/-! ## Units with the same code -/

variable {u} {v : CompilationUnit}

/-- Two units that differ in nothing but what adapters record. -/
def SameCode (u v : CompilationUnit) : Prop := v.bare = u.bare

namespace SameCode

/-- What is the same in a bare unit is the same in units with the same code. -/
theorem eq (h : u.SameCode v) {α : Type} (f : CompilationUnit → α)
    (hf : ∀ w : CompilationUnit, f w.bare = f w) : f v = f u := by
  rw [← hf v, h, hf u]

theorem method? (h : u.SameCode v) : v.method? = u.method? := h.eq _ method?_bare

theorem className (h : u.SameCode v) : v.className = u.className := h.eq _ className_bare

theorem findType? (h : u.SameCode v) : v.findType? = u.findType? := h.eq _ findType?_bare

theorem declaredMethod? (h : u.SameCode v) : v.declaredMethod? = u.declaredMethod? :=
  h.eq _ declaredMethod?_bare

theorem isSubclass (h : u.SameCode v) : v.isSubclass = u.isSubclass := h.eq _ isSubclass_bare

theorem lineage (h : u.SameCode v) : v.lineage = u.lineage := h.eq _ lineage_bare

theorem blankInstance (h : u.SameCode v) : Closures.blankInstance v = Closures.blankInstance u :=
  h.eq _ blankInstance_bare

theorem allocate (h : u.SameCode v) : Closures.allocate v = Closures.allocate u := by
  funext type outer
  rw [Closures.allocate, Closures.allocate, h.blankInstance]

theorem findByArity? (h : u.SameCode v) : v.findByArity? = u.findByArity? :=
  h.eq _ findByArity?_bare

theorem resolveVirtual? (h : u.SameCode v) : v.resolveVirtual? = u.resolveVirtual? :=
  h.eq _ resolveVirtual?_bare

/-- Declarations are found in both or in neither, and they have the same
code. -/
theorem decl? (h : u.SameCode v) (id : ClassId) :
    (v.decl? id).map TypeDecl.bare = (u.decl? id).map TypeDecl.bare := by
  rw [← decl?_bare, ← decl?_bare, h]

/-- The declarations have the same code one by one. -/
theorem types (h : u.SameCode v) : List.Forall₂ (fun d d' => d'.bare = d.bare) u.types v.types := by
  have hmap : List.Forall₂ Eq (v.types.map TypeDecl.bare) (u.types.map TypeDecl.bare) := by
    rw [List.forall₂_eq_eq_eq]
    exact congrArg CompilationUnit.types h
  rw [List.forall₂_map_left_iff, List.forall₂_map_right_iff] at hmap
  exact hmap.flip

end SameCode

end CompilationUnit

end Closures
