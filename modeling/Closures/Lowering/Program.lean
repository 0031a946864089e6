import Closures.Lowering.Body

/-!
# Lowering units

A top-level type with everything nested in it forms a **partition**. Partitions
share no numbers and no names: each has its own range of adapter numbers, starts
from the same local and counts its own sites, so what becomes of one does not
depend on the sites of another.

`CompilationUnit.lower` lowers the partitions in the order of their top-level
types, puts the lowered declarations in place of the given ones and appends the
adapters in the order of their numbers. The first failure counts, and then there
is no result at all.
-/

set_option autoImplicit false

namespace Closures

namespace Lowering

/-- Lower one declaration: field initializers, then initializer blocks, then method bodies. -/
def lowerDecl (u : CompilationUnit) (policy : SingletonInit) (d : TypeDecl) : Step TypeDecl := do
  let cx (isStatic : Bool) : Context := ⟨u, policy, d.id, u.enclosingChain d.id isStatic⟩
  let fields ← d.fields.mapM fun f => do
    return { f with init := ← lowerOption (cx f.isStatic) [] f.init }
  let initializers ← d.initializers.mapM fun i => do
    return { i with body := ← lowerStmts (cx i.isStatic) [] i.body }
  let methods ← d.methods.mapM fun m => do
    return { m with body := ← lowerBlock (cx m.isStatic) (Scope.enter [] m.params) m.body }
  return { d with fields, initializers, methods }

/-- The declarations to lower: all but adapters. -/
def isLowered (d : TypeDecl) : Bool := d.kind != .adapter

/-- The declarations of a partition. -/
def declsOf (u : CompilationUnit) (top : ClassId) : List TypeDecl :=
  u.types.filter fun d => isLowered d && u.topLevel d.id == top

/-- A partition with its range of adapter numbers. -/
structure Partition where
  top : ClassId
  firstAdapter : ClassId
  sites : Nat
deriving DecidableEq, Inhabited, Repr

/-- The number of sites of some partitions. -/
def totalSites (ps : List Partition) : Nat := ps.foldr (fun p n => p.sites + n) 0

/-- The number of sites of a partition. -/
def siteCount (u : CompilationUnit) (top : ClassId) : Nat :=
  (declsOf u top).foldr (fun d n => d.siteCount + n) 0

/-- The top-level types in order. -/
def tops (u : CompilationUnit) : List ClassId :=
  ((u.types.filter isLowered).map fun d => u.topLevel d.id).eraseDups.mergeSort (· ≤ ·)

/-- Partitions with consecutive ranges of adapter numbers. -/
def number (u : CompilationUnit) : ClassId → List ClassId → List Partition
  | _, [] => []
  | next, top :: rest =>
    ⟨top, next, siteCount u top⟩ :: number u (next + (siteCount u top).toUInt32) rest

/-- The partitions that have sites, in order of their top-level types. -/
def partitions (u : CompilationUnit) : List Partition :=
  (number u u.types.length.toUInt32 (tops u)).filter fun p => p.sites != 0

/-- A lowered partition. -/
structure PartitionResult where
  /-- The lowered declarations, in order of the arena. -/
  types : List TypeDecl
  /-- The adapters, in order of their numbers. -/
  adapters : List TypeDecl

/-- Order of adapters by number. -/
def byId (ds : List TypeDecl) : List TypeDecl := ds.mergeSort fun a b => a.id ≤ b.id

/-- Lower a partition, from a first adapter number and a first local on. -/
def lowerPartition (u : CompilationUnit) (policy : SingletonInit) (firstLocal : LocalId)
    (top firstAdapter : ClassId) : Except LoweringError PartitionResult := do
  let (types, progress) ←
    ((declsOf u top).mapM (lowerDecl u policy)).run ⟨firstAdapter, firstLocal, [], []⟩
  return ⟨types, byId progress.adapters⟩

/-- What a lowering did. -/
structure Summary where
  sites : Nat
  capturing : Nat
  singletons : Nat
  /-- Numbers and names of the adapters, in order. -/
  adapters : List (ClassId × String)
deriving DecidableEq, Inhabited, Repr

/-- Whether an adapter is created at each evaluation of its site. -/
def isPerEvaluation (d : TypeDecl) : Bool :=
  d.adapter.any fun a => a.instantiation == .perEvaluation

/-- What a lowering with these adapters did. -/
def Summary.ofAdapters (sites : Nat) (adapters : List TypeDecl) : Summary where
  sites := sites
  capturing := adapters.countP isPerEvaluation
  singletons := adapters.countP (!isPerEvaluation ·)
  adapters := adapters.map fun d => (d.id, d.name)

/-- The first local that lowering may take: beyond all declared ones. -/
def firstLocal (u : CompilationUnit) : LocalId :=
  match u.maxLocal? with
  | some m => m + 1
  | none => 1

/-- Put declarations in their places in an arena. -/
def place (types : List TypeDecl) (ds : List TypeDecl) : List TypeDecl :=
  ds.foldl (fun ts d => ts.set d.id.toNat d) types

end Lowering

open Lowering in
/-- Replace every closure site of a unit. -/
def CompilationUnit.lower (u : CompilationUnit) (policy : SingletonInit) :
    Except LoweringError (CompilationUnit × Lowering.Summary) := do
  let ps := partitions u
  let results ← ps.mapM fun p => lowerPartition u policy (firstLocal u) p.top p.firstAdapter
  let adapters := byId (results.flatMap (·.adapters))
  let types := place u.types (results.flatMap (·.types)) ++ adapters
  return ({ u with types }, .ofAdapters (totalSites ps) adapters)

end Closures
