import Mathlib.Data.Finset.Card
import Mathlib.Logic.Function.Iterate
import Closures.Proofs.MemberSearch

/-!
# Superclass chains and the fields they declare

The superclass chain of a type is a relation (`CompilationUnit.Inherits`), and
`lineage` lists it by a walk that takes no more steps than there are types. That
is enough to meet all of the chain, also where it runs in a circle
(`CompilationUnit.mem_lineage_of_inherits`).

A field is found by the number of its type and its own
(`CompilationUnit.Declares`). In a unit whose declarations stand at their
numbers these are the numbers under which the declarations list their fields
(`CompilationUnit.IsArena.declares_iff`).
-/

set_option autoImplicit false

namespace Closures

/-! ## Walks -/

namespace CompilationUnit

section Follow

variable {link : ClassId → Option ClassId} {c x : ClassId}

/-- The type that is met after some links, if the walk goes so far. -/
def after (link : ClassId → Option ClassId) (c : ClassId) (k : Nat) : Option ClassId :=
  (fun o => o.bind link)^[k] (some c)

theorem after_add (k m : Nat) :
    after link c (k + m) = (fun o => o.bind link)^[m] (after link c k) := by
  rw [after, after, Nat.add_comm, Function.iterate_add_apply]

theorem after_succ (k : Nat) : after link c (k + 1) = (after link c k).bind link :=
  after_add k 1

theorem mem_follow_of_after {n k : Nat} (hk : k ≤ n) (h : after link c k = some x) :
    x ∈ follow link n c := by
  induction k generalizing n c with
  | zero =>
    obtain ⟨rest, hrest⟩ := follow_eq_cons link n c
    rw [hrest, Option.some.inj h]
    exact List.mem_cons_self
  | succ k ih =>
    obtain ⟨n, rfl⟩ := Nat.exists_eq_add_of_le' (Nat.lt_of_lt_of_le (Nat.succ_pos k) hk)
    have hnext : (fun o => o.bind link)^[k] (link c) = some x := h
    rw [follow]
    cases hl : link c with
    | none =>
      rw [hl, Function.iterate_fixed rfl] at hnext
      cases hnext
    | some next =>
      rw [hl] at hnext
      exact List.mem_cons_of_mem _ (ih (Nat.le_of_succ_le_succ hk) hnext)

theorem exists_after (h : Relation.ReflTransGen (fun a b => link a = some b) c x) :
    ∃ k, after link c k = some x := by
  induction h with
  | refl => exact ⟨0, rfl⟩
  | tail _ hlink ih =>
    obtain ⟨k, hk⟩ := ih
    refine ⟨k + 1, ?_⟩
    rw [after_succ, hk]
    exact hlink

/-- A walk through fewer types than it has steps meets a type twice. -/
theorem exists_after_eq {n : Nat} (hlink : ∀ a b, link a = some b → a.toNat < n)
    (h : ∀ k ≤ n, ∃ b, after link c (k + 1) = some b) :
    ∃ i j, i < j ∧ j ≤ n ∧ after link c i = after link c j := by
  have hmet : ∀ k ≤ n, ∃ a, after link c k = some a ∧ a.toNat < n := by
    intro k hk
    obtain ⟨b, hb⟩ := h k hk
    rw [after_succ, Option.bind_eq_some_iff] at hb
    obtain ⟨a, ha, hab⟩ := hb
    exact ⟨a, ha, hlink a b hab⟩
  have hmaps : ∀ k ∈ Finset.range (n + 1),
      ((after link c k).elim 0 UInt32.toNat) ∈ Finset.range n := by
    intro k hk
    obtain ⟨a, ha, hlt⟩ := hmet k (Nat.lt_succ_iff.mp (Finset.mem_range.mp hk))
    rw [ha]
    exact Finset.mem_range.mpr hlt
  obtain ⟨i, hi, j, hj, hne, heq⟩ :=
    Finset.exists_ne_map_eq_of_card_lt_of_maps_to (by simp) hmaps
  rw [Finset.mem_range, Nat.lt_succ_iff] at hi hj
  have hsame : after link c i = after link c j := by
    obtain ⟨a, ha, -⟩ := hmet i hi
    obtain ⟨b, hb, -⟩ := hmet j hj
    rw [ha, hb] at heq ⊢
    exact congrArg some (UInt32.toNat_inj.mp heq)
  rcases Nat.lt_or_gt_of_ne hne with hlt | hlt
  · exact ⟨i, j, hlt, hj, hsame⟩
  · exact ⟨j, i, hlt, hi, hsame.symm⟩

/-- **A walk with a step for each type meets all that can be met**, also where
it runs in a circle. -/
theorem mem_follow_of_reaches {n : Nat} (hlink : ∀ a b, link a = some b → a.toNat < n)
    (h : Relation.ReflTransGen (fun a b => link a = some b) c x) : x ∈ follow link n c := by
  classical
  have hex := exists_after h
  -- the shortest way to `x` meets no type twice, so it is no longer than the walk
  have hleast : ∀ m, after link c m = some x → Nat.find hex ≤ m := fun m hm => Nat.find_min' hex hm
  refine mem_follow_of_after (Nat.le_of_not_lt fun hlt => ?_) (Nat.find_spec hex)
  have hgoes : ∀ k ≤ n, ∃ b, after link c (k + 1) = some b := by
    intro k hk
    obtain ⟨m, hm⟩ := Nat.exists_eq_add_of_le (Nat.lt_of_le_of_lt hk hlt)
    have hend := Nat.find_spec hex
    rw [hm, after_add] at hend
    cases hb : after link c (k + 1) with
    | some b => exact ⟨b, rfl⟩
    | none =>
      rw [hb, Function.iterate_fixed rfl] at hend
      cases hend
  obtain ⟨i, j, hij, hj, hsame⟩ := exists_after_eq hlink hgoes
  obtain ⟨m, hm⟩ := Nat.exists_eq_add_of_le (Nat.le_of_lt (Nat.lt_of_le_of_lt hj hlt))
  have hshort : after link c (i + m) = some x := by
    rw [after_add, hsame, ← after_add, ← hm]
    exact Nat.find_spec hex
  have := hleast _ hshort
  omega

end Follow

/-- A field of a type, found by its number. -/
def Declares (u : CompilationUnit) (f : FieldId) (fld : Field) : Prop :=
  ∃ d, u.decl? f.owner = some d ∧ ∃ i : Nat, d.fields[i]? = some fld ∧ f.index = i.toUInt32

/-- The superclass chain of a type, with the type itself. -/
abbrev Inherits (u : CompilationUnit) : ClassId → ClassId → Prop :=
  Relation.ReflTransGen fun a b => u.superclass? a = some b

variable {u : CompilationUnit} {f : FieldId} {fld : Field}

theorem mem_lineage_of_inherits {c x : ClassId} (h : u.Inherits c x) : x ∈ u.lineage c :=
  mem_follow_of_reaches (fun _ _ => lt_of_superclass?) h

theorem lineage_eq_singleton {c : ClassId} (h : u.superclass? c = none) : u.lineage c = [c] := by
  rw [lineage]
  cases u.types.length with
  | zero => rfl
  | succ n => rw [follow, h]

theorem IsArena.id_eq (hu : u.IsArena) {c : ClassId} {d : TypeDecl} (hd : u.decl? c = some d) :
    d.id = c :=
  UInt32.toNat_inj.mp (hu c.toNat d hd)

theorem IsArena.decl?_id (hu : u.IsArena) {d : TypeDecl} (hd : d ∈ u.types) :
    u.decl? d.id = some d := by
  obtain ⟨i, hi⟩ := List.mem_iff_getElem?.mp hd
  rw [decl?, hu i d hi]
  exact hi

theorem mem_fieldIds {d : TypeDecl} {owner : ClassId} :
    (f, fld) ∈ d.fieldIds owner ↔
      f.owner = owner ∧ ∃ i : Nat, d.fields[i]? = some fld ∧ f.index = i.toUInt32 := by
  rw [TypeDecl.fieldIds, List.mem_map]
  constructor
  · rintro ⟨⟨g, i⟩, hmem, heq⟩
    cases heq
    exact ⟨rfl, i, (List.mk_mem_zipIdx_iff_getElem?.mp hmem), rfl⟩
  · rintro ⟨rfl, i, hi, hindex⟩
    exact ⟨(fld, i), List.mk_mem_zipIdx_iff_getElem?.mpr hi, by dsimp only; rw [← hindex]⟩

/-- The numbers under which a declaration lists its fields are those by which
they are found. -/
theorem IsArena.declares_iff (hu : u.IsArena) :
    u.Declares f fld ↔ ∃ d ∈ u.types, (f, fld) ∈ d.fieldIds d.id := by
  constructor
  · rintro ⟨d, hd, hfld⟩
    exact ⟨d, List.mem_of_getElem? hd, mem_fieldIds.mpr ⟨(hu.id_eq hd).symm, hfld⟩⟩
  · rintro ⟨d, hd, hmem⟩
    obtain ⟨howner, hfld⟩ := mem_fieldIds.mp hmem
    exact ⟨d, howner ▸ hu.decl?_id hd, hfld⟩

end CompilationUnit

end Closures
