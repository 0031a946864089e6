import Closures.Hierarchy.Nesting
import Closures.Proofs.UnitLowering

/-!
# Nesting and names

How far a walk outwards goes does not matter once it has come to an end, so
every type that is met on it has the same type at its top
(`topLevel_eq_of_mem`). In particular a type and the named type around it lie in
the same top-level type (`topLevel_nearestNamed`).

The qualified path of a type joins names with `_`. It tells types apart if no
name contains a `_` itself and no two types in the same place share a name
(`qualifiedPath_inj`).
-/

set_option autoImplicit false

namespace Closures

namespace CompilationUnit

/-! ## Walks -/

section Follow

variable {link : ClassId → Option ClassId} {n m : Nat} {c d t : ClassId}

theorem follow_eq_cons (link : ClassId → Option ClassId) (n : Nat) (c : ClassId) :
    ∃ rest, follow link n c = c :: rest := by
  cases n with
  | zero => exact ⟨[], rfl⟩
  | succ n =>
    rw [follow]
    cases link c with
    | none => exact ⟨[], rfl⟩
    | some next => exact ⟨follow link n next, rfl⟩

theorem follow_of_none (n : Nat) (h : link c = none) : follow link n c = [c] := by
  cases n with
  | zero => rfl
  | succ n => rw [follow, h]

/-- A walk that comes to an end within some steps. -/
def Ends (link : ClassId → Option ClassId) (n : Nat) (c t : ClassId) : Prop :=
  (follow link n c).getLast? = some t ∧ link t = none

theorem ends_of_none (n : Nat) (h : link c = none) : Ends link n c c := by
  rw [Ends, follow_of_none n h]
  exact ⟨rfl, h⟩

/-- A walk that goes on from a type ends where the walk from the next one
ends. -/
theorem Ends.next (h : Ends link n c t) (hd : link c = some d) :
    ∃ m, n = m + 1 ∧ Ends link m d t := by
  cases n with
  | zero =>
    obtain rfl : c = t := Option.some.inj h.1
    cases hd.symm.trans h.2
  | succ n =>
    refine ⟨n, rfl, ?_, h.2⟩
    obtain ⟨rest, hrest⟩ := follow_eq_cons link n d
    have hlast := h.1
    rw [follow, hd] at hlast
    dsimp only at hlast
    rwa [hrest, List.getLast?_cons_cons, ← hrest] at hlast

/-- More steps do not lead further. -/
theorem Ends.of_le (h : Ends link n c t) (hle : n ≤ m) : Ends link m c t := by
  induction n generalizing c m with
  | zero =>
    obtain rfl : c = t := Option.some.inj h.1
    exact ends_of_none m h.2
  | succ n ih =>
    cases hd : link c with
    | none =>
      rw [Ends, follow_of_none _ hd] at h ⊢
      exact h
    | some d =>
      obtain ⟨_, ⟨⟩, hnext⟩ := h.next hd
      obtain ⟨m, rfl⟩ := Nat.exists_eq_add_of_le' (Nat.lt_of_lt_of_le (Nat.succ_pos n) hle)
      obtain ⟨rest, hrest⟩ := follow_eq_cons link m d
      refine ⟨?_, h.2⟩
      rw [follow, hd]
      dsimp only
      rw [hrest, List.getLast?_cons_cons, ← hrest]
      exact (ih hnext (Nat.le_of_succ_le_succ hle)).1

/-- What is met on a walk leads to the same end. -/
theorem Ends.of_mem (h : Ends link n c t) {x : ClassId} (hx : x ∈ follow link n c) :
    Ends link n x t := by
  induction n generalizing c with
  | zero =>
    obtain rfl := List.mem_singleton.mp hx
    exact h
  | succ n ih =>
    cases hd : link c with
    | none =>
      rw [follow_of_none _ hd, List.mem_singleton] at hx
      exact hx ▸ h
    | some d =>
      rw [follow, hd] at hx
      rcases List.mem_cons.mp hx with rfl | hx
      · exact h
      · obtain ⟨_, ⟨⟩, hnext⟩ := h.next hd
        exact (ih hnext hx).of_le (Nat.le_succ n)

end Follow

/-! ## The top -/

section Top

variable {u : CompilationUnit} {id x : ClassId}

/-- The walk outwards from a type comes to an end. -/
def NestingEnds (u : CompilationUnit) (id : ClassId) : Prop := u.outer? (u.topLevel id) = none

theorem NestingEnds.ends (h : u.NestingEnds id) :
    Ends u.outer? u.types.length id (u.topLevel id) := by
  refine ⟨?_, h⟩
  obtain ⟨rest, hrest⟩ := follow_eq_cons u.outer? u.types.length id
  rw [topLevel, outward, List.getLastD_eq_getLast?, hrest, List.getLast?_eq_some_getLast (by simp)]
  rfl

theorem topLevel_eq_of_mem (h : u.NestingEnds id) (hx : x ∈ u.outward id) :
    u.topLevel x = u.topLevel id := by
  rw [topLevel, outward, List.getLastD_eq_getLast?, (h.ends.of_mem hx).1]
  rfl

theorem nearestNamed_mem (u : CompilationUnit) (id : ClassId) :
    u.nearestNamed id ∈ u.outward id := by
  rw [nearestNamed]
  cases hfind : (u.outward id).find? u.isNamed with
  | some x => exact List.mem_of_find?_eq_some hfind
  | none =>
    obtain ⟨rest, hrest⟩ := follow_eq_cons u.outer? u.types.length id
    rw [Option.getD_none, topLevel, outward, hrest, List.getLastD_eq_getLast?,
      List.getLast?_eq_some_getLast (by simp)]
    exact List.getLast_mem _

/-- The named type around a type lies in the same top-level type. -/
theorem topLevel_nearestNamed (h : u.NestingEnds id) :
    u.topLevel (u.nearestNamed id) = u.topLevel id :=
  topLevel_eq_of_mem h (u.nearestNamed_mem id)

end Top

/-! ## Qualified paths -/

/-- A separator that does not occur after it splits a list in one way only. -/
theorem append_cons_inj_last {α : Type} {a b x y : List α} {sep : α} (hx : sep ∉ x) (hy : sep ∉ y)
    (h : a ++ sep :: x = b ++ sep :: y) : a = b ∧ x = y := by
  rcases List.append_eq_append_iff.mp h with ⟨c, rfl, hc⟩ | ⟨c, rfl, hc⟩
  · cases c with
    | nil =>
      cases hc
      exact ⟨(List.append_nil a).symm, rfl⟩
    | cons s c =>
      cases hc
      exact absurd (List.mem_append_right c List.mem_cons_self) hx
  · cases c with
    | nil =>
      cases hc
      exact ⟨List.append_nil b, rfl⟩
    | cons s c =>
      cases hc
      exact absurd (List.mem_append_right c List.mem_cons_self) hy

/-- Names that tell types apart when they are joined with `_`. -/
structure PlainNames (u : CompilationUnit) : Prop where
  plain : ∀ d ∈ u.types, d.kind ≠ .adapter → '_' ∉ d.name.toList
  topLevel : ∀ d ∈ u.types, d.kind = .topLevel → d.outer = none
  outer : ∀ d ∈ u.types, d.kind ≠ .adapter → ∀ o, d.outer = some o →
    ∃ e, u.decl? o = some e ∧ e.kind ≠ .adapter
  /-- Types in the same place have different names, of whatever kind they
  are. -/
  siblings : ∀ d ∈ u.types, ∀ d' ∈ u.types, d.kind ≠ .adapter → d'.kind ≠ .adapter →
    d.outer = d'.outer → d.name = d'.name → d.id = d'.id

section Paths

variable {u : CompilationUnit} {c : ClassId} {d : TypeDecl}

theorem pathWithin_of_outer_none (n : Nat) (hd : u.decl? c = some d) (ho : d.outer = none) :
    u.pathWithin n c = d.name := by
  cases n with
  | zero => rw [pathWithin, className, hd]
  | succ n =>
    rw [pathWithin, hd]
    dsimp only
    rw [ho]
    cases d.kind <;> rfl

theorem pathWithin_of_outer_some (n : Nat) (hd : u.decl? c = some d) {o : ClassId}
    (ho : d.outer = some o) (htop : d.kind ≠ .topLevel) (hkind : d.kind ≠ .adapter) :
    u.pathWithin (n + 1) c = u.pathWithin n o ++ "_" ++ d.name := by
  rw [pathWithin, hd]
  dsimp only
  rw [ho]
  cases hk : d.kind
  case topLevel => exact absurd hk htop
  case adapter => exact absurd hk hkind
  all_goals rfl

theorem toList_path (p name : String) :
    (p ++ "_" ++ name).toList = p.toList ++ '_' :: name.toList := by
  simp

/-- **Plain names make paths that tell types apart.** -/
theorem pathWithin_inj (hu : u.IsArena) (h : u.PlainNames) {n n' : Nat} {c c' t t' : ClassId}
    {d d' : TypeDecl} (hd : u.decl? c = some d) (hd' : u.decl? c' = some d')
    (hk : d.kind ≠ .adapter)
    (hk' : d'.kind ≠ .adapter) (hends : Ends u.outer? n c t) (hends' : Ends u.outer? n' c' t')
    (hpath : u.pathWithin n c = u.pathWithin n' c') : c = c' := by
  induction n using Nat.strongRecOn generalizing n' c c' d d' with
  | ind n ih =>
    have hmem := List.mem_of_getElem? hd
    have hmem' := List.mem_of_getElem? hd'
    have hplain := h.plain d hmem hk
    have hplain' := h.plain d' hmem' hk'
    have hsame : d.outer = d'.outer → d.name = d'.name → c = c' := fun ho hname => by
      have hid := h.siblings d hmem d' hmem' hk hk' ho hname
      exact UInt32.toNat_inj.mp
        ((hu _ _ hd).symm.trans ((congrArg UInt32.toNat hid).trans (hu _ _ hd')))
    have hlink : u.outer? c = d.outer := by rw [outer?, hd]; rfl
    have hlink' : u.outer? c' = d'.outer := by rw [outer?, hd']; rfl
    -- a path with a `_` is no plain name
    have hne : ∀ (p x : String) {y : String}, '_' ∉ y.toList → p ++ "_" ++ x ≠ y := by
      rintro p x y hy rfl
      rw [toList_path] at hy
      exact hy (List.mem_append_right _ List.mem_cons_self)
    have hmember : ∀ {d : TypeDecl} {o}, d ∈ u.types → d.outer = some o → d.kind ≠ .topLevel := by
      intro d o hmem ho htop
      rw [h.topLevel d hmem htop] at ho
      cases ho
    cases ho : d.outer with
    | none =>
      rw [pathWithin_of_outer_none n hd ho] at hpath
      cases ho' : d'.outer with
      | none =>
        rw [pathWithin_of_outer_none n' hd' ho'] at hpath
        exact hsame (ho.trans ho'.symm) hpath
      | some o' =>
        obtain ⟨m', rfl, -⟩ := hends'.next (hlink'.trans ho')
        rw [pathWithin_of_outer_some m' hd' ho' (hmember hmem' ho') hk'] at hpath
        exact absurd hpath.symm (hne _ _ hplain)
    | some o =>
      obtain ⟨m, rfl, hnext⟩ := hends.next (hlink.trans ho)
      rw [pathWithin_of_outer_some m hd ho (hmember hmem ho) hk] at hpath
      cases ho' : d'.outer with
      | none =>
        rw [pathWithin_of_outer_none n' hd' ho'] at hpath
        exact absurd hpath (hne _ _ hplain')
      | some o' =>
        obtain ⟨m', rfl, hnext'⟩ := hends'.next (hlink'.trans ho')
        rw [pathWithin_of_outer_some m' hd' ho' (hmember hmem' ho') hk', ← String.toList_inj,
          toList_path, toList_path] at hpath
        obtain ⟨houter, hname⟩ := append_cons_inj_last hplain hplain' hpath
        obtain ⟨e, he, hek⟩ := h.outer d hmem hk o ho
        obtain ⟨e', he', hek'⟩ := h.outer d' hmem' hk' o' ho'
        obtain rfl :=
          ih m (Nat.lt_succ_self m) he he' hek hek' hnext hnext' (String.toList_inj.mp houter)
        exact hsame (ho.trans ho'.symm) (String.toList_inj.mp hname)

theorem qualifiedPath_inj (hu : u.IsArena) (h : u.PlainNames)
    (hends : ∀ d ∈ u.types, u.NestingEnds d.id)
    {d d' : TypeDecl} (hd : d ∈ u.types) (hd' : d' ∈ u.types) (hk : d.kind ≠ .adapter)
    (hk' : d'.kind ≠ .adapter) (hpath : u.qualifiedPath d.id = u.qualifiedPath d'.id) :
      d.id = d'.id :=
  pathWithin_inj hu h (hu.mem_iff.mp hd) (hu.mem_iff.mp hd') hk hk' (hends d hd).ends
    (hends d' hd').ends
    hpath

end Paths

end CompilationUnit

end Closures
