import Closures.Proofs.AdapterCorrespondence
import Closures.Proofs.Scripts

/-!
# The identity of closures

A closure that captures nothing is one object for the whole run, and a closure
that captures something is a new object at every evaluation. Both are said about
all moments of a session at which a closure is made or a shared instance is had
(`ClosureIdentity`), however far they are apart: in one call, in the calls that
it makes, or in different steps.

No change takes a shared instance away or puts another one in its place
(`Store.Change.shared`), and the shared instance of an adapter is an instance of
that adapter (`Store.Shares`). That tells the shared instances of different
adapters apart, and since lowering makes one adapter for each site, those of
different sites (`closure_identity`).
-/

set_option autoImplicit false

namespace Closures

/-! ## Shared instances -/

namespace Store

variable {u : CompilationUnit} {fills : Store → Ref → FieldId → Prop} {s t : Store} {m : Moment}

/-- The shared instances are instances of their adapters. -/
def Shares (s : Store) : Prop :=
  ∀ a v, s.singletons.get? a = some v →
    ∃ r serial fields outer, v = .ref r ∧ s.heap[r]? = some (.inst a serial fields outer)

/-- Two adapters do not share an instance, since it is an instance of one
type. -/
theorem Shares.inj (hs : s.Shares) {a b : ClassId} {r : Ref}
    (ha : s.singletons.get? a = some (.ref r))
    (hb : s.singletons.get? b = some (.ref r)) : a = b := by
  obtain ⟨r₁, _, _, _, hr₁, ho₁⟩ := hs a _ ha
  obtain ⟨r₂, _, _, _, hr₂, ho₂⟩ := hs b _ hb
  cases hr₁
  cases hr₂
  rw [ho₁] at ho₂
  cases ho₂
  rfl

/-- What shared instances there are does not hang on the instances
themselves. -/
theorem Shares.of_inst (hs : s.Shares) (hshared : t.singletons = s.singletons)
    (hinst : ∀ (r : Ref) a serial fields outer, s.heap[r]? = some (.inst a serial fields outer) →
      ∃ fields', t.heap[r]? = some (.inst a serial fields' outer)) : t.Shares := by
  intro a v ha
  rw [hshared] at ha
  obtain ⟨r, serial, fields, outer, rfl, ho⟩ := hs a v ha
  obtain ⟨fields', ho'⟩ := hinst r a serial fields outer ho
  exact ⟨r, serial, fields', outer, rfl, ho'⟩

/-- Giving an adapter a new instance to share. -/
theorem Shares.share (hs : s.Shares) (adapter : ClassId) : (s.withShared u adapter).Shares := by
  intro a v ha
  by_cases haa : a = adapter
  · subst haa
    rw [withShared, Table.get?_put_self] at ha
    cases ha
    exact ⟨s.heap.size, s.serial + 1, blankInstance u a, none, rfl, Array.getElem?_push_size⟩
  · rw [withShared, Table.get?_put_ne haa] at ha
    obtain ⟨r, serial, fields, outer, rfl, ho⟩ := hs a v ha
    exact ⟨r, serial, fields, outer, rfl, getElem?_push_of_some ho⟩

/-- A change keeps the shared instances what they are. -/
theorem Change.shares (h : Change u fills s m) (hs : s.Shares) : m.store.Shares := by
  have hinst : ∀ (r : Ref) a serial fields outer, s.heap[r]? = some (.inst a serial fields outer) →
      ∃ fields', m.store.heap[r]? = some (.inst a serial fields' outer) := by
    intro r a serial fields outer ho
    obtain ⟨fields', ho', -⟩ := h.inst ho
    exact ⟨fields', ho'⟩
  cases h with
  | share adapter => exact hs.share adapter
  | _ => exact hs.of_inst rfl hinst

theorem Leads.shares (h : Leads (Change u fills) s t) (hs : s.Shares) : t.Shares :=
  h.keeps (P := Shares) (fun _ _ hstep => hstep.shares) hs

/-- A shared instance that is had is in its place. -/
theorem Change.of_shared (h : Change u fills s m) {a : ClassId} {v : Value}
    (he : m.event = .shared a v) : m.store.singletons.get? a = some v := by
  cases h with
  | share adapter =>
    cases he
    exact Table.get?_put_self ..
  | had adapter w hv =>
    cases he
    exact hv
  | _ => cases he

/-- Two shared instances in one store are the same object if they are of the
same adapter, and only then. -/
theorem Shares.eq_iff (hs : s.Shares) {a b : ClassId} {v w : Value}
    (ha : s.singletons.get? a = some v) (hb : s.singletons.get? b = some w) : v = w ↔ a = b := by
  constructor
  · rintro rfl
    obtain ⟨r, _, _, _, rfl, -⟩ := hs a v ha
    exact hs.inj ha hb
  · rintro rfl
    exact Option.some.inj (ha.symm.trans hb)

end Store

/-! ## Sessions -/

namespace Session

theorem shares_prepared (u : CompilationUnit) : (prepared u Store.empty).Shares := by
  have hempty : Store.empty.Shares := fun _ _ h => nomatch h
  have hcreated := createEager_keeps (u := u) (fun _ a hs => hs.share a) u.types hempty
  exact hcreated.of_inst rfl fun _ _ _ fields _ ho => ⟨fields, ho⟩

end Session

open Session in
/-- What the identity of closures is in a session on a unit. -/
structure ClosureIdentity (u : CompilationUnit) (budget : Nat) (script : List Step) : Prop where
  recounted : Recounted u budget script
  /-- A shared instance is an instance of its adapter. -/
  object : ∀ m ∈ moments u budget script, ∀ a v, m.event = .shared a v →
    ∃ r, v = .ref r ∧ m.store.HasInstance a r
  /-- Two shared instances that are had are the same object if they are of the
  same adapter, and only then. -/
  same : ∀ m ∈ moments u budget script, ∀ m' ∈ moments u budget script, ∀ a b v w,
    m.event = .shared a v → m'.event = .shared b w → (v = w ↔ a = b)
  /-- A closure that is made is an object that was not there at any moment
  before. -/
  fresh : (moments u budget script).Pairwise fun m m' =>
    ∀ a vs r, m'.event = .closure a vs r → m.store.heap[r]? = none
  /-- It is there from then on. -/
  kept : ∀ (i j : Nat) m m', i ≤ j → (moments u budget script)[i]? = some m →
    (moments u budget script)[j]? = some m' →
    ∀ a vs r, m.event = .closure a vs r → m'.store.HasInstance a r
  /-- Two closures that are made, one after the other, are two objects. -/
  distinct : (moments u budget script).Pairwise fun m m' =>
    ∀ a vs r b ws r', m.event = .closure a vs r → m'.event = .closure b ws r' → r ≠ r'

namespace Path

variable {u : CompilationUnit} {fills : Store → Ref → FieldId → Prop} {s t : Store}
  {ms : List Moment} (h : Path (Store.Change u fills) s ms t)

include h

theorem shared_eq_iff_of_le (hs : s.Shares) {i j : Nat} (hij : i ≤ j) {m m' : Moment}
    (hi : ms[i]? = some m) (hj : ms[j]? = some m') {a b : ClassId} {v w : Value}
    (hv : m.event = .shared a v) (hw : m'.event = .shared b w) : v = w ↔ a = b := by
  obtain ⟨_, -, hm⟩ := h.mem m (List.mem_of_getElem? hi)
  obtain ⟨_, -, hm'⟩ := h.mem m' (List.mem_of_getElem? hj)
  have hshares := (h.leads_of_mem (List.mem_of_getElem? hj)).shares hs
  exact hshares.eq_iff ((h.leads hij hi hj).shared (hm.of_shared hv)) (hm'.of_shared hw)

/-- **One instance for each adapter.** -/
theorem shared_eq_iff (hs : s.Shares) {m m' : Moment} (hm : m ∈ ms) (hm' : m' ∈ ms)
    {a b : ClassId} {v w : Value} (hv : m.event = .shared a v) (hw : m'.event = .shared b w) :
    v = w ↔ a = b := by
  obtain ⟨i, hi⟩ := List.mem_iff_getElem?.mp hm
  obtain ⟨j, hj⟩ := List.mem_iff_getElem?.mp hm'
  rcases Nat.le_total i j with hij | hij
  · exact h.shared_eq_iff_of_le hs hij hi hj hv hw
  · rw [eq_comm, eq_comm (a := a)]
    exact h.shared_eq_iff_of_le hs hij hj hi hw hv

/-- **A new object for each closure.** -/
theorem pairwise_fresh : ms.Pairwise fun m m' =>
    ∀ a vs r, m'.event = .closure a vs r → m.store.heap[r]? = none := by
  refine h.pairwise.imp fun {m m'} hmm a vs r he => ?_
  obtain ⟨w, hleads, hm'⟩ := hmm
  obtain ⟨rfl, -⟩ := hm'.of_closure he
  exact Array.getElem?_eq_none hleads.size_le

theorem closure_kept {i j : Nat} (hij : i ≤ j) {m m' : Moment} (hi : ms[i]? = some m)
    (hj : ms[j]? = some m') {a : ClassId} {vs : List Value} {r : Ref}
    (he : m.event = .closure a vs r) : m'.store.HasInstance a r := by
  obtain ⟨w, -, hm⟩ := h.mem m (List.mem_of_getElem? hi)
  obtain ⟨-, ho⟩ := hm.of_closure he
  obtain ⟨fields, ho', -⟩ := (h.leads hij hi hj).inst ho
  exact ⟨_, fields, _, ho'⟩

theorem pairwise_distinct : ms.Pairwise fun m m' =>
    ∀ a vs r b ws r', m.event = .closure a vs r → m'.event = .closure b ws r' → r ≠ r' := by
  refine List.pairwise_iff_getElem.mpr fun i j hi hj hij a vs r b ws r' he he' => ?_
  obtain ⟨_, _, _, ho⟩ := h.closure_kept (Nat.le_refl i) (List.getElem?_eq_getElem hi)
    (List.getElem?_eq_getElem hi) he
  have hnone := List.pairwise_iff_getElem.mp h.pairwise_fresh i j hi hj hij b ws r' he'
  rintro rfl
  rw [hnone] at ho
  cases ho

end Path

theorem CompilationUnit.closureIdentity (u : CompilationUnit) (budget : Nat)
    (script : List Session.Step) : ClosureIdentity u budget script := by
  have hrecounted := Session.recounted u budget script
  obtain ⟨t, hpath⟩ := hrecounted.changes
  have hshares := Session.shares_prepared u
  exact {
    recounted := hrecounted
    object := by
      intro m hm a v he
      obtain ⟨_, -, hstep⟩ := hpath.mem m hm
      obtain ⟨r, serial, fields, outer, rfl, ho⟩ :=
        (hpath.leads_of_mem hm).shares hshares a v (hstep.of_shared he)
      exact ⟨r, rfl, serial, fields, outer, ho⟩
    same := fun _ hm _ hm' _ _ _ _ => hpath.shared_eq_iff hshares hm hm'
    fresh := hpath.pairwise_fresh
    kept := fun _ _ _ _ hij hi hj _ _ _ => hpath.closure_kept hij hi hj
    distinct := hpath.pairwise_distinct }

open Lowering in
/-- The constructions that lowering puts in the place of the sites have
different adapters. -/
theorem Lowering.UnitRun.pairwise_construction {u v : CompilationUnit} {policy : SingletonInit}
    {summary : Summary} (run : UnitRun u policy v summary)
    (hroom : u.types.length + summary.sites ≤ 2 ^ 32) :
    (run.adapters.map TypeDecl.construction).Pairwise fun x y => x.1 ≠ y.1 := by
  rw [List.pairwise_map, List.pairwise_iff_getElem]
  intro i j hi hj hij heq
  have hid := run.toNat_id_adapters hroom (List.getElem?_eq_getElem hi)
  have hid' := run.toNat_id_adapters hroom (List.getElem?_eq_getElem hj)
  simp only [TypeDecl.construction] at heq
  rw [heq] at hid
  omega

open Lowering in
/-- **The identity of closures.** In every session on a lowered unit, whatever
the policy, whatever is run and whether that ends in values or in faults, there
is one shared instance for each adapter, and every closure that is made is a new
object. In the place of the sites lowering puts constructions of pairwise
different adapters, so two sites never have a shared instance in common. -/
theorem closure_identity {u v : CompilationUnit} {policy : SingletonInit} {summary : Summary}
    (h : u.lower policy = .ok (v, summary)) :
    (∀ budget script, ClosureIdentity v budget script) ∧
    (u.IsArena → u.types.length + summary.sites ≤ 2 ^ 32 →
      ∃ built : List (ClassId × Option Nat), built.length = summary.sites ∧
        v.constructions.Perm (u.constructions ++ built) ∧
        (∀ x ∈ built, u.types.length ≤ x.1.toNat) ∧ built.Pairwise fun x y => x.1 ≠ y.1) := by
  obtain ⟨run⟩ := exists_unitRun h
  refine ⟨v.closureIdentity, fun hu hroom => ?_⟩
  refine ⟨run.adapters.map TypeDecl.construction, ?_, run.constructions_perm hu, ?_,
    run.pairwise_construction hroom⟩
  · rw [List.length_map, run.length_adapters hroom]
  · intro x hx
    obtain ⟨d, hd, rfl⟩ := List.mem_map.mp hx
    obtain ⟨i, hi⟩ := List.mem_iff_getElem?.mp hd
    rw [TypeDecl.construction, run.toNat_id_adapters hroom hi]
    exact Nat.le_add_right ..

/-- The identity of closures where one site captures and one is shared, whose
instance is there from the start. -/
theorem closure_identity_meter :
    ∃ v summary, Meter.unit.lower .atStart = .ok (v, summary) ∧ summary.sites = 2 ∧
      (∀ budget script, ClosureIdentity v budget script) ∧
      ∃ built : List (ClassId × Option Nat), built.length = 2 ∧
        v.constructions.Perm built ∧ (∀ x ∈ built, 2 ≤ x.1.toNat) ∧
        built.Pairwise fun x y => x.1 ≠ y.1 := by
  have hrun : ((Meter.unit.lower .atStart).map fun r => r.2.sites) = .ok 2 := by cbv
  obtain ⟨⟨v, summary⟩, h, hsites⟩ := map_eq_ok.mp hrun
  obtain ⟨hidentity, hbuilt⟩ := closure_identity h
  obtain ⟨built, hlen, hperm, hnew, hne⟩ := hbuilt Meter.isArena (by rw [← hsites]; decide)
  exact ⟨v, summary, h, hsites.symm, hidentity, built, hlen.trans hsites.symm, hperm, hnew, hne⟩

end Closures
