import Closures.Proofs.Scripts
import Closures.Proofs.Superclasses

/-!
# What holds all along a run

A run is looked at in the middle as well as at its end: at every moment of a
session, also while calls are in progress (`Session.moments`).

What holds of the store at every moment is said in `Store.Sound`: each static
field that is declared is there and no other, each instance has the fields that
its superclass chain declares, and the serials count the instances. One change
keeps it (`Store.Change.sound`), and so does every session from its prepared
store on (`run_invariants`). Two moments are compared as well: no change takes
back a shared instance or a printed line, so what is there at one moment is
there at all later ones, whether the call in which it came up has been left or
not.
-/

set_option autoImplicit false

namespace Closures

/-! ## Sound stores -/

/-- The serial of an instance. -/
def Obj.serial? : Obj → Option UInt32
  | .inst _ serial _ _ => some serial
  | _ => none

/-- The serials of the instances, in order of creation. -/
def Store.serials (s : Store) : List UInt32 := s.heap.toList.filterMap Obj.serial?

/-- An instance has every field that is declared along the superclass chain of
its type. -/
def Obj.Complete (u : CompilationUnit) : Obj → Prop
  | .inst type _ fields _ => ∀ f fld, u.Inherits type f.owner → u.Declares f fld →
    fld.isStatic = false →
      (fields.get? f).isSome
  | _ => True

/-- What holds of every store that comes up in a run. -/
structure Store.Sound (u : CompilationUnit) (s : Store) : Prop where
  statics : ∀ f, (s.statics.get? f).isSome ↔ ∃ fld, u.Declares f fld ∧ fld.isStatic = true
  complete : ∀ o ∈ s.heap, o.Complete u
  /-- The serials count from 1, as far as their type goes. -/
  serials : s.serials = (List.range s.serials.length).map fun i => UInt32.ofNat (i + 1)
  serial : s.serial = UInt32.ofNat s.serials.length

theorem Obj.serial?_withField (f : FieldId) (v : Value) (o : Obj) :
    (o.withField f v).serial? = o.serial? := by
  cases o <;> rfl

theorem Obj.serial?_withElement (i : Nat) (v : Value) (o : Obj) :
    (o.withElement i v).serial? = o.serial? := by
  cases o <;> rfl

section Complete

variable {u : CompilationUnit}

theorem Obj.Complete.withField {o : Obj} (h : o.Complete u) (f : FieldId) (v : Value) :
    (o.withField f v).Complete u := by
  cases o with
  | inst type serial fields outer =>
    intro g fld hchain hdecl hstatic
    exact Table.isSome_get?_put (h g fld hchain hdecl hstatic)
  | boxed | array => trivial

theorem Obj.Complete.withElement {o : Obj} (h : o.Complete u) (i : Nat) (v : Value) :
    (o.withElement i v).Complete u := by
  cases o <;> exact h

/-- A new instance has all its fields. -/
theorem complete_blank (hu : u.IsArena) (type : ClassId) (serial : UInt32) (outer : Option Ref) :
    (Obj.inst type serial (blankInstance u type) outer).Complete u := by
  rintro f fld hchain ⟨d, hd, hfld⟩ hstatic
  have hmem : (f, fld) ∈ d.fieldIds d.id :=
    CompilationUnit.mem_fieldIds.mpr ⟨(hu.id_eq hd).symm, hfld⟩
  have hblank : (f, Value.defaultFor fld.ty) ∈ d.blankFields :=
    List.mem_map.mpr ⟨(f, fld), List.mem_filter.mpr ⟨hmem, by simp [hstatic]⟩, rfl⟩
  rw [Table.get?, List.lookup_isSome_iff]
  refine ⟨(f, .defaultFor fld.ty),
    List.mem_flatMap.mpr ⟨f.owner, CompilationUnit.mem_lineage_of_inherits hchain, ?_⟩,
    beq_self_eq_true f⟩
  rw [hd]
  exact hblank

end Complete

section Heap

variable {h : Heap} {p : Obj → Prop}

theorem forall_mem_push (hh : ∀ o ∈ h, p o) {o : Obj} (ho : p o) : ∀ x ∈ h.push o, p x := by
  intro x hx
  rcases Array.mem_push.mp hx with hx | rfl
  · exact hh x hx
  · exact ho

theorem forall_mem_modify (hh : ∀ o ∈ h, p o) {g : Obj → Obj} (hg : ∀ o, p o → p (g o)) (r : Ref) :
    ∀ x ∈ h.modify r g, p x := by
  intro x hx
  obtain ⟨i, hi⟩ := Array.mem_iff_getElem?.mp hx
  rw [Array.getElem?_modify] at hi
  split at hi
  · obtain ⟨o, ho, rfl⟩ := Option.map_eq_some_iff.mp hi
    exact hg o (hh o (Array.mem_of_getElem? ho))
  · exact hh x (Array.mem_of_getElem? hi)

/-- Changing objects in place leaves the serials alone. -/
theorem serials_modify {g : Obj → Obj} (hg : ∀ o, (g o).serial? = o.serial?) (h : Heap) (r : Ref) :
    (h.modify r g).toList.filterMap Obj.serial? = h.toList.filterMap Obj.serial? := by
  have hmap : (h.modify r g).toList.map Obj.serial? = h.toList.map Obj.serial? := by
    refine List.ext_getElem? fun i => ?_
    rw [List.getElem?_map, List.getElem?_map, Array.getElem?_toList, Array.getElem?_toList,
      Array.getElem?_modify]
    split
    · cases h[i]? with
      | none => rfl
      | some o => exact congrArg some (hg o)
    · rfl
  simpa only [List.filterMap_map, Function.id_comp] using congrArg (List.filterMap id) hmap

end Heap

namespace Store

variable {u : CompilationUnit} {s t : Store}

theorem serials_of_modify {g : Obj → Obj} (hg : ∀ o, (g o).serial? = o.serial?)
    (s : Store) (r : Ref) :
    ({ s with heap := s.heap.modify r g } : Store).serials = s.serials := serials_modify hg s.heap r

namespace Sound

/-- Changing objects in place keeps a store sound. -/
theorem modify (hs : s.Sound u) {g : Obj → Obj} (hg : ∀ o, (g o).serial? = o.serial?)
    (hcomplete : ∀ o, o.Complete u → (g o).Complete u) (r : Ref) :
    ({ s with heap := s.heap.modify r g } : Store).Sound u where
  statics := hs.statics
  complete := forall_mem_modify hs.complete hcomplete r
  serials := by
    rw [serials_of_modify hg]
    exact hs.serials
  serial := by
    rw [serials_of_modify hg]
    exact hs.serial

/-- A new box or array. -/
theorem push (hs : s.Sound u) {o : Obj} (ho : o.serial? = none) :
    ({ s with heap := s.heap.push o } : Store).Sound u := by
  have hserials : ({ s with heap := s.heap.push o } : Store).serials = s.serials := by
    rw [Store.serials, Array.toList_push, List.filterMap_append, List.filterMap_cons_none ho,
      List.filterMap_nil, List.append_nil, Store.serials]
  have hcomplete : o.Complete u := by
    cases o with
    | inst => cases ho
    | boxed | array => trivial
  exact ⟨hs.statics, forall_mem_push hs.complete hcomplete, by rw [hserials]; exact hs.serials,
    by rw [hserials]; exact hs.serial⟩

/-- A new instance gets the next serial. -/
theorem pushInst (hs : s.Sound u) {type : ClassId} {fields : Table FieldId Value}
    {outer : Option Ref} (hcomplete : (Obj.inst type (s.serial + 1) fields outer).Complete u) :
    ({ s with
      serial := s.serial + 1
      heap := s.heap.push (.inst type (s.serial + 1) fields outer) } : Store).Sound u := by
  have hserials : ({ s with
      serial := s.serial + 1
      heap := s.heap.push (.inst type (s.serial + 1) fields outer) } : Store).serials =
      s.serials ++ [s.serial + 1] := by
    rw [Store.serials, Array.toList_push, List.filterMap_append, Store.serials]
    rfl
  have hnext : s.serial + 1 = UInt32.ofNat (s.serials.length + 1) := by
    rw [hs.serial, UInt32.ofNat_add]
    rfl
  refine ⟨hs.statics, forall_mem_push hs.complete hcomplete, ?_, ?_⟩
  · rw [hserials, List.length_append, List.length_singleton, List.range_succ, List.map_append,
      ← hs.serials, hnext]
    rfl
  · rw [hserials, List.length_append, List.length_singleton, ← hnext]

theorem setStatic (hs : s.Sound u) {f : FieldId} (hf : (s.statics.get? f).isSome) (v : Value) :
    ({ s with statics := s.statics.put f v } : Store).Sound u := by
  refine ⟨fun g => ?_, hs.complete, hs.serials, hs.serial⟩
  rw [← hs.statics g]
  by_cases hg : g = f
  · rw [hg, Table.get?_put_self]
    exact ⟨fun _ => hf, fun _ => rfl⟩
  · rw [Table.get?_put_ne hg]

/-- Neither the depth of calls nor the output nor the shared instances
matter. -/
theorem of_eq (hs : s.Sound u) (hheap : t.heap = s.heap) (hstatics : t.statics = s.statics)
    (hserial : t.serial = s.serial) : t.Sound u := by
  have hserials : t.serials = s.serials := by rw [Store.serials, hheap, Store.serials]
  exact ⟨hstatics ▸ hs.statics, hheap ▸ hs.complete, hserials ▸ hs.serials,
    by rw [hserial, hserials, hs.serial]⟩

theorem withShared (hu : u.IsArena) (hs : s.Sound u) (adapter : ClassId) :
    (s.withShared u adapter).Sound u :=
  (hs.pushInst (complete_blank hu adapter _ none)).of_eq rfl rfl rfl

end Sound

variable {fills : Store → Ref → FieldId → Prop} {m : Moment}

/-- **A change keeps a store sound.** -/
theorem Change.sound (hu : u.IsArena) (h : Change u fills s m) (hs : s.Sound u) :
    m.store.Sound u := by
  cases h with
  | box | array => exact hs.push rfl
  | create type outer => exact hs.pushInst (complete_blank hu type _ outer)
  | closure adapter captures =>
    refine hs.pushInst fun f fld hchain hdecl hstatic => ?_
    exact isSome_capturedFields captures 0 _
      (complete_blank hu adapter 0 none f fld hchain hdecl hstatic)
  | share adapter => exact hs.withShared hu adapter
  | field r f v => exact hs.modify (Obj.serial?_withField f v) (fun _ ho => ho.withField f v) r
  | element r i v =>
    exact hs.modify (Obj.serial?_withElement i v) (fun _ ho => ho.withElement i v) r
  | static f v hf => exact hs.setStatic hf v
  | print | had | enter | leave | turn => exact hs.of_eq rfl rfl rfl

/-- **A change takes no printed line back.** -/
theorem Change.output (h : Change u fills s m) :
    Session.output s <+: Session.output m.store := by
  cases h with
  | print line =>
    rw [Session.output, Session.output, List.reverse_cons]
    exact List.prefix_append ..
  | _ => exact List.prefix_rfl

theorem Leads.output (h : Leads (Change u fills) s t) : Session.output s <+: Session.output t :=
  h.keeps (P := fun w => Session.output s <+: Session.output w)
    (fun _ _ hstep hw => hw.trans hstep.output) List.prefix_rfl

/-- No change goes beyond the limit on calls. -/
theorem Change.depth_le (h : Change u fills s m) (hs : s.depth ≤ maxCallDepth) :
    m.store.depth ≤ maxCallDepth := by
  cases h with
  | enter hlt => exact hlt
  | leave => exact (Nat.sub_le ..).trans hs
  | _ => exact hs

/-- The serials are different as long as they do not run out. -/
theorem Sound.nodup_serials (hs : s.Sound u) (hlen : s.serials.length < 2 ^ 32) :
    s.serials.Nodup ∧ ∀ n ∈ s.serials, 1 ≤ n ∧ n ≤ s.serial := by
  have hofNat : ∀ i ≤ s.serials.length, (UInt32.ofNat i).toNat = i := fun i hi =>
    UInt32.toNat_ofNat_of_lt' (Nat.lt_of_le_of_lt hi hlen)
  constructor
  · rw [hs.serials]
    refine List.Nodup.map_on (fun i hi j hj heq => ?_) List.nodup_range
    have hnat := congrArg UInt32.toNat heq
    rw [List.mem_range] at hi hj
    rw [hofNat _ hi, hofNat _ hj] at hnat
    omega
  · intro n hn
    rw [hs.serials, List.mem_map] at hn
    obtain ⟨i, hi, rfl⟩ := hn
    rw [List.mem_range] at hi
    rw [UInt32.le_iff_toNat_le, UInt32.le_iff_toNat_le, hs.serial, hofNat _ hi,
      hofNat _ (Nat.le_refl _)]
    exact ⟨Nat.le_add_left 1 i, hi⟩

end Store

/-! ## Sessions -/

namespace Session

variable {u : CompilationUnit}

/-- The store from which a session starts is sound. -/
theorem sound_prepared (hu : u.IsArena) : (prepared u Store.empty).Sound u := by
  have hblank : ∀ f, ((blankStatics u).get? f).isSome ↔ ∃ fld, u.Declares f fld ∧
      fld.isStatic = true := by
    intro f
    rw [Table.get?, List.lookup_isSome_iff]
    constructor
    · rintro ⟨⟨g, v⟩, hmem, hg⟩
      obtain rfl : f = g := beq_iff_eq.mp hg
      obtain ⟨d, hd, ⟨_, fld⟩, hx, hstatic, rfl, -⟩ := mem_blankStatics.mp hmem
      exact ⟨fld, hu.declares_iff.mpr ⟨d, hd, hx⟩, hstatic⟩
    · rintro ⟨fld, hdecl, hstatic⟩
      obtain ⟨d, hd, hmem⟩ := hu.declares_iff.mp hdecl
      exact ⟨_, mem_blankStatics.mpr ⟨d, hd, (f, fld), hmem, hstatic, rfl, rfl⟩, beq_self_eq_true f⟩
  -- the static fields come into the store when the shared instances are there
  have heager :
      ({ (createEager u u.types Store.empty).2 with statics := blankStatics u } : Store).Sound
      u := by
    refine createEager_keeps (P := fun s => ({ s with statics := blankStatics u } : Store).Sound u)
      (fun s a hs => hs.withShared hu a) u.types ⟨hblank, by simp [Store.empty], rfl, rfl⟩
  exact heager

theorem depth_prepared (u : CompilationUnit) : (prepared u Store.empty).depth = 0 :=
  createEager_keeps (P := fun s => s.depth = 0) (fun _ _ hs => hs) u.types rfl

/-- A session ends its steps where no call is in progress. -/
theorem depth_play {budget : Nat} : ∀ (script : List Step) (results : List (Option Value))
    (s : Store), s.depth = 0 → ∀ r ∈ play id u (callsWithin u budget) script results s,
      r.2.depth = 0
  | [], _, _, _ => fun _ hr => (List.not_mem_nil hr).elim
  | step :: rest, results, s, hs => by
    have hend := (step.depth_perform u budget results s).trans hs
    rw [play, List.forall_mem_cons]
    exact ⟨hend, depth_play rest _ _ hend⟩

theorem depth_history (budget : Nat) (script : List Step) :
    (history u (callsWithin u budget) script).start.2.depth = 0 ∧
      ∀ r ∈ (history u (callsWithin u budget) script).steps, r.2.depth = 0 := by
  have hstart : (startBy u (callsWithin u budget) Store.empty).2.depth = 0 :=
    (depth_start u budget Store.empty).trans (depth_prepared u)
  refine ⟨hstart, ?_⟩
  rw [history, transcriptWith]
  dsimp only
  cases (startBy u (callsWithin u budget) Store.empty).1 with
  | error e => exact fun _ hr => (List.not_mem_nil hr).elim
  | ok a => exact depth_play script [] _ hstart

end Session

theorem not_stackOverflow_of_lt {u : CompilationUnit} {s : Store} (h : s.depth < maxCallDepth)
    (m : MethodId)
    (this : Option Ref) (args : List Value) :
      activation u m this args s ≠ .error .stackOverflow := by
  intro heq
  rw [activation] at heq
  split at heq
  · cases heq
  · split at heq
    · cases heq
    · split at heq
      · cases heq
      · rw [if_neg (Nat.not_le.mpr h)] at heq
        cases heq

open Session in
/-- What holds of a session on a unit. -/
structure RunInvariants (u : CompilationUnit) (budget : Nat) (script : List Step) : Prop where
  recounted : Recounted u budget script
  /-- Between the steps no call is in progress, so none that is asked for is too
  deep. -/
  between : ∀ s ∈ (history u (callsWithin u budget) script).start.2 ::
      (history u (callsWithin u budget) script).steps.map Prod.snd,
    s.depth = 0 ∧ ∀ m this args, activation u m this args s ≠ .error .stackOverflow
  /-- At no moment are there more calls in progress than the limit says. -/
  depth : ∀ m ∈ moments u budget script, m.store.depth ≤ 256
  statics : ∀ m ∈ moments u budget script, ∀ f,
    (m.store.statics.get? f).isSome ↔ ∃ fld, u.Declares f fld ∧ fld.isStatic = true
  /-- An instance has the fields of its type and of all its superclasses. -/
  fields : ∀ m ∈ moments u budget script, ∀ (r : Ref) type serial fields outer,
    m.store.heap[r]? = some (.inst type serial fields outer) →
    ∀ f fld, u.Inherits type f.owner → u.Declares f fld → fld.isStatic = false →
      (fields.get? f).isSome
  serials : ∀ m ∈ moments u budget script, m.store.serials.length < 2 ^ 32 →
    m.store.serials.Nodup ∧ ∀ n ∈ m.store.serials, 1 ≤ n ∧ n ≤ m.store.serial
  /-- Shared instances are neither replaced nor removed. -/
  shared : (moments u budget script).Pairwise fun m m' => ∀ a v,
    m.store.singletons.get? a = some v → m'.store.singletons.get? a = some v
  /-- Printed lines stay, and others come after them. -/
  output : (moments u budget script).Pairwise fun m m' =>
    output m.store <+: output m'.store

/-- **Every unit whose declarations stand at their numbers keeps the invariants
of a run**, whatever is run and whether that ends in values or in faults. -/
theorem run_invariants {u : CompilationUnit} (hu : u.IsArena) (budget : Nat)
    (script : List Session.Step) : RunInvariants u budget script := by
  have hrecounted := Session.recounted u budget script
  obtain ⟨t, hpath⟩ := hrecounted.changes
  have hsound : ∀ m ∈ Session.moments u budget script, m.store.Sound u := fun m hm =>
    (hpath.leads_of_mem hm).keeps (fun _ _ hstep => hstep.sound hu) (Session.sound_prepared hu)
  obtain ⟨hstart, hsteps⟩ := Session.depth_history (u := u) budget script
  have hbetween : ∀ s ∈ (Session.history u (callsWithin u budget) script).start.2 ::
      (Session.history u (callsWithin u budget) script).steps.map Prod.snd, s.depth = 0 :=
    List.forall_mem_cons.mpr ⟨hstart, List.forall_mem_map.mpr hsteps⟩
  exact {
    recounted := hrecounted
    between := fun s hs =>
      ⟨hbetween s hs, not_stackOverflow_of_lt (hbetween s hs ▸ Nat.succ_pos _)⟩
    depth := fun m hm => (hpath.leads_of_mem hm).keeps (P := fun s => s.depth ≤ maxCallDepth)
      (fun _ _ hstep => hstep.depth_le) (Session.depth_prepared u ▸ Nat.zero_le _)
    statics := fun m hm => (hsound m hm).statics
    fields := fun m hm r _ _ _ _ ho => (hsound m hm).complete _ (Array.mem_of_getElem? ho)
    serials := fun m hm => (hsound m hm).nodup_serials
    shared := hpath.pairwise_leads.imp fun hleads _ _ => hleads.shared
    output := hpath.pairwise_leads.imp fun hleads => hleads.output }

namespace Diver

/-- A class that makes an instance of itself and calls itself without end. Its
static field and the field of its superclass are there all along. -/
def unit : CompilationUnit where
  name := "diver"
  sourcePath := none
  types := [
    { TypeDecl.empty 0 "Swimmer" .topLevel with
      fields := [⟨"lane", .int, false, false, none⟩] },
    { TypeDecl.empty 1 "Diver" .topLevel with
      superclass := some (.raw 0)
      fields := [⟨"dives", .int, true, false, some (.int 7)⟩]
      methods := [⟨"dive", [], [], .void, [], .method, true, false, false, false,
        some [
          .expr (.new (.raw 1) none none []),
          .expr (.call .static ⟨1, 0⟩ [])],
        .dummy⟩] }]

/-- The script that asks for the call. -/
def script : List Session.Step := [.run "Diver" "dive" []]

/-- How the step ends, and what it leaves. -/
def dive : Except Halt Session.Reply × Store :=
  (Session.Step.run "Diver" "dive" []).perform unit (callsWithin unit 600) []
    (Session.start unit 600 Store.empty).2

theorem isArena : unit.IsArena := by decide

theorem history_steps : (Session.history unit (callsWithin unit 600) script).steps = [dive] := by
  have hok : (Session.start unit 600 Store.empty).1.isOk = true := by decide +kernel
  rw [Session.history, Session.transcriptWith, Session.startBy_callsWithin]
  dsimp only
  cases hstart : (Session.start unit 600 Store.empty).1 with
  | error e =>
    rw [hstart] at hok
    cases hok
  | ok a => rfl

theorem dive_mem : dive.2 ∈ (Session.history unit (callsWithin unit 600) script).start.2 ::
    (Session.history unit (callsWithin unit 600) script).steps.map Prod.snd := by
  rw [history_steps]
  exact List.mem_cons_of_mem _ (List.mem_singleton_self _)

end Diver

/-- The call goes too deep, and leaves 256 instances with different serials and
no call in progress. -/
theorem run_invariants_diver :
    Diver.unit.IsArena ∧ (Diver.dive.1 matches .error (.fault .stackOverflow)) = true ∧
      Diver.dive.2.serials.length = 256 ∧ Diver.dive.2.serials.Nodup ∧ Diver.dive.2.depth = 0 ∧
      (Diver.dive.2.statics.get? ⟨1, 0⟩).isSome := by
  have hinv := run_invariants Diver.isArena 600 Diver.script
  obtain ⟨m, hm, hstore⟩ := Session.exists_moment Diver.dive_mem
  have hcount : Diver.dive.2.serials.length = 256 := by decide +kernel
  refine ⟨Diver.isArena, by decide +kernel, hcount, ?_, (hinv.between _ Diver.dive_mem).1, ?_⟩
  · exact hstore ▸ (hinv.serials m hm (by rw [hstore, hcount]; decide)).1
  · exact hstore ▸ (hinv.statics m hm _).mpr ⟨_, ⟨_, rfl, 0, rfl, rfl⟩, rfl⟩

end Closures
