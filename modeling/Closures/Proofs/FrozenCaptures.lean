import Mathlib
import Closures.Proofs.AssignedFields
import Closures.Proofs.LiveClosure
import Closures.Proofs.Scripts
import Closures.Proofs.Superclasses

/-!
# Captured values stay

A closure object holds what was captured when its site was evaluated. The moment
at which that happens is noted with the values of the operands, and from then on
the session goes from moment to moment by single changes. A change sets a field
that the program assigns to, or one that an initializer of the type of the
instance sets.

Adapters have no initializers and no superclass, and lowering assigns to no
other fields than the given program does, so no change touches the fields of a
closure (`captures_frozen`).
-/

set_option autoImplicit false

namespace Closures

/-! ## The fields of closures -/

namespace Lowering.UnitRun

variable {u v : CompilationUnit} {policy : SingletonInit} {summary : Summary} {W : FieldId → Prop}
  (run : UnitRun u policy v summary)

include run

/-- A declaration with a new number is an adapter. -/
theorem mem_adapters_of_decl? {a : ClassId} (ha : u.types.length ≤ a.toNat) {d : TypeDecl}
    (hd : v.decl? a = some d) : d ∈ run.adapters := by
  rw [← run.types_drop]
  refine List.mem_of_getElem? (i := a.toNat - u.types.length) ?_
  rw [List.getElem?_drop, Nat.add_sub_cancel' ha]
  exact hd

/-- **Nothing initializes the fields of an adapter.** -/
theorem not_initializes (hu : u.WritesOnly W) {a : ClassId} (ha : u.types.length ≤ a.toNat)
    (f : FieldId) : ¬v.Initializes a f := by
  have hadapter : ∀ d, v.decl? a = some d → d.AdapterWritesOnly W := fun d hd =>
    run.adapterWritesOnly hu d (run.mem_adapters_of_decl? ha hd)
  have hsuper : v.superclass? a = none := by
    rw [CompilationUnit.superclass?, Option.bind_eq_none_iff]
    intro d hd
    obtain ⟨_, _, c, rfl, -⟩ := hadapter d hd
    rfl
  rintro ⟨c, hc, d, hd, x, hx, -, -, hinit⟩
  rw [CompilationUnit.lineage_eq_singleton hsuper, List.mem_singleton] at hc
  obtain ⟨_, _, c, rfl, -⟩ := hadapter d (hc ▸ hd)
  obtain ⟨⟨fld, i⟩, hmem, rfl⟩ := List.mem_map.mp hx
  obtain ⟨slot, -, rfl⟩ := List.mem_map.mp (List.fst_mem_of_mem_zipIdx hmem)
  cases hinit

/-- The fields of an adapter are no static fields. -/
theorem static_eq_none (hu : u.IsArena) (hw : u.WritesOnly W) {a : ClassId}
    (ha : u.types.length ≤ a.toNat) (i : UInt32) (s : Store) :
    (Session.prepared v s).statics.get? ⟨a, i⟩ = none := by
  rw [Session.prepared, Table.get?, List.lookup_eq_none_iff]
  rintro ⟨f, w⟩ hmem
  obtain ⟨d, hd, x, hx, hstatic, rfl, -⟩ := Session.mem_blankStatics.mp hmem
  obtain ⟨⟨fld, j⟩, hfld, rfl⟩ := List.mem_map.mp hx
  rw [run.types_eq, List.mem_append] at hd
  rcases hd with hd | hd
  · obtain ⟨k, hk⟩ := List.mem_iff_getElem?.mp hd
    have hid : d.id.toNat = k := InPlace.place hu k d hk
    have hlt : k < u.types.length := length_place ▸ (List.getElem?_eq_some_iff.mp hk).1
    have hne : a ≠ d.id := by
      rintro rfl
      omega
    exact bne_iff_ne.mpr fun h => hne (congrArg FieldId.owner h)
  · obtain ⟨_, _, c, rfl, -⟩ := run.adapterWritesOnly hw d hd
    obtain ⟨slot, -, rfl⟩ := List.mem_map.mp (List.fst_mem_of_mem_zipIdx hfld)
    cases hstatic

end Lowering.UnitRun

/-- The fields of an object hold what was captured. -/
def Store.Holds (s : Store) (adapter : ClassId) (captures : List Value) (o : Ref) : Prop :=
  ∀ (i : Nat) w, captures[i]? = some w → loadField s.heap ⟨adapter, i.toUInt32⟩ o = .ok w

/-- **From the moment on at which a closure is made, its fields hold what was
captured**, if nothing assigns to them and nothing initializes them. -/
theorem Path.holds {u : CompilationUnit} {writable : FieldId → Prop} {mark : Nat} {s t : Store}
    {ms : List Moment} (h : Path (u.Happens writable mark) s ms t) {i j : Nat} (hij : i ≤ j)
    {m m' : Moment} (hi : ms[i]? = some m) (hj : ms[j]? = some m') {a : ClassId}
    {vs : List Value} {o : Ref} (hm : m.event = .closure a vs o) (hlen : vs.length ≤ 2 ^ 32)
    (hassigned : ∀ k, ¬writable ⟨a, k⟩) (hinit : ∀ f, ¬u.Initializes a f) :
    m'.store.Holds a vs o := by
  intro k w hk
  obtain ⟨before, -, hmade⟩ := h.mem m (List.mem_of_getElem? hi)
  obtain ⟨-, ho⟩ := hmade.of_closure hm
  obtain ⟨fields, ho', hkept⟩ := (h.leads hij hi hj).inst ho
  have hfield := hkept ⟨a, k.toUInt32⟩ (by
    rintro x ⟨serial, fields, outer, hx⟩ (hw | ⟨-, type, ⟨_, _, _, hx'⟩, hi⟩)
    · exact hassigned _ hw
    · rw [hx] at hx'
      cases hx'
      exact hinit _ hi)
  have hset := get?_capturedFields a vs 0 (blankInstance u a) (by omega) k w hk
  rw [Nat.zero_add] at hset
  rw [loadField, ho']
  dsimp only
  rw [hfield, hset]

open Lowering Session in
/-- **Captured values stay.** Let a unit be lowered that assigns to no field of
a type it does not have. Take the moments of any session on the lowered unit,
whatever it runs, calls and invokes, and whether that ends in values or in
faults:

* they recount the session, so whenever a closure is made of operands that have
  values, that is a moment, noted with these values;
* from the moment on at which a closure of a new adapter is made, its fields
  hold these values, at every moment after, in the middle of calls and after
  them;
* that is what the body of the closure finds there when it reads the fields. -/
theorem captures_frozen {u v : CompilationUnit} {policy : SingletonInit} {summary : Summary}
    (h : u.lower policy = .ok (v, summary))
    (hwrites : u.WritesOnly fun f => f.owner.toNat < u.types.length) (budget : Nat)
    (script : List Step) :
    Recounted v budget script ∧
    ∀ (i j : Nat) (m m' : Moment), i ≤ j → (moments v budget script)[i]? = some m →
      (moments v budget script)[j]? = some m' →
      ∀ a vs o, m.event = .closure a vs o → u.types.length ≤ a.toNat → vs.length ≤ 2 ^ 32 →
        m'.store.Holds a vs o ∧
        (u.IsArena → ∀ (n : Nat) w, vs[n]? = some w → ∀ k locals,
          evalExpr v k (CaptureSet.slotRead a n) ⟨⟨some o, locals⟩, m'.store⟩ =
            (.ok w, ⟨⟨some o, locals⟩, m'.store⟩)) := by
  obtain ⟨run⟩ := exists_unitRun h
  have hv := run.writesOnly hwrites
  have hrecounted := recounted v budget script
  obtain ⟨t, hpath⟩ := hrecounted.changes
  refine ⟨hrecounted, ?_⟩
  intro i j m m' hij hi hj a vs o hm ha hlen
  have hholds : m'.store.Holds a vs o := hpath.holds hij hi hj hm hlen
    (fun k hk => Nat.not_lt.mpr ha (hv.assigned hk)) fun f => run.not_initializes hwrites ha f
  refine ⟨hholds, fun hu n w hn k locals => evalExpr_slotRead rfl ?_ (hholds n w hn)⟩
  exact (hpath.leads_of_mem (List.mem_of_getElem? hj)).static_eq_none
    (run.static_eq_none hu hwrites ha _ Store.empty)

namespace Tally

/-- An interface with one method. -/
def step : TypeDecl :=
  { TypeDecl.empty 0 "Step" .topLevel with
    isInterface := true
    methods := [⟨"run", [], [⟨1, "x", .int, true⟩], .int, [], .method, false, true, false, false,
      none, .dummy⟩] }

/-- A tally that makes a closure after it has assigned to its own field. The
first closure is run before and after another one is made. -/
def tally (closure : Expr) : TypeDecl :=
  { TypeDecl.empty 1 "Tally" .topLevel with
    fields := [⟨"total", .int, false, false, none⟩]
    methods := [
      ⟨"make", [], [⟨2, "by", .int, true⟩], .raw 0, [], .method, false, false, false, false,
        some [.expr (.fieldSet none ⟨1, 0⟩ (.localGet 2)), .ret (some closure)],
        .dummy⟩,
      ⟨"main", [], [], .int, [], .method, true, false, false, false,
        some [
          .declare ⟨4, "tally", .raw 1, true⟩ (some (.new (.raw 1) none none [])),
          .declare ⟨5, "step", .raw 0, true⟩ (some (.call (.expr (.localGet 4)) ⟨1, 0⟩ [.int 5])),
          .expr (.call (.expr (.localGet 5)) ⟨0, 0⟩ [.int 1]),
          .expr (.call (.expr (.localGet 4)) ⟨1, 0⟩ [.int 7]),
          .ret (some (.call (.expr (.localGet 5)) ⟨0, 0⟩ [.int 2]))],
        .dummy⟩] }

/-- The closure captures a local and the instance, and assigns to the field
again. -/
def unit : CompilationUnit where
  name := "tally"
  sourcePath := none
  types := [step, tally (.lambda ⟨[⟨3, "x", .int, true⟩],
    .expr (.fieldSet none ⟨1, 0⟩ (.binary .add (.localGet 3) (.localGet 2))),
    .int, .raw 0, .dummy⟩)]

/-- The tally with the closure in a type of its own. -/
def lowered : CompilationUnit where
  name := "tally"
  sourcePath := none
  types := [step, tally (.newClosure 2 [.this none, .localGet 2]),
    { TypeDecl.empty 2 "Tally_$Lambda$1" .adapter with
      isStatic := true
      outer := some 1
      interfaces := [.raw 0]
      fields := [⟨"this$0", .raw 1, false, true, none⟩, ⟨"val$by", .int, false, true, none⟩]
      methods := [⟨"run", [], [⟨3, "x", .int, true⟩], .int, [], .method, false, false, false, false,
        some [.ret (some (.fieldSet (some (.fieldGet (some (.this none)) ⟨2, 0⟩)) ⟨1, 0⟩
          (.binary .add (.localGet 3) (.fieldGet (some (.this none)) ⟨2, 1⟩))))],
        .dummy⟩]
      adapter := some ⟨.dummy, 1, .raw 0, "run", [], [.enclosingInstance 0, .localValue 2 "by"],
        none, .perEvaluation⟩ }]

theorem lower_eq : (unit.lower .onDemand).map (·.1) = .ok lowered := by cbv

def script : List Session.Step := [.run "Tally" "main" []]

theorem closure_made :
    ((Session.moments lowered 9 script)[6]?).map Moment.event =
      some (.closure 2 [.ref 0, .int 5] 1) := by
  rfl

end Tally

/-- Twelve moments come after the one at which the tally makes its first
closure. At all of them the closure holds the value that the local had. -/
theorem captures_frozen_tally :
    Tally.unit.WritesOnly (fun f => f.owner.toNat < Tally.unit.types.length) ∧
      (∃ summary, Tally.unit.lower .onDemand = .ok (Tally.lowered, summary)) ∧
      ((Session.moments Tally.lowered 9 Tally.script)[6]?).map Moment.event =
        some (.closure 2 [.ref 0, .int 5] 1) ∧
      (Session.moments Tally.lowered 9 Tally.script).length = 19 ∧
      ∀ j m, 6 ≤ j → (Session.moments Tally.lowered 9 Tally.script)[j]? = some m →
        loadField m.store.heap ⟨2, 1⟩ 1 = .ok (.int 5) := by
  have hwrites : Tally.unit.WritesOnly (fun f => f.owner.toNat < Tally.unit.types.length) := by
    decide
  obtain ⟨⟨_, summary⟩, hlower, rfl⟩ := map_eq_ok.mp Tally.lower_eq
  obtain ⟨m₆, h₆, hm₆⟩ := Option.map_eq_some_iff.mp Tally.closure_made
  refine ⟨hwrites, ⟨summary, hlower⟩, Tally.closure_made, by decide +kernel, fun j m hj hm => ?_⟩
  obtain ⟨-, hfrozen⟩ := captures_frozen hlower hwrites 9 Tally.script
  exact (hfrozen 6 j m₆ m hj h₆ hm 2 _ 1 hm₆ (by decide) (by decide)).1 1 _ rfl

end Closures
