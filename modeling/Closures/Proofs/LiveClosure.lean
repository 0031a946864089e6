import Closures.Proofs.CaptureAnalysis
import Closures.Proofs.EnclosingInstances
import Closures.Proofs.EvaluationRecord

/-!
# Closures in being

A `LiveClosure` is a closure whose site has been evaluated: the object, and the
frame it was made in. Its body can be run in two places, **outside** in the
frame at the site and **inside** in a frame of the adapter, where what was
captured is read from the fields of the object.

`Linked` relates the two runs. They share the store, they agree on the locals
that the closure itself declares, and the fields of the object hold what the
frame at the site holds. The last point is an invariant of the store (`Held`),
and every change that a program can make keeps it (`Held.changes`).

`Agree` says of two evaluations that linked configurations give the same outcome
and remain linked. It is closed under everything that evaluation is composed of.
-/

set_option autoImplicit false

namespace Closures

/-- A closure whose site has been evaluated. -/
structure LiveClosure where
  /-- The program that runs. -/
  unit : CompilationUnit
  site : Site
  captures : CaptureSet
  adapter : ClassId
  /-- The locals that the closure itself declares. -/
  declared : List LocalId
  /-- The frame in which the site was evaluated. -/
  frame : Frame
  /-- The object that came out. -/
  object : Ref
  /-- A size of the heap, with that object and the one at the site below it. -/
  mark : Nat

/-- What a slot is filled with in a frame, if the site reaches one enclosing
instance at most. -/
def Slot.contents? (frame : Frame) : Slot → Option Value
  | .localValue id _ _ => frame.locals.get? id
  | .instance_ _ _ => frame.this.map .ref
  | .receiver _ => none

/-- The static fields that a store has are those that a unit declares. -/
def Store.HasStatics (u : CompilationUnit) (st : Store) : Prop :=
  ∀ f, (st.statics.get? f).isSome = (u.field? f).any (·.isStatic)

theorem Store.Changes.hasStatics {u v : CompilationUnit} {writable : FieldId → Prop} {mark : Nat}
    {st st' : Store} (h : Store.Changes u writable mark st st') (hst : st.HasStatics v) :
    st'.HasStatics v := by
  intro f
  rw [← hst f]
  cases hf : st.statics.get? f with
  | none => rw [h.static_eq_none hf]
  | some v => exact h.isSome_static (by rw [hf]; rfl)

namespace LiveClosure

variable (x : LiveClosure)

/-- The fields that the program may assign to: all but those of the adapter. -/
def Writable (f : FieldId) : Prop := f.owner ≠ x.adapter

/-- What redirects the body. -/
def redirect : Expr → Expr := x.captures.redirect x.site x.adapter

/-- The store has the object with what was captured, the instance at the site
and the static fields. -/
structure Held (st : Store) : Prop where
  object : ∃ type serial fields outer, st.heap[x.object]? = some (.inst type serial fields outer) ∧
    ∀ (i : Nat) slot, x.captures.slots[i]? = some slot →
      ∃ v, slot.contents? x.frame = some v ∧ fields.get? ⟨x.adapter, i.toUInt32⟩ = some v
  this : ∀ c ∈ x.site.chain, ∃ t, x.frame.this = some t ∧ isInstanceOf x.unit st.heap c t = true
  statics : st.HasStatics x.unit

/-- The objects that the closure needs are below the mark. -/
structure Below : Prop where
  object : x.object < x.mark
  this : ∀ c ∈ x.site.chain, ∀ t, x.frame.this = some t → t < x.mark

variable {x}

theorem isInstanceOf_of_changes {u v : CompilationUnit} {writable : FieldId → Prop} {mark : Nat}
    {st st' : Store} (h : Store.Changes u writable mark st st') {t : Ref} (ht : t < mark)
    {c : ClassId} (hc : isInstanceOf v st.heap c t = true) :
      isInstanceOf v st'.heap c t = true := by
  rw [isInstanceOf] at hc
  split at hc
  · rename_i type serial fields outer ho
    obtain ⟨fields', ho', -⟩ := h.inst_below ht ho
    rw [isInstanceOf, ho']
    exact hc
  · cases hc

/-- **No change that the program can make affects what a closure holds.** -/
theorem Held.changes (hb : x.Below) {st st' : Store} (hst : x.Held st)
    (h : Store.Changes x.unit x.Writable x.mark st st') : x.Held st' := by
  constructor
  · obtain ⟨type, serial, fields, outer, ho, hslots⟩ := hst.object
    obtain ⟨fields', ho', hf⟩ := h.inst_below hb.object ho
    refine ⟨type, serial, fields', outer, ho', fun i slot hi => ?_⟩
    obtain ⟨v, hv, hget⟩ := hslots i slot hi
    refine ⟨v, hv, ?_⟩
    rw [hf _ (fun hw => hw rfl), hget]
  · intro c hc
    obtain ⟨t, ht, hinst⟩ := hst.this c hc
    exact ⟨t, ht, isInstanceOf_of_changes h (hb.this c hc t ht) hinst⟩
  · exact h.hasStatics hst.statics

/-! ## Linked configurations -/

variable (x)

/-- A configuration outside, at the site, and one inside, in the adapter. -/
structure Linked (outside inside : Config) : Prop where
  store : inside.store = outside.store
  size : x.mark ≤ outside.store.heap.size
  held : x.Held outside.store
  thisOutside : outside.frame.this = x.frame.this
  thisInside : inside.frame.this = some x.object
  captured : ∀ id name ty, Slot.localValue id name ty ∈ x.captures.slots →
    outside.frame.locals.get? id = x.frame.locals.get? id
  declared : ∀ id ∈ x.declared, inside.frame.locals.get? id = outside.frame.locals.get? id

/-- Two evaluations that cannot be told apart by what they return and leave
behind. -/
def Agree {α : Type} (outside inside : Eval α) : Prop :=
  ∀ c d, x.Linked c d → (inside d).1 = (outside c).1 ∧ x.Linked (outside c).2 (inside d).2

variable {x} {α β : Type}

namespace Agree

theorem pure (a : α) : x.Agree (Pure.pure a) (Pure.pure a) := fun _ _ h => ⟨rfl, h⟩

theorem halt (e : Halt) : x.Agree (throw e : Eval α) (throw e) := fun _ _ h => ⟨rfl, h⟩

theorem fault (f : Fault) : x.Agree (Eval.fault f : Eval α) (Eval.fault f) := halt _

/-- A first part that agrees hands its outcome to both second parts. -/
theorem bind {m m' : Eval α} {f f' : α → Eval β} (hm : x.Agree m m')
    (hf : ∀ a, x.Agree (f a) (f' a)) : x.Agree (m >>= f) (m' >>= f') := by
  intro c d h
  obtain ⟨hr, hlink⟩ := hm c d h
  rw [bind_apply, bind_apply]
  rcases hc : m c with ⟨r, c'⟩
  rcases hd : m' d with ⟨r', d'⟩
  rw [hc, hd] at hr hlink
  cases hr
  cases r with
  | error e => exact ⟨rfl, hlink⟩
  | ok a => exact hf a c' d' hlink

theorem read {f f' : Config → Eval α} (h : ∀ c d, x.Linked c d → x.Agree (f c) (f' d)) :
    x.Agree (get >>= f) (get >>= f') := fun c d hlink => h c d hlink c d hlink

theorem onHeap (f : Heap → Except Fault α) : x.Agree (Eval.onHeap f) (Eval.onHeap f) := by
  intro c d h
  rw [Eval.onHeap, get_bind_apply, get_bind_apply, h.store]
  cases f c.store.heap with
  | ok a => exact ⟨rfl, h⟩
  | error e => exact ⟨rfl, h⟩

/-- An action on the store does the same from both frames. -/
theorem inFrame (hb : x.Below) {a : Action α} (ha : a.Confined x.unit x.Writable x.mark) :
    x.Agree a.inFrame a.inFrame := by
  rintro ⟨f, st⟩ ⟨f', st'⟩ h
  obtain rfl : st' = st := h.store
  have hch : Store.Changes x.unit x.Writable x.mark st' (a st').2 := ha st' h.size
  exact ⟨rfl, { h with
    store := rfl
    size := Nat.le_trans h.size hch.size_le
    held := h.held.changes hb hch }⟩

theorem readLocal {id : LocalId} (hid : id ∈ x.declared) :
    x.Agree (readLocal id) (readLocal id) := by
  intro c d h
  rw [Closures.readLocal, get_bind_apply, get_bind_apply, h.declared id hid]
  cases c.frame.locals.get? id with
  | some v => exact ⟨rfl, h⟩
  | none => exact ⟨rfl, h⟩

/-- A local that the closure declares is written on both sides; it is not a
captured one. -/
theorem writeLocal (hfree : ∀ id name ty, Slot.localValue id name ty ∈ x.captures.slots →
      id ∉ x.declared) {id : LocalId} (hid : id ∈ x.declared) (v : Value) :
    x.Agree (writeLocal id v) (writeLocal id v) := by
  intro c d h
  refine ⟨rfl, { h with captured := ?_, declared := ?_ }⟩
  · intro id' name ty hmem
    have hne : id' ≠ id := fun he => hfree id' name ty hmem (he ▸ hid)
    exact (Table.get?_put_ne hne v _).trans (h.captured id' name ty hmem)
  · intro id' hid'
    change (d.frame.locals.put id v).get? id' = (c.frame.locals.put id v).get? id'
    by_cases he : id' = id
    · rw [he, Table.get?_put_self, Table.get?_put_self]
    · rw [Table.get?_put_ne he, Table.get?_put_ne he, h.declared id' hid']

theorem iterate {round round' : Eval (Option Flow)} (h : x.Agree round round') :
    ∀ rounds, x.Agree (iterate rounds round) (iterate rounds round')
  | 0 => halt _
  | rounds + 1 => bind h fun end? => by
    cases end? with
    | some flow => exact pure flow
    | none => exact iterate h rounds

theorem forEachValue {body body' : Value → Eval Flow} (h : ∀ v, x.Agree (body v) (body' v)) :
    ∀ vs, x.Agree (forEachValue body vs) (forEachValue body' vs)
  | [] => pure _
  | v :: vs => bind (h v) fun flow => by
    cases flow.endsLoop? with
    | some flow => exact pure flow
    | none => exact forEachValue h vs

/-- Both handlers are asked about the same value on the same heap. -/
theorem handling {body body' : Eval Flow} (hbody : x.Agree body body')
    {accepts : Heap → Value → Bool} {handler handler' : Value → Eval Flow}
    (hh : ∀ v, x.Agree (handler v) (handler' v)) :
    x.Agree (handling body accepts handler) (handling body' accepts handler') := by
  intro c d h
  obtain ⟨hr, hlink⟩ := hbody c d h
  rw [Closures.handling, Closures.handling]
  rcases hc : body c with ⟨r, c'⟩
  rcases hd : body' d with ⟨r', d'⟩
  rw [hc, hd] at hr hlink
  cases hr
  rcases r with (f | _) | flow
  · cases f with
    | thrown v =>
      dsimp only
      rw [hlink.store]
      split
      · exact hh v c' d' hlink
      · exact ⟨rfl, hlink⟩
    | _ => exact ⟨rfl, hlink⟩
  · exact ⟨rfl, hlink⟩
  · exact ⟨rfl, hlink⟩

theorem finally_ {body body' final final' : Eval Flow} (hbody : x.Agree body body')
    (hfinal : x.Agree final final') : x.Agree (finally_ body final) (finally_ body' final') := by
  intro c d h
  obtain ⟨hr, hlink⟩ := hbody c d h
  rw [Closures.finally_, Closures.finally_]
  rcases hc : body c with ⟨r, c'⟩
  rcases hd : body' d with ⟨r', d'⟩
  rw [hc, hd] at hr hlink
  cases hr
  obtain ⟨hr', hlink'⟩ := hfinal c' d' hlink
  rcases hc' : final c' with ⟨q, c''⟩
  rcases hd' : final' d' with ⟨q', d''⟩
  rw [hc', hd'] at hr' hlink'
  cases hr'
  -- The final block counts unless the budget ran out before it, or it ended normally.
  rcases r with (f | _) | flow
  · dsimp only
    rw [hc', hd']
    rcases q with e | _ | _ | _ | _ <;> exact ⟨rfl, hlink'⟩
  · exact ⟨rfl, hlink⟩
  · dsimp only
    rw [hc', hd']
    rcases q with e | _ | _ | _ | _ <;> exact ⟨rfl, hlink'⟩

end Agree

end LiveClosure

/-! ## Resolution of the innermost instance -/

namespace LiveClosure

variable (x : LiveClosure)

/-- What is asked of the program, the site and the closure, apart from the
store. -/
structure Valid : Prop where
  below : x.Below
  extended : x.site.unit.ExtendedBy x.unit
  chain : x.site.chain.length ≤ 1
  /-- Adapters carry no enclosing instance. -/
  adapters : ∀ d ∈ x.unit.types, d.kind = .adapter → d.isStatic = true
  /-- The fields of the adapter are fields of its instances. -/
  fields : ∀ i f, x.unit.field? ⟨x.adapter, i⟩ = some f → f.isStatic = false
  /-- No captured local is declared in the closure. -/
  free : ∀ id name ty, Slot.localValue id name ty ∈ x.captures.slots → id ∉ x.declared

variable {x} {st : Store}

theorem Valid.chain_eq (hx : x.Valid) {c : ClassId} {i : Nat} (hc : x.site.chain[i]? = some c) :
    i = 0 ∧ c ∈ x.site.chain := by
  obtain ⟨hi, -⟩ := List.getElem?_eq_some_iff.mp hc
  have hlen := hx.chain
  exact ⟨by omega, List.mem_of_getElem? hc⟩

/-- **The search at run time finds the instance that the analysis meant.** -/
theorem enclosing_eq (hx : x.Valid) (hst : x.Held st) {owner : ClassId} {depth : Nat}
    (h : x.site.memberDepth owner = .ok depth) : depth = 0 ∧
      ∃ t, x.frame.this = some t ∧ enclosing x.unit st.heap x.frame.this owner = .ok t := by
  rw [Site.memberDepth_eq_ok, List.findIdx?_eq_some_iff_getElem] at h
  obtain ⟨hlt, hsub, -⟩ := h
  obtain ⟨hdepth, hmem⟩ := hx.chain_eq (List.getElem?_eq_getElem hlt)
  obtain ⟨t, ht, hinst⟩ := hst.this _ hmem
  refine ⟨hdepth, t, ht, ?_⟩
  rw [ht]
  exact enclosing_self (isInstanceOf_trans hinst (hx.extended.isSubclass hsub))

/-- **`this` means at run time what the analysis took it for.** -/
theorem thisObject_eq (hx : x.Valid) (hst : x.Held st) {q : Option ClassId} {depth : Nat}
    (h : x.site.thisDepth q = .ok depth) : depth = 0 ∧
      ∃ t, x.frame.this = some t ∧ thisObject x.unit st.heap x.frame.this q = .ok t := by
  cases q with
  | none =>
    obtain ⟨hne, hdepth⟩ := Site.thisDepth_none_eq_ok.mp h
    obtain ⟨t, ht, -⟩ := hst.this _ (List.head_mem hne)
    exact ⟨hdepth, t, ht, by rw [ht]; rfl⟩
  | some q =>
    obtain ⟨hne, d, hd, hq⟩ := Site.thisDepth_some_eq_ok.mp h
    obtain ⟨d', hd', hshape⟩ := hx.extended q d hd
    cases hi : d.isInterface with
    | true =>
      rw [hi] at hq
      obtain ⟨t, ht, -⟩ := hst.this _ (List.head_mem hne)
      refine ⟨hq, t, ht, ?_⟩
      rw [ht, thisObject_some hd', hshape.isInterface, hi]
      rfl
    | false =>
      rw [hi] at hq
      have hget : x.site.chain[depth]? = some q := by
        obtain ⟨hlt, heq, -⟩ := List.findIdx?_eq_some_iff_getElem.mp hq
        rw [List.getElem?_eq_getElem hlt, beq_iff_eq.mp heq]
      obtain ⟨hdepth, hmem⟩ := hx.chain_eq hget
      obtain ⟨t, ht, hinst⟩ := hst.this q hmem
      refine ⟨hdepth, t, ht, ?_⟩
      rw [ht, thisObject_some hd', hshape.isInterface, hi]
      exact enclosing_self hinst

end LiveClosure

/-! ## Slots -/

/-- Reading a field of the object at hand, where no static field is meant. -/
theorem evalExpr_slotRead {u : CompilationUnit} {k : Calls} {a : ClassId} {i : Nat} {o : Ref}
    {c : Config} {v : Value} (hthis : c.frame.this = some o)
    (hstatic : c.store.statics.get? ⟨a, i.toUInt32⟩ = none)
    (hload : loadField c.store.heap ⟨a, i.toUInt32⟩ o = .ok v) :
    evalExpr u k (CaptureSet.slotRead a i) c = (.ok v, c) := by
  have hobject : evalExpr u k (.this none) c = (.ok (.ref o), c) := by
    rw [evalExpr, get_bind_apply, hthis]
    rfl
  have howner : evalFieldOwner u k ⟨a, i.toUInt32⟩ (some (.this none)) c = (.ok o, c) := by
    rw [evalFieldOwner, bind_apply, hobject]
    rfl
  rw [CaptureSet.slotRead, evalExpr, get_bind_apply, hstatic]
  dsimp only
  rw [bind_apply, howner]
  exact onHeap_of_ok hload

namespace LiveClosure

variable {x : LiveClosure} {k : Calls}

/-- **Inside, a slot reads as what filled it.** -/
theorem slot_read (hx : x.Valid) {c d : Config} (h : x.Linked c d) {i : Nat} {slot : Slot}
    (hi : x.captures.slots[i]? = some slot) :
    ∃ v, slot.contents? x.frame = some v ∧
      evalExpr x.unit k (CaptureSet.slotRead x.adapter i) d = (.ok v, d) := by
  obtain ⟨type, serial, fields, outer, ho, hslots⟩ := h.held.object
  obtain ⟨v, hv, hget⟩ := hslots i slot hi
  refine ⟨v, hv, evalExpr_slotRead h.thisInside ?_ ?_⟩
  · have hnone := h.held.statics ⟨x.adapter, i.toUInt32⟩
    rw [← Option.not_isSome_iff_eq_none, h.store, hnone]
    cases hf : x.unit.field? ⟨x.adapter, i.toUInt32⟩ with
    | none => simp
    | some f => simp [hx.fields _ f hf]
  · rw [h.store, loadField, ho]
    dsimp only
    rw [hget]

end LiveClosure

end Closures
