import Mathlib.Algebra.Group.Nat.Defs
import Mathlib.Logic.Relation
import Closures.Machine.Eval
import Closures.Proofs.Computation

/-!
# What evaluation does to the store, change by change

A run goes from **moment** to moment. A moment is a store together with what has
just happened to it, and `Store.Change` lists what can happen: an object is
made, a field, an element or a static field is set, a line is printed, a closure
is made, the shared instance of an adapter is had, a call is entered or left.
What holds of a store over a whole run follows from what each single change
keeps.

Fields are set in two ways, by the assignments of the program and while an
instance is being made. The parameter `fills` says which fields may be set
where:

* the moments of a run are told with the fields that the program assigns to and
  those that an initializer of the type of the instance sets;
* `Store.Changes` is less exact. It lets a program assign to the fields in
  `writable`, and set every field of an object at or above `mark`, a size that
  the heap had before. An instance below the mark then changes only through the
  assignments of the program.
-/

set_option autoImplicit false

namespace Closures

/-! ## Tables -/

namespace Table

variable {κ α : Type} [BEq κ] [LawfulBEq κ]

theorem get?_put_self (k : κ) (a : α) (t : Table κ α) : (t.put k a).get? k = some a := by
  induction t with
  | nil => simp [put, get?]
  | cons p t ih =>
    obtain ⟨k', b⟩ := p
    rw [put]
    split
    · simp [get?]
    · rename_i hk
      simpa [get?, List.lookup_cons, hk] using ih

theorem get?_put_ne {k k' : κ} (h : k' ≠ k) (a : α) (t : Table κ α) :
    (t.put k a).get? k' = t.get? k' := by
  have hne : (k' == k) = false := beq_false_of_ne h
  induction t with
  | nil => simp [put, get?, List.lookup_cons, hne]
  | cons p t ih =>
    obtain ⟨l, b⟩ := p
    rw [put]
    split
    · rename_i hk
      rw [beq_iff_eq] at hk
      subst hk
      simp [get?, List.lookup_cons, hne]
    · simp only [get?, List.lookup_cons] at ih ⊢
      rw [ih]

/-- Writing a key takes no key away. -/
theorem isSome_get?_put {k k' : κ} {a : α} {t : Table κ α} (h : (t.get? k').isSome) :
    ((t.put k a).get? k').isSome := by
  by_cases hk : k' = k
  · rw [hk, get?_put_self]
    rfl
  · rw [get?_put_ne hk]
    exact h

end Table

/-! ## New objects -/

/-- The object that a value refers to. -/
def Value.ref? : Value → Option Ref
  | .ref r => some r
  | _ => none

/-- The store with a new instance, which has the next serial and blank
fields. -/
def Store.withInstance (u : CompilationUnit) (type : ClassId) (outer : Option Ref)
    (s : Store) : Store :=
  { s with
    serial := s.serial + 1
    heap := s.heap.push (.inst type (s.serial + 1) (blankInstance u type) outer) }

/-- Fields with those of an adapter set in order, from a number on. -/
def capturedFields (adapter : ClassId) :
    Nat → List Value → Table FieldId Value → Table FieldId Value
  | _, [], fields => fields
  | i, v :: vs, fields =>
    capturedFields adapter (i + 1) vs (fields.put ⟨adapter, i.toUInt32⟩ v)

/-- The store with a new closure: an instance that has its captures in its first
fields. -/
def Store.withClosure (u : CompilationUnit) (adapter : ClassId) (captures : List Value)
    (s : Store) : Store :=
  { s with
    serial := s.serial + 1
    heap := s.heap.push (.inst adapter (s.serial + 1)
      (capturedFields adapter 0 captures (blankInstance u adapter)) none) }

/-- The store in which an adapter has got a new instance to share. -/
def Store.withShared (u : CompilationUnit) (adapter : ClassId) (s : Store) : Store :=
  { s.withInstance u adapter none with
    singletons := s.singletons.put adapter (.ref s.heap.size) }

theorem toUInt32_ne {i j : Nat} (hi : i < 2 ^ 32) (hj : j < 2 ^ 32) (h : i ≠ j) :
    i.toUInt32 ≠ j.toUInt32 := by
  intro heq
  have := congrArg UInt32.toNat heq
  simp only [Nat.toUInt32, UInt32.toNat_ofNat'] at this
  omega

theorem isSome_capturedFields {adapter : ClassId} {f : FieldId} :
    ∀ (vs : List Value) (i : Nat) (fields : Table FieldId Value), (fields.get? f).isSome →
      ((capturedFields adapter i vs fields).get? f).isSome
  | [], _, _, h => h
  | _ :: vs, i, _, h => isSome_capturedFields vs (i + 1) _ (Table.isSome_get?_put h)

/-- The fields before those that are set stay. -/
theorem get?_capturedFields_of_lt {adapter : ClassId} :
    ∀ (vs : List Value) (i : Nat) (fields : Table FieldId Value), i + vs.length ≤ 2 ^ 32 →
      ∀ j < i, (capturedFields adapter i vs fields).get? ⟨adapter, j.toUInt32⟩ =
        fields.get? ⟨adapter, j.toUInt32⟩
  | [], _, _, _, _, _ => rfl
  | v :: vs, i, fields, hlen, j, hj => by
    rw [List.length_cons] at hlen
    have hne : (⟨adapter, j.toUInt32⟩ : FieldId) ≠ ⟨adapter, i.toUInt32⟩ := fun heq =>
      toUInt32_ne (by omega) (by omega) (Nat.ne_of_lt hj) (congrArg FieldId.index heq)
    exact (get?_capturedFields_of_lt vs (i + 1) _ (by omega) j (by omega)).trans
      (Table.get?_put_ne hne v fields)

/-- The fields that are set hold the values. -/
theorem get?_capturedFields (adapter : ClassId) :
    ∀ (vs : List Value) (i : Nat) (fields : Table FieldId Value), i + vs.length ≤ 2 ^ 32 →
      ∀ (j : Nat) v, vs[j]? = some v →
        (capturedFields adapter i vs fields).get? ⟨adapter, (i + j).toUInt32⟩ = some v
  | [], _, _, _, _, _, h => by simp at h
  | w :: vs, i, fields, hlen, j, v, hj => by
    rw [List.length_cons] at hlen
    cases j with
    | zero =>
      cases hj
      exact (get?_capturedFields_of_lt vs (i + 1) _ (by omega) i (Nat.lt_succ_self i)).trans
        (Table.get?_put_self ..)
    | succ j =>
      rw [show i + (j + 1) = i + 1 + j by omega]
      exact get?_capturedFields adapter vs (i + 1) _ (by omega) j v hj

theorem modify_push_size (h : Heap) (o : Obj) (g : Obj → Obj) :
    (h.push o).modify h.size g = h.push (g o) := by
  refine Array.ext_getElem? fun i => ?_
  rw [Array.getElem?_modify, Array.getElem?_push, Array.getElem?_push]
  split
  · rename_i hi
    rw [if_pos hi.symm, if_pos hi.symm]
    rfl
  · rename_i hi
    rw [if_neg (Ne.symm hi), if_neg (Ne.symm hi)]

/-- Filling the fields of the last object. -/
theorem fillFields_push (adapter type : ClassId) (serial : UInt32) (outer : Option Ref)
    (h : Heap) (s : Store) :
    ∀ (vs : List Value) (i : Nat) (fields : Table FieldId Value),
      fillFields adapter h.size i vs
          { s with heap := h.push (.inst type serial fields outer) } =
        (.ok (), { s with
          heap := h.push (.inst type serial (capturedFields adapter i vs fields) outer) })
  | [], _, _ => rfl
  | v :: vs, i, fields => by
    have hstored : storeField h.size ⟨adapter, i.toUInt32⟩ v
        { s with heap := h.push (.inst type serial fields outer) } =
        (.ok (), { s with
          heap := h.push (.inst type serial (fields.put ⟨adapter, i.toUInt32⟩ v) outer) }) := by
      change (Except.ok (), { s with heap := (h.push _).modify h.size _ }) = _
      rw [modify_push_size]
      rfl
    rw [fillFields, bind_apply, hstored]
    exact fillFields_push adapter type serial outer h s vs (i + 1) _

/-- **A closure is put at the end of the heap**, with its captures in its first
fields. -/
theorem newClosure_eq (u : CompilationUnit) (adapter : ClassId) (captures : List Value)
    (s : Store) :
    newClosure u adapter captures s =
      (.ok (.ref s.heap.size), s.withClosure u adapter captures) := by
  change (fillFields adapter s.heap.size 0 captures >>= fun _ => pure (Value.ref s.heap.size))
    (s.withInstance u adapter none) = _
  have hfill := fillFields_push adapter adapter (s.serial + 1) none s.heap
    { s with serial := s.serial + 1 } captures 0 (blankInstance u adapter)
  rw [bind_apply, Store.withInstance, hfill]
  rfl

/-! ## Moments and changes -/

/-- What happens at a moment of a run. -/
inductive Event where
  /-- A call is entered. -/
  | enter
  /-- A call is left, whatever it ended in. -/
  | leave
  /-- A closure is made of the values of its operands. -/
  | closure (adapter : ClassId) (captures : List Value) (made : Ref)
  /-- The shared instance of an adapter is had. -/
  | shared (adapter : ClassId) (had : Value)
  /-- Something else changes. -/
  | change
  /-- A session turns to its next step. -/
  | turn

/-- A moment of a run: what has just happened, and the store then. -/
structure Moment where
  event : Event
  store : Store

/-- One change that evaluation makes to the store, and the moment after it. -/
inductive Store.Change (u : CompilationUnit) (fills : Store → Ref → FieldId → Prop) :
    Store → Moment → Prop where
  /-- A new box. -/
  | box (s : Store) (kind : Primitive) (v : Value) :
    Change u fills s ⟨.change, { s with heap := s.heap.push (.boxed kind v) }⟩
  /-- A new array. -/
  | array (s : Store) (t : Ty) (vs : Array Value) :
    Change u fills s ⟨.change, { s with heap := s.heap.push (.array t vs) }⟩
  /-- A new instance, whose initializers have not run. -/
  | create (s : Store) (type : ClassId) (outer : Option Ref) :
    Change u fills s ⟨.change, s.withInstance u type outer⟩
  /-- A field is set. -/
  | field (s : Store) (r : Ref) (f : FieldId) (v : Value) (h : fills s r f) :
    Change u fills s ⟨.change, { s with heap := s.heap.modify r (Obj.withField f v) }⟩
  /-- An array element is set. -/
  | element (s : Store) (r : Ref) (i : Nat) (v : Value) :
    Change u fills s ⟨.change, { s with heap := s.heap.modify r (Obj.withElement i v) }⟩
  /-- A static field is set; it was there before. -/
  | static (s : Store) (f : FieldId) (v : Value) (h : (s.statics.get? f).isSome) :
    Change u fills s ⟨.change, { s with statics := s.statics.put f v }⟩
  /-- A line is printed. -/
  | print (s : Store) (line : String) :
    Change u fills s ⟨.change, { s with printed := line :: s.printed }⟩
  | closure (s : Store) (adapter : ClassId) (captures : List Value) :
    Change u fills s ⟨.closure adapter captures s.heap.size, s.withClosure u adapter captures⟩
  /-- The shared instance of an adapter is made; there was none before. -/
  | share (s : Store) (adapter : ClassId) (h : s.singletons.get? adapter = none) :
    Change u fills s ⟨.shared adapter (.ref s.heap.size), s.withShared u adapter⟩
  /-- The shared instance of an adapter is there already. -/
  | had (s : Store) (adapter : ClassId) (v : Value) (h : s.singletons.get? adapter = some v) :
    Change u fills s ⟨.shared adapter v, s⟩
  /-- A call is entered, within the limit. -/
  | enter (s : Store) (h : s.depth < maxCallDepth) :
    Change u fills s ⟨.enter, { s with depth := s.depth + 1 }⟩
  | leave (s : Store) : Change u fills s ⟨.leave, { s with depth := s.depth - 1 }⟩
  | turn (s : Store) : Change u fills s ⟨.turn, s⟩

/-- One store leads to another, by any number of changes. -/
abbrev Store.Leads (R : Store → Moment → Prop) : Store → Store → Prop :=
  Relation.ReflTransGen fun s t => ∃ e, R s ⟨e, t⟩

/-- A sequence of changes, in which the program assigns to the fields in
`writable` and an object at or above the mark may be in the making. -/
abbrev Store.Changes (u : CompilationUnit) (writable : FieldId → Prop) (mark : Nat) :
    Store → Store → Prop :=
  Store.Leads (Store.Change u fun _ r f => writable f ∨ mark ≤ r)

/-! ## What a change keeps -/

namespace Store

variable {u : CompilationUnit} {fills fills' : Store → Ref → FieldId → Prop} {s : Store}
  {m : Moment}

/-- Where more may be set, more can happen. -/
theorem Change.mono (h : Change u fills s m) (hf : ∀ s r f, fills s r f → fills' s r f) :
    Change u fills' s m := by
  cases h with
  | box kind v => exact .box s kind v
  | array t vs => exact .array s t vs
  | create type outer => exact .create s type outer
  | field r f v h => exact .field s r f v (hf s r f h)
  | element r i v => exact .element s r i v
  | static f v h => exact .static s f v h
  | print line => exact .print s line
  | closure adapter captures => exact .closure s adapter captures
  | share adapter h => exact .share s adapter h
  | had adapter v h => exact .had s adapter v h
  | enter h => exact .enter s h
  | leave => exact .leave s
  | turn => exact .turn s

/-- The heap never shrinks. -/
theorem Change.size_le (h : Change u fills s m) : s.heap.size ≤ m.store.heap.size := by
  cases h <;> simp [withInstance, withClosure, withShared]

/-- A static field that is there stays there. -/
theorem Change.isSome_static (h : Change u fills s m) {f : FieldId}
    (hf : (s.statics.get? f).isSome) : (m.store.statics.get? f).isSome := by
  cases h with
  | static g v hg => exact Table.isSome_get?_put hf
  | _ => exact hf

/-- No static field comes into being. -/
theorem Change.static_eq_none (h : Change u fills s m) {f : FieldId}
    (hf : s.statics.get? f = none) : m.store.statics.get? f = none := by
  cases h with
  | static g v hg =>
    have hne : f ≠ g := by
      rintro rfl
      rw [hf] at hg
      cases hg
    exact (Table.get?_put_ne hne v _).trans hf
  | _ => exact hf

/-- A new object leaves those before it alone. -/
theorem getElem?_push_of_some {h : Heap} {r : Ref} {o o' : Obj} (hr : h[r]? = some o) :
    (h.push o')[r]? = some o := by
  obtain ⟨hlt, -⟩ := Array.getElem?_eq_some_iff.mp hr
  rw [Array.getElem?_push, if_neg (Nat.ne_of_lt hlt), hr]

/-- **An instance stays what it is**, and so do its fields that are not set. -/
theorem Change.inst (h : Change u fills s m) {r : Ref} {type : ClassId} {serial : UInt32}
    {fields : Table FieldId Value} {outer : Option Ref}
    (ho : s.heap[r]? = some (.inst type serial fields outer)) :
    ∃ fields', m.store.heap[r]? = some (.inst type serial fields' outer) ∧
      ∀ f, ¬fills s r f → fields'.get? f = fields.get? f := by
  cases h with
  | box | array | create | closure | share =>
    exact ⟨fields, getElem?_push_of_some ho, fun _ _ => rfl⟩
  | static | print | had | enter | leave | turn => exact ⟨fields, ho, fun _ _ => rfl⟩
  | element r' i v =>
    refine ⟨fields, ?_, fun _ _ => rfl⟩
    rw [Array.getElem?_modify]
    split
    · rw [ho]; rfl
    · exact ho
  | field r' g v hg =>
    rw [Array.getElem?_modify]
    split
    · rename_i hr
      subst hr
      rw [ho]
      refine ⟨fields.put g v, rfl, fun f hf => Table.get?_put_ne ?_ v fields⟩
      rintro rfl
      exact hf hg
    · exact ⟨fields, ho, fun _ _ => rfl⟩

/-- **A change leaves every shared instance in its place.** -/
theorem Change.shared (h : Change u fills s m) {a : ClassId} {v : Value}
    (ha : s.singletons.get? a = some v) : m.store.singletons.get? a = some v := by
  cases h with
  | share adapter hnone =>
    have hne : a ≠ adapter := by
      rintro rfl
      rw [hnone] at ha
      cases ha
    exact (Table.get?_put_ne hne _ _).trans ha
  | _ => exact ha

/-- A closure that has been made is the last object, with what it captured. -/
theorem Change.of_closure (h : Change u fills s m) {adapter : ClassId} {captures : List Value}
    {o : Ref} (he : m.event = .closure adapter captures o) :
    o = s.heap.size ∧ m.store.heap[o]? = some (.inst adapter (s.serial + 1)
      (capturedFields adapter 0 captures (blankInstance u adapter)) none) := by
  cases h <;> cases he
  exact ⟨rfl, Array.getElem?_push_size⟩

/-! ## Any number of changes -/

/-- There is an instance of a type at a place. -/
def HasInstance (type : ClassId) (r : Ref) (s : Store) : Prop :=
  ∃ serial fields outer, s.heap[r]? = some (.inst type serial fields outer)

variable {t : Store}

/-- What every change keeps, any number of changes keep. -/
theorem Leads.keeps {R : Store → Moment → Prop} {P : Store → Prop} (h : Leads R s t)
    (hP : ∀ s m, R s m → P s → P m.store) (hs : P s) : P t := by
  induction h with
  | refl => exact hs
  | tail _ hstep ih =>
    obtain ⟨e, hstep⟩ := hstep
    exact hP _ _ hstep ih

theorem Leads.size_le (h : Leads (Change u fills) s t) : s.heap.size ≤ t.heap.size :=
  h.keeps (P := fun w => s.heap.size ≤ w.heap.size)
    (fun _ _ hstep hw => Nat.le_trans hw hstep.size_le) (Nat.le_refl _)

theorem Leads.isSome_static (h : Leads (Change u fills) s t) {f : FieldId}
    (hf : (s.statics.get? f).isSome) : (t.statics.get? f).isSome :=
  h.keeps (P := fun w => (w.statics.get? f).isSome) (fun _ _ hstep => hstep.isSome_static) hf

theorem Leads.static_eq_none (h : Leads (Change u fills) s t) {f : FieldId}
    (hf : s.statics.get? f = none) : t.statics.get? f = none :=
  h.keeps (P := fun w => w.statics.get? f = none) (fun _ _ hstep => hstep.static_eq_none) hf

theorem Leads.shared (h : Leads (Change u fills) s t) {a : ClassId} {v : Value}
    (ha : s.singletons.get? a = some v) : t.singletons.get? a = some v :=
  h.keeps (P := fun w => w.singletons.get? a = some v) (fun _ _ hstep => hstep.shared) ha

/-- **An instance stays what it is over any number of changes**, and so do its
fields that are not set as long as it is there. -/
theorem Leads.inst (h : Leads (Change u fills) s t) {r : Ref} {type : ClassId}
    {serial : UInt32} {fields : Table FieldId Value} {outer : Option Ref}
    (ho : s.heap[r]? = some (.inst type serial fields outer)) :
    ∃ fields', t.heap[r]? = some (.inst type serial fields' outer) ∧
      ∀ f, (∀ w : Store, w.HasInstance type r → ¬fills w r f) →
        fields'.get? f = fields.get? f := by
  induction h with
  | refl => exact ⟨fields, ho, fun _ _ => rfl⟩
  | tail _ hstep ih =>
    obtain ⟨e, hstep⟩ := hstep
    obtain ⟨fields', ho', hf'⟩ := ih
    obtain ⟨fields'', ho'', hf''⟩ := hstep.inst ho'
    exact ⟨fields'', ho'', fun f hf =>
      (hf'' f (hf _ ⟨serial, fields', outer, ho'⟩)).trans (hf' f hf)⟩

/-- An instance below the mark keeps the fields that the program does not assign
to. -/
theorem Changes.inst_below {writable : FieldId → Prop} {mark : Nat}
    (h : Changes u writable mark s t) {r : Ref} (hr : r < mark)
    {type : ClassId} {serial : UInt32} {fields : Table FieldId Value} {outer : Option Ref}
    (ho : s.heap[r]? = some (.inst type serial fields outer)) :
    ∃ fields', t.heap[r]? = some (.inst type serial fields' outer) ∧
      ∀ f, ¬writable f → fields'.get? f = fields.get? f := by
  obtain ⟨fields', ho', hf'⟩ := h.inst ho
  refine ⟨fields', ho', fun f hf => hf' f fun _ _ hfills => ?_⟩
  exact hfills.elim hf (Nat.not_le.mpr hr)

end Store

end Closures
