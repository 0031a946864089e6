import Mathlib.Order.Basic
import Closures.Proofs.PairedHeaps

/-!
# Simulation

Two stores are paired if their heaps are and if they hold paired values in
static fields. They may differ in the shared instances of adapters: the second
store can have made one ahead of its time. Such an instance is still as it was
created, and no value refers to it, so nothing can come of it before it is asked
for.

A computation **simulates** another if from paired stores it ends in paired
stores, with paired results. The pairing grows on the way, as objects are
created and shared instances are asked for. The first computation may also be
**stopped**: it then ends as if the budget were used up, with the call depth one
too high as a mark. No computation of the library leaves such a mark; it is put
by those that refuse to show the serial of an instance.
-/

set_option autoImplicit false

namespace Closures

/-! ## Paired stores -/

/-- An instance as it is created, with nothing around it. -/
def Obj.IsBlank (u : CompilationUnit) (o : Obj) : Prop :=
  ∃ a serial, o = .inst a serial (blankInstance u a) none

theorem ref?_blankInstance (u : CompilationUnit) (a : ClassId) :
    ∀ x ∈ blankInstance u a, x.2.ref? = none := by
  intro x hx
  obtain ⟨c, -, hx⟩ := List.mem_flatMap.mp hx
  cases hd : u.decl? c with
  | none => rw [hd] at hx; cases hx
  | some d =>
    rw [hd] at hx
    obtain ⟨y, -, rfl⟩ := List.mem_map.mp hx
    exact Value.ref?_defaultFor _

/-- A new instance is paired with a new instance of the same type. -/
theorem Obj.Paired.blank {ρ : Pairing} (u : CompilationUnit) (a : ClassId) (serial serial' : UInt32)
    {outer outer' : Option Ref} (h : Option.Rel ρ outer outer') :
    (Obj.inst a serial (blankInstance u a) outer).Paired ρ
      (.inst a serial' (blankInstance u a) outer') :=
  .inst (.refl (ref?_blankInstance u a)) h

/-- **Paired stores.** -/
structure Store.Paired (u : CompilationUnit) (ρ : Pairing) (s t : Store) : Prop where
  heap : Heap.Paired ρ s.heap t.heap
  /-- What is in no pair is a blank instance. -/
  spare : ∀ (r : Ref) o, s.heap[r]? = some o → (∃ r', ρ r r') ∨ o.IsBlank u
  spare' : ∀ (r : Ref) o, t.heap[r]? = some o → (∃ r', ρ r' r) ∨ o.IsBlank u
  statics : s.statics.Paired ρ t.statics
  shared : ∀ a v, s.singletons.get? a = some v → ∃ w, t.singletons.get? a = some w ∧ v.Paired ρ w
  /-- A shared instance that only the second store has is blank and in no
  pair. -/
  ready : ∀ a w, s.singletons.get? a = none → t.singletons.get? a = some w →
    ∃ r serial, w = .ref r ∧ (∀ x, ¬ρ x r) ∧ t.heap[r]? =
      some (.inst a serial (blankInstance u a) none)
  printed : t.printed = s.printed
  depth : t.depth = s.depth

namespace Store.Paired

variable {u : CompilationUnit} {ρ : Pairing} {s t : Store}

/-- Serials do not matter. -/
theorem withSerial (hs : s.Paired u ρ t) (n m : UInt32) :
    ({ s with serial := n } : Store).Paired u ρ { t with serial := m } := { hs with }

theorem withDepth (hs : s.Paired u ρ t) (n : Nat) :
    ({ s with depth := n } : Store).Paired u ρ { t with depth := n } := { hs with depth := rfl }

theorem withPrinted (hs : s.Paired u ρ t) (lines : List String) :
    ({ s with printed := lines } : Store).Paired u ρ { t with printed := lines } :=
      { hs with printed := rfl }

theorem withStatics (hs : s.Paired u ρ t) {statics statics' : Table FieldId Value}
    (h : statics.Paired ρ statics') :
    ({ s with statics } : Store).Paired u ρ { t with statics := statics' } :=
      { hs with statics := h }

/-- Two new objects. -/
theorem push (hs : s.Paired u ρ t) {o o' : Obj} (ho : o.Paired ρ o') :
    ({ s with heap := s.heap.push o } : Store).Paired u (ρ.add s.heap.size t.heap.size)
      { t with heap := t.heap.push o' } where
  heap := hs.heap.push ho
  spare := by
    intro r x hx
    rw [Array.getElem?_push] at hx
    split at hx
    · rename_i hr
      rw [hr]
      exact .inl ⟨_, ρ.add_self _ _⟩
    · rcases hs.spare r x hx with ⟨r', hr⟩ | hblank
      · exact .inl ⟨r', .inl hr⟩
      · exact .inr hblank
  spare' := by
    intro r x hx
    rw [Array.getElem?_push] at hx
    split at hx
    · rename_i hr
      rw [hr]
      exact .inl ⟨_, ρ.add_self _ _⟩
    · rcases hs.spare' r x hx with ⟨r', hr⟩ | hblank
      · exact .inl ⟨r', .inl hr⟩
      · exact .inr hblank
  statics := hs.statics.mono (ρ.le_add _ _)
  shared a v ha := by
    obtain ⟨w, hw, hv⟩ := hs.shared a v ha
    exact ⟨w, hw, hv.mono (ρ.le_add _ _)⟩
  ready a w ha hw := by
    obtain ⟨r, serial, rfl, hfree, hr⟩ := hs.ready a w ha hw
    refine ⟨r, serial, rfl, ?_, getElem?_push_of_some hr⟩
    rintro x (hx | ⟨-, rfl⟩)
    · exact hfree x hx
    · exact absurd (Array.getElem?_eq_some_iff.mp hr).1 (Nat.lt_irrefl _)
  printed := hs.printed
  depth := hs.depth

/-- Two paired objects change in the same way. -/
theorem modify (hs : s.Paired u ρ t) {a b : Ref} (hab : ρ a b) {f f' : Obj → Obj}
    (hf : ∀ {o o'}, o.Paired ρ o' → (f o).Paired ρ (f' o')) (hout : ∀ o, (f o).outer? = o.outer?)
    (hout' : ∀ o, (f' o).outer? = o.outer?) :
    ({ s with heap := s.heap.modify a f } : Store).Paired u ρ
      { t with heap := t.heap.modify b f' } where
  heap := hs.heap.modify hab hf hout hout'
  spare := by
    intro r x hx
    rw [Array.getElem?_modify] at hx
    split at hx
    · rename_i har
      exact .inl ⟨b, har ▸ hab⟩
    · exact hs.spare r x hx
  spare' := by
    intro r x hx
    rw [Array.getElem?_modify] at hx
    split at hx
    · rename_i hbr
      exact .inl ⟨a, hbr ▸ hab⟩
    · exact hs.spare' r x hx
  statics := hs.statics
  shared := hs.shared
  ready c w hc hw := by
    obtain ⟨r, serial, rfl, hfree, hr⟩ := hs.ready c w hc hw
    have hne : b ≠ r := fun h => hfree a (h ▸ hab)
    refine ⟨r, serial, rfl, hfree, ?_⟩
    rw [Array.getElem?_modify, if_neg hne]
    exact hr
  printed := hs.printed
  depth := hs.depth

/-- Both stores get a shared instance. -/
theorem share (hs : s.Paired u ρ t) {r r' : Ref} (hr : ρ r r') (a : ClassId) :
    ({ s with singletons := s.singletons.put a (.ref r) } : Store).Paired u ρ
      { t with singletons := t.singletons.put a (.ref r') } :=
  { hs with
    shared := by
      intro b v hb
      by_cases hba : b = a
      · subst hba
        rw [Table.get?_put_self] at hb
        cases hb
        exact ⟨.ref r', Table.get?_put_self .., .ref hr⟩
      · rw [Table.get?_put_ne hba] at hb
        rw [Table.get?_put_ne hba]
        exact hs.shared b v hb
    ready := by
      intro b w hb hw
      have hba : b ≠ a := by
        rintro rfl
        rw [Table.get?_put_self] at hb
        cases hb
      rw [Table.get?_put_ne hba] at hb hw
      exact hs.ready b w hb hw }

/-- The first store gets a shared instance that the second one has made before:
from now on the two are a pair. -/
theorem adopt (hs : s.Paired u ρ t) {a : ClassId} {r : Ref} (ha : s.singletons.get? a = none)
    (hr : t.singletons.get? a = some (.ref r)) :
    (s.withShared u a).Paired u (ρ.add s.heap.size r) t := by
  obtain ⟨_, serial, heq, hfree, hobj⟩ := hs.ready a _ ha hr
  cases heq
  have hnew : ∀ y, ¬ρ s.heap.size y := fun y hy => Nat.lt_irrefl _ (hs.heap.lt_size hy).1
  have hinward : Heap.Inward (s.heap.push (.inst a (s.serial + 1) (blankInstance u a) none)) :=
    hs.heap.inward.push fun _ hp => nomatch hp
  refine ⟨?heap, ?spare, ?spare', hs.statics.mono (ρ.le_add _ _), ?shared, ?ready,
    hs.printed, hs.depth⟩
  case heap =>
    refine hs.heap.add hinward hs.heap.inward' hnew hfree (fun x y hxy => ⟨?_, rfl⟩)
      Array.getElem?_push_size hobj (.blank u a _ _ .none)
    rw [Array.getElem?_push, if_neg (Nat.ne_of_lt (hs.heap.lt_size hxy).1)]
  case spare =>
    intro x o ho
    change (s.heap.push _)[x]? = some o at ho
    rw [Array.getElem?_push] at ho
    split at ho
    · rename_i hx
      rw [hx]
      exact .inl ⟨_, ρ.add_self _ _⟩
    · rcases hs.spare x o ho with ⟨y, hy⟩ | hblank
      · exact .inl ⟨y, .inl hy⟩
      · exact .inr hblank
  case spare' =>
    intro x o ho
    rcases hs.spare' x o ho with ⟨y, hy⟩ | hblank
    · exact .inl ⟨y, .inl hy⟩
    · exact .inr hblank
  case shared =>
    intro b v hb
    by_cases hba : b = a
    · subst hba
      rw [withShared, Table.get?_put_self] at hb
      cases hb
      exact ⟨.ref r, hr, .ref (ρ.add_self _ _)⟩
    · rw [withShared, Table.get?_put_ne hba] at hb
      obtain ⟨w, hw, hv⟩ := hs.shared b v hb
      exact ⟨w, hw, hv.mono (ρ.le_add _ _)⟩
  case ready =>
    intro b w hb hw
    have hba : b ≠ a := by
      rintro rfl
      rw [withShared, Table.get?_put_self] at hb
      cases hb
    rw [withShared, Table.get?_put_ne hba] at hb
    obtain ⟨r', serial', rfl, hfree', hobj'⟩ := hs.ready b w hb hw
    refine ⟨r', serial', rfl, ?_, hobj'⟩
    -- The instances of two adapters are two objects.
    rintro x (hx | ⟨-, rfl⟩)
    · exact hfree' x hx
    · rw [hobj] at hobj'
      cases hobj'
      exact hba rfl

end Store.Paired

/-! ## Paired configurations -/

/-- Activations with paired instances and paired locals. -/
structure Frame.Paired (ρ : Pairing) (f f' : Frame) : Prop where
  this : Option.Rel ρ f.this f'.this
  locals : f.locals.Paired ρ f'.locals

theorem Frame.Paired.mono {ρ ρ' : Pairing} (hρ : ρ ≤ ρ') {f f' : Frame} (h : f.Paired ρ f') :
    f.Paired ρ' f' := ⟨optionRel_mono hρ h.this, h.locals.mono hρ⟩

/-- Paired activations on paired stores. -/
structure Config.Paired (u : CompilationUnit) (ρ : Pairing) (c c' : Config) : Prop where
  frame : c.frame.Paired ρ c'.frame
  store : c.store.Paired u ρ c'.store

/-- Both run out of budget, or both have paired faults. -/
inductive Halt.Paired (ρ : Pairing) : Halt → Halt → Prop where
  | fault {f g : Fault} (h : f.Paired ρ g) : Paired ρ (.fault f) (.fault g)
  | exhausted : Paired ρ .exhausted .exhausted

theorem Halt.Paired.mono {ρ ρ' : Pairing} (hρ : ρ ≤ ρ') {e e' : Halt} (h : e.Paired ρ e') :
    e.Paired ρ' e' := by
  cases h with
  | fault h => exact .fault (h.mono hρ)
  | exhausted => exact .exhausted

/-! ## Simulation -/

section Definition

variable {σ α β : Type} (store : σ → Store) (A : Pairing → σ → σ → Prop)
    (R : Pairing → α → β → Prop)

/-- How two computations end that started in a state of this depth and with this
pairing. -/
def Ends (ρ : Pairing) (depth : Nat) (r : Except Halt α × σ) (r' : Except Halt β × σ) : Prop :=
  r.1 = .error .exhausted ∧ (store r.2).depth = depth + 1 ∨
    ∃ ρ', ρ ≤ ρ' ∧ A ρ' r.2 r'.2 ∧ (store r.2).depth = depth ∧
      Outcome (Halt.Paired ρ') (R ρ') r.1 r'.1

/-- **Two computations that do the same on paired states**, unless the first one
is stopped. -/
structure Sim (ρ : Pairing) (m : ExceptT Halt (StateM σ) α) (m' : ExceptT Halt (StateM σ) β) :
    Prop where
  run : ∀ c c', A ρ c c' → Ends store A R ρ (store c).depth (m c) (m' c')

end Definition

/-- Simulation of actions. -/
abbrev Action.Sim (u : CompilationUnit) {α β : Type} (R : Pairing → α → β → Prop) (ρ : Pairing)
    (a : Action α) (b : Action β) : Prop :=
  Closures.Sim id (Store.Paired u) R ρ a b

/-- Simulation of evaluations. -/
abbrev Eval.Sim (u : CompilationUnit) {α β : Type} (R : Pairing → α → β → Prop) (ρ : Pairing)
    (e : Eval α) (e' : Eval β) : Prop :=
  Closures.Sim Config.store (Config.Paired u) R ρ e e'

theorem Ends.after {σ α β : Type} {store : σ → Store} {A : Pairing → σ → σ → Prop}
    {R : Pairing → α → β → Prop} {ρ ρ' : Pairing} {n m : Nat} {r : Except Halt α × σ}
    {r' : Except Halt β × σ} (h : Ends store A R ρ' m r r') (hρ : ρ ≤ ρ') (hn : m = n) :
    Ends store A R ρ n r r' := by
  subst hn
  rcases h with hstop | ⟨ρ'', hρ', h⟩
  · exact .inl hstop
  · exact .inr ⟨ρ'', hρ.trans hρ', h⟩

namespace Sim

section Computation

variable {σ α β γ δ : Type} {store : σ → Store} {A : Pairing → σ → σ → Prop} {ρ : Pairing}
  {R : Pairing → α → β → Prop} {S : Pairing → γ → δ → Prop}

protected theorem pure {a : α} {b : β} (h : R ρ a b) :
    Sim store A R ρ (pure a : ExceptT Halt (StateM σ) α) (pure b : ExceptT Halt (StateM σ) β) :=
  ⟨fun _ _ hc => .inr ⟨ρ, le_rfl, hc, rfl, .ok h⟩⟩

protected theorem halt {e e' : Halt} (h : e.Paired ρ e') :
    Sim store A R ρ (throw e : ExceptT Halt (StateM σ) α) (throw e' : ExceptT Halt (StateM σ) β) :=
  ⟨fun _ _ hc => .inr ⟨ρ, le_rfl, hc, rfl, .error h⟩⟩

/-- What follows a halt does not matter. -/
theorem halt_bind {e e' : Halt} (h : e.Paired ρ e') {f : α → ExceptT Halt (StateM σ) γ}
    {f' : β → ExceptT Halt (StateM σ) δ} : Sim store A S ρ (throw e >>= f) (throw e' >>= f') :=
  ⟨fun _ _ hc => .inr ⟨ρ, le_rfl, hc, rfl, .error h⟩⟩

protected theorem bind {m : ExceptT Halt (StateM σ) α} {m' : ExceptT Halt (StateM σ) β}
    {f : α → ExceptT Halt (StateM σ) γ} {f' : β → ExceptT Halt (StateM σ) δ}
    (hm : Sim store A R ρ m m')
    (hf : ∀ ρ', ρ ≤ ρ' → ∀ a b, R ρ' a b → Sim store A S ρ' (f a) (f' b)) :
    Sim store A S ρ (m >>= f) (m' >>= f') := by
  constructor
  intro c c' hc
  rw [bind_apply, bind_apply]
  rcases hm.run c c' hc with ⟨hstop, hmark⟩ | ⟨ρ', hρ, hc₁, hdepth, hout⟩
  · rcases hr : m c with ⟨r, c₁⟩
    rw [hr] at hstop hmark
    cases hstop
    exact .inl ⟨rfl, hmark⟩
  · rcases hr : m c with ⟨r, c₁⟩
    rcases hr' : m' c' with ⟨r', c₁'⟩
    rw [hr] at hc₁ hdepth hout
    rw [hr'] at hc₁ hout
    cases hout with
    | ok hab => exact ((hf ρ' hρ _ _ hab).run c₁ c₁' hc₁).after hρ hdepth
    | error he => exact .inr ⟨ρ', hρ, hc₁, hdepth, .error he⟩

/-- A computation that reads the state first. -/
theorem get_bind {f : σ → ExceptT Halt (StateM σ) γ} {f' : σ → ExceptT Halt (StateM σ) δ}
    (hf : ∀ c c', A ρ c c' → Sim store A S ρ (f c) (f' c')) :
    Sim store A S ρ (get >>= f) (get >>= f') :=
  ⟨fun c c' hc => (hf c c' hc).run c c' hc⟩

end Computation

section Frames

variable {u : CompilationUnit} {ρ : Pairing} {α β : Type} {R : Pairing → α → β → Prop}

theorem fault {f g : Fault} (h : f.Paired ρ g) :
    Action.Sim u R ρ (Action.fault f) (Action.fault g) := .halt (.fault h)

theorem ofExcept {x : Except Fault α} {y : Except Fault β}
    (h : Outcome (Fault.Paired ρ) (R ρ) x y) :
    Action.Sim u R ρ (Action.ofExcept x) (Action.ofExcept y) := by
  cases h with
  | ok h => exact .pure h
  | error h => exact .halt (.fault h)

/-- A computation that first does what may fail. -/
theorem ofExcept_bind {γ δ : Type} {Q : γ → δ → Prop} {x : Except Fault γ} {y : Except Fault δ}
    {g : γ → Action α} {g' : δ → Action β} (h : Outcome (Fault.Paired ρ) Q x y)
    (hg : ∀ a b, Q a b → Action.Sim u R ρ (g a) (g' b)) :
    Action.Sim u R ρ (Action.ofExcept x >>= g) (Action.ofExcept y >>= g') := by
  cases h with
  | ok hab => exact ⟨(hg _ _ hab).run⟩
  | error he => exact .halt_bind (.fault he)

theorem inFrame {a : Action α} {b : Action β} (h : Action.Sim u R ρ a b) :
    Eval.Sim u R ρ a.inFrame b.inFrame := by
  constructor
  intro c c' hc
  rcases h.run c.store c'.store hc.store with hstop | ⟨ρ', hρ, hs, hdepth, hout⟩
  · exact .inl hstop
  · exact .inr ⟨ρ', hρ, ⟨hc.frame.mono hρ, hs⟩, hdepth, hout⟩

theorem within {e : Eval α} {e' : Eval β} (h : Eval.Sim u R ρ e e') {f f' : Frame}
    (hf : f.Paired ρ f') :
    Action.Sim u R ρ (e.within f) (e'.within f') := by
  constructor
  intro s s' hs
  rcases h.run ⟨f, s⟩ ⟨f', s'⟩ ⟨hf, hs⟩ with hstop | ⟨ρ', hρ, hc, hdepth, hout⟩
  · exact .inl hstop
  · exact .inr ⟨ρ', hρ, hc.store, hdepth, hout⟩

theorem onHeap {f : Heap → Except Fault α} {f' : Heap → Except Fault β}
    (h : ∀ h h', Heap.Paired ρ h h' → Outcome (Fault.Paired ρ) (R ρ) (f h) (f' h')) :
    Eval.Sim u R ρ (Eval.onHeap f) (Eval.onHeap f') := by
  refine .get_bind fun c c' hc => ?_
  have hout := h _ _ hc.store.heap
  generalize f c.store.heap = x, f' c'.store.heap = y at hout ⊢
  cases hout with
  | ok h => exact .pure h
  | error h => exact .halt (.fault h)

/-- A computation that first asks the heap for something. -/
theorem onHeap_bind {γ δ : Type} {Q : γ → δ → Prop} {f : Heap → Except Fault γ}
    {f' : Heap → Except Fault δ} {g : γ → Eval α} {g' : δ → Eval β}
    (h : ∀ h h', Heap.Paired ρ h h' → Outcome (Fault.Paired ρ) Q (f h) (f' h'))
    (hg : ∀ a b, Q a b → Eval.Sim u R ρ (g a) (g' b)) :
    Eval.Sim u R ρ (Eval.onHeap f >>= g) (Eval.onHeap f' >>= g') := by
  rw [Eval.onHeap, Eval.onHeap, bind_assoc, bind_assoc]
  refine .get_bind fun c c' hc => ?_
  have hout := h _ _ hc.store.heap
  generalize f c.store.heap = x, f' c'.store.heap = y at hout ⊢
  cases hout with
  | ok hab => exact ⟨(hg _ _ hab).run⟩
  | error he => exact .halt_bind (.fault he)

theorem readLocal (id : LocalId) : Eval.Sim u Value.Paired ρ (readLocal id) (readLocal id) := by
  refine .get_bind fun c c' hc => ?_
  have hget := hc.frame.locals.get? id
  generalize c.frame.locals.get? id = x, c'.frame.locals.get? id = y at hget ⊢
  cases hget with
  | some hv => exact .pure hv
  | none => exact .halt (.fault (.same rfl))

theorem writeLocal (id : LocalId) {v w : Value} (hv : v.Paired ρ w) :
    Eval.Sim u (fun _ => Eq) ρ (writeLocal id v) (writeLocal id w) :=
  ⟨fun _ _ hc =>
    .inr ⟨ρ, le_rfl, ⟨⟨hc.frame.this, hc.frame.locals.put id hv⟩, hc.store⟩, rfl, .ok rfl⟩⟩

theorem writeStatic (f : FieldId) {v w : Value} (hv : v.Paired ρ w) :
    Eval.Sim u (fun _ => Eq) ρ (Session.writeStatic f v) (Session.writeStatic f w) :=
  ⟨fun _ _ hc =>
    .inr ⟨ρ, le_rfl, ⟨hc.frame, hc.store.withStatics (hc.store.statics.put f hv)⟩, rfl, .ok rfl⟩⟩

end Frames

end Sim

/-! ## Loops and handlers -/

/-- Two statements end in the same way. -/
inductive Flow.Paired (ρ : Pairing) : Flow → Flow → Prop where
  | next : Paired ρ .next .next
  | ret {v w : Value} (h : v.Paired ρ w) : Paired ρ (.ret v) (.ret w)
  | breakLoop : Paired ρ .breakLoop .breakLoop
  | continueLoop : Paired ρ .continueLoop .continueLoop

namespace Flow.Paired

variable {ρ ρ' : Pairing} {f g : Flow}

theorem mono (hρ : ρ ≤ ρ') (h : f.Paired ρ g) : f.Paired ρ' g := by
  cases h with
  | next => exact .next
  | ret h => exact .ret (h.mono hρ)
  | breakLoop => exact .breakLoop
  | continueLoop => exact .continueLoop

theorem endsLoop? (h : f.Paired ρ g) : Option.Rel (Flow.Paired ρ) f.endsLoop? g.endsLoop? := by
  cases h with
  | next | continueLoop => exact .none
  | ret h => exact .some (.ret h)
  | breakLoop => exact .some .next

end Flow.Paired

/-- What a body and its final block end in: the end of the final block counts if
it is not a normal one. -/
def afterFinal (x : Except Halt Flow) : Except Halt Flow × Config → Except Halt Flow × Config
  | (.ok .next, c) => (x, c)
  | r => r

theorem finally_apply (body final : Eval Flow) (c : Config) :
    finally_ body final c =
      match body c with
      | (.error .exhausted, c') => (.error .exhausted, c')
      | (x, c') => afterFinal x (final c') := rfl

theorem Ends.afterFinal {u : CompilationUnit} {ρ : Pairing} {n : Nat} {x y : Except Halt Flow}
    {q q' : Except Halt Flow × Config}
    (hlast : Ends Config.store (Config.Paired u) Flow.Paired ρ n q q')
    (hout : Outcome (Halt.Paired ρ) (Flow.Paired ρ) x y) :
    Ends Config.store (Config.Paired u) Flow.Paired ρ n (afterFinal x q) (afterFinal y q') := by
  obtain ⟨z, c⟩ := q
  obtain ⟨z', c'⟩ := q'
  rcases hlast with ⟨hstop, hmark⟩ | ⟨ρ', hρ, hc, hdepth, hend⟩
  · cases hstop
    exact .inl ⟨rfl, hmark⟩
  · have hbody : Outcome (Halt.Paired ρ') (Flow.Paired ρ') x y := by
      cases hout with
      | ok h => exact .ok (h.mono hρ)
      | error h => exact .error (h.mono hρ)
    cases hend with
    | error h => exact .inr ⟨ρ', hρ, hc, hdepth, .error h⟩
    | ok h =>
      cases h with
      | next => exact .inr ⟨ρ', hρ, hc, hdepth, hbody⟩
      | ret h => exact .inr ⟨ρ', hρ, hc, hdepth, .ok (.ret h)⟩
      | breakLoop => exact .inr ⟨ρ', hρ, hc, hdepth, .ok .breakLoop⟩
      | continueLoop => exact .inr ⟨ρ', hρ, hc, hdepth, .ok .continueLoop⟩

namespace Sim

variable {u : CompilationUnit} {ρ : Pairing}

theorem iterate {round round' : Eval (Option Flow)}
    (h : ∀ ρ, Eval.Sim u (fun ρ => Option.Rel (Flow.Paired ρ)) ρ round round') (n : Nat) :
    ∀ ρ, Eval.Sim u Flow.Paired ρ (iterate n round) (iterate n round') := by
  induction n with
  | zero => exact fun _ => .halt .exhausted
  | succ n ih =>
    intro ρ
    refine (h ρ).bind fun ρ₁ _ x y hxy => ?_
    cases hxy with
    | some hflow => exact .pure hflow
    | none => exact ih ρ₁

theorem forEachValue {body body' : Value → Eval Flow}
    (hbody : ∀ ρ v w, v.Paired ρ w → Eval.Sim u Flow.Paired ρ (body v) (body' w))
    {vs ws : List Value} (hvs : List.Forall₂ (Value.Paired ρ) vs ws) :
    Eval.Sim u Flow.Paired ρ (forEachValue body vs) (forEachValue body' ws) := by
  induction vs generalizing ws ρ with
  | nil =>
    cases hvs
    exact .pure .next
  | cons v vs ih =>
    obtain _ | ⟨hv, hrest⟩ := hvs
    refine (hbody ρ _ _ hv).bind fun ρ₁ hρ f g hfg => ?_
    have hends := hfg.endsLoop?
    generalize f.endsLoop? = x, g.endsLoop? = y at hends ⊢
    cases hends with
    | some hflow => exact .pure hflow
    | none => exact ih (forall₂_paired_mono hρ hrest)

theorem handling {body body' : Eval Flow} {accepts accepts' : Heap → Value → Bool}
    {handler handler' : Value → Eval Flow} (hbody : Eval.Sim u Flow.Paired ρ body body')
    (haccepts : ∀ ρ' h h', Heap.Paired ρ' h h' → ∀ v w, v.Paired ρ' w → accepts h v = accepts' h' w)
    (hhandler : ∀ ρ' v w, v.Paired ρ' w → Eval.Sim u Flow.Paired ρ' (handler v) (handler' w)) :
    Eval.Sim u Flow.Paired ρ (handling body accepts handler)
      (handling body' accepts' handler') := by
  constructor
  intro c c' hc
  have hends := hbody.run c c' hc
  unfold Closures.handling
  generalize body c = r, body' c' = r' at hends ⊢
  obtain ⟨x, c₁⟩ := r
  obtain ⟨y, c₁'⟩ := r'
  rcases hends with ⟨hstop, hmark⟩ | ⟨ρ', hρ, hc₁, hdepth, hout⟩
  · cases hstop
    exact .inl ⟨rfl, hmark⟩
  · cases hout with
    | ok h => exact .inr ⟨ρ', hρ, hc₁, hdepth, .ok h⟩
    | error h =>
      cases h with
      | exhausted => exact .inr ⟨ρ', hρ, hc₁, hdepth, .error .exhausted⟩
      | fault h =>
        cases h with
        | thrown hv =>
          dsimp only
          rw [haccepts ρ' _ _ hc₁.store.heap _ _ hv]
          split
          · exact ((hhandler ρ' _ _ hv).run c₁ c₁' hc₁).after hρ hdepth
          · exact .inr ⟨ρ', hρ, hc₁, hdepth, .error (.fault (.thrown hv))⟩
        | same hf =>
          rename_i f
          cases f with
          | thrown => cases hf
          | _ => exact .inr ⟨ρ', hρ, hc₁, hdepth, .error (.fault (.same rfl))⟩

theorem finally_ {body body' final final' : Eval Flow} (hbody : Eval.Sim u Flow.Paired ρ body body')
    (hfinal : ∀ ρ, Eval.Sim u Flow.Paired ρ final final') :
    Eval.Sim u Flow.Paired ρ (finally_ body final) (finally_ body' final') := by
  constructor
  intro c c' hc
  have hends := hbody.run c c' hc
  rw [finally_apply, finally_apply]
  generalize body c = r, body' c' = r' at hends ⊢
  obtain ⟨x, c₁⟩ := r
  obtain ⟨y, c₁'⟩ := r'
  rcases hends with ⟨hstop, hmark⟩ | ⟨ρ', hρ, hc₁, hdepth, hout⟩
  · cases hstop
    exact .inl ⟨rfl, hmark⟩
  · have hlast := ((hfinal ρ').run c₁ c₁' hc₁).after le_rfl hdepth
    cases hout with
    | ok h => exact (hlast.afterFinal (.ok h)).after hρ rfl
    | error h =>
      cases h with
      | fault h => exact (hlast.afterFinal (.error (.fault h))).after hρ rfl
      | exhausted => exact .inr ⟨ρ', hρ, hc₁, hdepth, .error .exhausted⟩

theorem oneDeeper {α β : Type} {R : Pairing → α → β → Prop} {a : Action α} {b : Action β}
    (h : Action.Sim u R ρ a b) : Action.Sim u R ρ (oneDeeper a) (oneDeeper b) := by
  constructor
  intro s t hs
  have hdeep := hs.withDepth (s.depth + 1)
  have hends := h.run { s with depth := s.depth + 1 } { t with depth := s.depth + 1 } hdeep
  unfold Closures.oneDeeper
  rw [hs.depth]
  generalize a { s with depth := s.depth + 1 } = r, b { t with depth := s.depth + 1 } =
    r' at hends ⊢
  obtain ⟨x, s₁⟩ := r
  obtain ⟨y, t₁⟩ := r'
  rcases hends with ⟨hstop, hmark⟩ | ⟨ρ', hρ, hs₁, hdepth, hout⟩
  · -- a mark that was put one call deeper is one too high on the way back too
    refine .inl ⟨hstop, ?_⟩
    change s₁.depth = s.depth + 1 + 1 at hmark
    change s₁.depth - 1 = s.depth + 1
    omega
  · change s₁.depth = s.depth + 1 at hdepth
    have hback : t₁.depth - 1 = s₁.depth - 1 := by rw [hs₁.depth]
    refine .inr ⟨ρ', hρ, ?_, ?_, hout⟩
    · change Store.Paired u ρ' { s₁ with depth := s₁.depth - 1 } { t₁ with depth := t₁.depth - 1 }
      rw [hback]
      exact hs₁.withDepth _
    · change s₁.depth - 1 = s.depth
      omega

/-! ## Effects -/

theorem newObject {o o' : Obj} (ho : o.Paired ρ o') :
    Action.Sim u Value.Paired ρ (newObject o) (newObject o') :=
  ⟨fun _ _ hs => .inr ⟨_, ρ.le_add _ _, hs.push ho, rfl, .ok (.ref (ρ.add_self _ _))⟩⟩

/-- What follows the creation of an instance. -/
theorem allocate_bind {α β : Type} {R : Pairing → α → β → Prop} {u' : CompilationUnit}
    (hu : u.SameCode u') (type : ClassId) {outer outer' : Option Ref}
    (houter : Option.Rel ρ outer outer') {f : Value → Action α} {f' : Value → Action β}
    (hf : ∀ ρ', ρ ≤ ρ' → ∀ r r', ρ' r r' → Action.Sim u R ρ' (f (.ref r)) (f' (.ref r'))) :
    Action.Sim u R ρ (allocate u type outer >>= f) (allocate u' type outer' >>= f') := by
  constructor
  intro s t hs
  rw [hu.allocate]
  have hpush := (hs.withSerial (s.serial + 1) (t.serial + 1)).push
    (.blank u type (s.serial + 1) (t.serial + 1) houter)
  have hle := ρ.le_add s.heap.size t.heap.size
  exact ((hf _ hle _ _ (ρ.add_self _ _)).run _ _ hpush).after hle rfl

theorem storeField {r r' : Ref} (hr : ρ r r') (f : FieldId) {v w : Value} (hv : v.Paired ρ w) :
    Action.Sim u (fun _ => Eq) ρ (storeField r f v) (storeField r' f w) :=
  ⟨fun _ _ hs => .inr ⟨ρ, le_rfl,
    hs.modify hr (fun ho => ho.withField f hv) (Obj.outer?_withField f v)
      (Obj.outer?_withField f w),
    rfl, .ok rfl⟩⟩

theorem storeElement {r r' : Ref} (hr : ρ r r') (i : Nat) {v w : Value} (hv : v.Paired ρ w) :
    Action.Sim u (fun _ => Eq) ρ (storeElement r i v) (storeElement r' i w) :=
  ⟨fun _ _ hs => .inr ⟨ρ, le_rfl,
    hs.modify hr (fun ho => ho.withElement i hv) (Obj.outer?_withElement i v)
      (Obj.outer?_withElement i w),
    rfl, .ok rfl⟩⟩

theorem printLine (line : String) :
    Action.Sim u (fun _ => Eq) ρ (printLine line) (printLine line) := by
  constructor
  intro s t hs
  refine .inr ⟨ρ, le_rfl, ?_, rfl, .ok rfl⟩
  change Store.Paired u ρ { s with printed := line :: s.printed }
    { t with printed := line :: t.printed }
  rw [hs.printed]
  exact hs.withPrinted _

theorem fillFields {adapter : ClassId} {r r' : Ref} {vs ws : List Value}
    (hvs : List.Forall₂ (Value.Paired ρ) vs ws) (hr : ρ r r') (i : Nat) :
    Action.Sim u (fun _ => Eq) ρ (fillFields adapter r i vs) (fillFields adapter r' i ws) := by
  induction vs generalizing ws ρ i with
  | nil =>
    cases hvs
    exact .pure rfl
  | cons v vs ih =>
    obtain _ | ⟨hv, hrest⟩ := hvs
    exact (storeField hr _ hv).bind fun _ hρ _ _ _ =>
      ih (forall₂_paired_mono hρ hrest) (hρ _ _ hr) (i + 1)

theorem newClosure {u' : CompilationUnit} (hu : u.SameCode u') (adapter : ClassId)
    {vs ws : List Value} (hvs : List.Forall₂ (Value.Paired ρ) vs ws) :
    Action.Sim u Value.Paired ρ (newClosure u adapter vs) (newClosure u' adapter ws) :=
  allocate_bind hu adapter .none fun _ hρ _ _ hr =>
    (fillFields (forall₂_paired_mono hρ hvs) hr 0).bind fun _ hρ' _ _ _ => .pure (.ref (hρ' _ _ hr))

/-- **The shared instance of an adapter**: both runs have it, both make it now,
or the second one has made it ahead of its time. -/
theorem singleton {u' : CompilationUnit} (hu : u.SameCode u') (adapter : ClassId) :
    Action.Sim u Value.Paired ρ (singleton u adapter) (singleton u' adapter) := by
  constructor
  intro s t hs
  rw [Closures.singleton, Closures.singleton, get_bind_apply, get_bind_apply]
  cases hleft : s.singletons.get? adapter with
  | some v =>
    obtain ⟨w, hright, hv⟩ := hs.shared adapter v hleft
    rw [hright]
    exact .inr ⟨ρ, le_rfl, hs, rfl, .ok hv⟩
  | none =>
    cases hright : t.singletons.get? adapter with
    | none =>
      have hpush := (hs.withSerial (s.serial + 1) (t.serial + 1)).push
        (.blank u adapter (s.serial + 1) (t.serial + 1) .none)
      have hpair := ρ.add_self s.heap.size t.heap.size
      rw [hu.allocate]
      exact .inr ⟨_, ρ.le_add _ _, hpush.share hpair adapter, rfl, .ok (.ref hpair)⟩
    | some w =>
      -- only the first run makes an object; it is paired with the one that waits in the second
      obtain ⟨r, serial, rfl, -⟩ := hs.ready adapter w hleft hright
      exact .inr ⟨_, ρ.le_add _ _, hs.adopt hleft hright, rfl, .ok (.ref (ρ.add_self _ _))⟩

end Sim

end Closures
