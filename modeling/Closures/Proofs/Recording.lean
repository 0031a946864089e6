import Closures.Proofs.StoreChange

/-!
# Recorded computations

A computation is **recorded** by a list of the moments that it goes through, in
order: `Recorded` is such a list for each state from which the computation
starts. The type says whose record it is. The moments lead from the store before
the computation to the one after it by single changes (`Recorded.path`), so none
is left out.

Records are put together as computations are: one after another, in loops, with
handlers and with what comes at the end of a body.
-/

set_option autoImplicit false

namespace Closures

/-! ## Ways through moments -/

/-- A way from one store to another through moments. -/
inductive Path (R : Store → Moment → Prop) : Store → List Moment → Store → Prop where
  | nil (s : Store) : Path R s [] s
  | cons {s t : Store} {m : Moment} {ms : List Moment} (h : R s m)
    (hs : Path R m.store ms t) : Path R s (m :: ms) t

/-- Something that holds of a store and goes on to hold. -/
class Stable (R : Store → Moment → Prop) (P : Store → Prop) : Prop where
  stays : ∀ s m, P s → R s m → P m.store

section Path

variable {R : Store → Moment → Prop} {P : Store → Prop} {s t w : Store} {m : Moment}
  {ms ms' : List Moment}

theorem Path.single (h : R s m) : Path R s [m] m.store := .cons h (.nil _)

theorem Path.append (h : Path R s ms t) (h' : Path R t ms' w) : Path R s (ms ++ ms') w := by
  induction h with
  | nil => exact h'
  | cons hm _ ih => exact .cons hm (ih h')

theorem Path.stays [Stable R P] (h : Path R s ms t) (hs : P s) : P t := by
  induction h with
  | nil => exact hs
  | cons hm _ ih => exact ih (Stable.stays _ _ hs hm)

/-- A way ends where its last moment is. -/
theorem Path.getLast (h : Path R s ms t) (e : Event) :
    (List.getLast (⟨e, s⟩ :: ms) (List.cons_ne_nil _ _)).store = t := by
  induction h generalizing e with
  | nil => rfl
  | @cons _ _ m _ _ _ ih => exact ih m.event

/-- Each moment of a way comes right after a store to which its start leads. -/
theorem Path.mem (h : Path R s ms t) : ∀ m ∈ ms, ∃ w, Store.Leads R s w ∧ R w m := by
  induction h with
  | nil => exact fun _ hm => (List.not_mem_nil hm).elim
  | @cons s _ m _ h _ ih =>
    refine List.forall_mem_cons.mpr ⟨⟨s, .refl, h⟩, fun m' hm' => ?_⟩
    obtain ⟨w, hw, hm'⟩ := ih m' hm'
    exact ⟨w, hw.head ⟨m.event, h⟩, hm'⟩

/-- The start of a way leads to its moments. -/
theorem Path.leads_of_mem (h : Path R s ms t) (hm : m ∈ ms) : Store.Leads R s m.store := by
  obtain ⟨w, hw, hm⟩ := h.mem m hm
  exact hw.tail ⟨m.event, hm⟩

/-- **Of two moments of a way the one leads to the other**: to the store right
before it. -/
theorem Path.pairwise (h : Path R s ms t) :
    ms.Pairwise fun m m' => ∃ w, Store.Leads R m.store w ∧ R w m' := by
  induction h with
  | nil => exact .nil
  | cons _ hs ih => exact .cons hs.mem ih

theorem Path.pairwise_leads (h : Path R s ms t) :
    ms.Pairwise fun m m' => Store.Leads R m.store m'.store := by
  refine h.pairwise.imp fun {m m'} hmm => ?_
  obtain ⟨w, hw, hm'⟩ := hmm
  exact hw.tail ⟨m'.event, hm'⟩

/-- A moment leads to itself and to those after it. -/
theorem Path.leads (h : Path R s ms t) {i j : Nat} (hij : i ≤ j) {m m' : Moment}
    (hi : ms[i]? = some m) (hj : ms[j]? = some m') : Store.Leads R m.store m'.store := by
  rcases Nat.eq_or_lt_of_le hij with rfl | hlt
  · rw [hi] at hj
    cases hj
    exact .refl
  · obtain ⟨hil, rfl⟩ := List.getElem?_eq_some_iff.mp hi
    obtain ⟨hjl, rfl⟩ := List.getElem?_eq_some_iff.mp hj
    exact List.pairwise_iff_getElem.mp h.pairwise_leads i j hil hjl hlt

end Path

/-! ## Recorded computations -/

/-- The moments that a computation goes through from a state that holds a store
with `P`. The call depth is the same at the end as at the start. -/
structure Recorded (R : Store → Moment → Prop) (P : Store → Prop) {σ α : Type}
    (store : σ → Store) (m : ExceptT Halt (StateM σ) α) where
  log : σ → List Moment
  path : ∀ c, P (store c) → Path R (store c) (log c) (store (m c).2)
  level : ∀ c, (store (m c).2).depth = (store c).depth

/-! ## What comes after a body -/

/-- The value that is thrown, if that is what a computation has stopped for. -/
def Halt.thrown? : Halt → Option Value
  | .fault (.thrown v) => some v
  | _ => none

/-- What a handler does about a value that may have been thrown. -/
def handlerFor (accepts : Heap → Value → Bool) (handler : Value → Eval Flow) (e : Halt) :
    Option Value → Eval Flow
  | some v => do if accepts (← get).store.heap v then handler v else throw e
  | none => throw e

/-- What a handler does after a body has ended. -/
def handlerAfter (accepts : Heap → Value → Bool) (handler : Value → Eval Flow) :
    Except Halt Flow → Eval Flow
  | .ok flow => pure flow
  | .error e => handlerFor accepts handler e e.thrown?

/-- What a final block does after a body has ended. -/
def finalAfter (final : Eval Flow) : Except Halt Flow → Eval Flow
  | .error .exhausted => throw .exhausted
  | .error (.fault f) => do
    match ← final with
    | .next => throw (.fault f)
    | .ret v => return .ret v
    | .breakLoop => return .breakLoop
    | .continueLoop => return .continueLoop
  | .ok first => do
    match ← final with
    | .next => return first
    | .ret v => return .ret v
    | .breakLoop => return .breakLoop
    | .continueLoop => return .continueLoop

theorem handling_eq_handlerAfter (body : Eval Flow) (accepts : Heap → Value → Bool)
    (handler : Value → Eval Flow) (c : Config) :
    handling body accepts handler c = handlerAfter accepts handler (body c).1 (body c).2 := by
  rw [handling]
  rcases body c with ⟨e | flow, c'⟩
  · cases e with
    | exhausted => rfl
    | fault f =>
      cases f with
      | thrown v =>
        simp only [handlerAfter, Halt.thrown?, handlerFor, get_bind_apply]
        split <;> rfl
      | _ => rfl
  · rfl

theorem finally_eq_finalAfter (body final : Eval Flow) (c : Config) :
    finally_ body final c = finalAfter final (body c).1 (body c).2 := by
  rw [finally_]
  rcases body c with ⟨e | first, c'⟩
  · cases e with
    | exhausted => rfl
    | fault f =>
      simp only [finalAfter, bind_apply]
      rcases final c' with ⟨_ | flow, c''⟩
      · rfl
      · cases flow <;> rfl
  · simp only [finalAfter, bind_apply]
    rcases final c' with ⟨_ | flow, c''⟩
    · rfl
    · cases flow <;> rfl

namespace Recorded

variable {R : Store → Moment → Prop} {P Q : Store → Prop} {σ α β : Type} {store : σ → Store}

/-- A computation in which nothing happens to the store. -/
def still {m : ExceptT Halt (StateM σ) α} (h : ∀ c, store (m c).2 = store c) :
    Recorded R P store m where
  log _ := []
  path c _ := by
    rw [h c]
    exact .nil _
  level c := by rw [h c]

/-- A computation in which one thing happens. -/
def one {m : ExceptT Halt (StateM σ) α} (event : σ → Event)
    (h : ∀ c, P (store c) → R (store c) ⟨event c, store (m c).2⟩)
    (hlevel : ∀ c, (store (m c).2).depth = (store c).depth) : Recorded R P store m where
  log c := [⟨event c, store (m c).2⟩]
  path c hc := .single (h c hc)
  level := hlevel

/-- What is recorded from some stores on is recorded from fewer. -/
def mono {m : ExceptT Halt (StateM σ) α} (t : Recorded R P store m) (h : ∀ s, Q s → P s) :
    Recorded R Q store m where
  log := t.log
  path c hc := t.path c (h _ hc)
  level := t.level

/-- A computation that goes on after another, however that ended. -/
def after [Stable R P] {m : ExceptT Halt (StateM σ) α} (t : Recorded R P store m)
    (next : Except Halt α → ExceptT Halt (StateM σ) β) (t' : ∀ r, Recorded R P store (next r))
    {m' : ExceptT Halt (StateM σ) β} (h : ∀ c, m' c = next (m c).1 (m c).2) :
    Recorded R P store m' where
  log c := t.log c ++ (t' (m c).1).log (m c).2
  path c hc := by
    have hfirst := t.path c hc
    rw [h c]
    exact hfirst.append ((t' _).path _ (hfirst.stays hc))
  level c := by
    rw [h c]
    exact ((t' _).level _).trans (t.level c)

/-- One of two computations. -/
def ite (p : Prop) [Decidable p] {m m' : ExceptT Halt (StateM σ) α}
    (t : Recorded R P store m) (t' : Recorded R P store m') :
    Recorded R P store (if p then m else m') where
  log c := if p then t.log c else t'.log c
  path c hc := by
    split
    · exact t.path c hc
    · exact t'.path c hc
  level c := by
    split
    · exact t.level c
    · exact t'.level c

def pure (a : α) : Recorded R P store (Pure.pure a) := still fun _ => rfl

def halt (e : Halt) : Recorded R P store (throw e : ExceptT Halt (StateM σ) α) :=
  still fun _ => rfl

def read : Recorded R P store get := still fun _ => rfl

def inFrame {a : Action α} (t : Recorded R P id a) : Recorded R P Config.store a.inFrame where
  log c := t.log c.store
  path c hc := t.path c.store hc
  level c := t.level c.store

def within {e : Eval α} (t : Recorded R P Config.store e) (frame : Frame) :
    Recorded R P id (e.within frame) where
  log s := t.log ⟨frame, s⟩
  path s hs := t.path ⟨frame, s⟩ hs
  level s := t.level ⟨frame, s⟩

def ofExcept (r : Except Fault α) : Recorded R P id (Action.ofExcept r) :=
  match r with
  | .ok a => .pure a
  | .error _ => .halt _

/-- What comes after a pure computation may rely on its result. -/
def ofExceptBind {r : Except Fault α} {f : α → Action β}
    (t : ∀ a, r = .ok a → Recorded R P id (f a)) : Recorded R P id (Action.ofExcept r >>= f) :=
  match r, t with
  | .ok a, t => t a rfl
  | .error _, _ => still fun _ => rfl

def onHeap (f : Heap → Except Fault α) : Recorded R P Config.store (Eval.onHeap f) :=
  still fun c => by
    rw [Eval.onHeap, get_bind_apply]
    cases f c.store.heap <;> rfl

def readLocal (id : LocalId) : Recorded R P Config.store (readLocal id) :=
  still fun c => by
    rw [Closures.readLocal, get_bind_apply]
    cases c.frame.locals.get? id <;> rfl

def writeLocal (id : LocalId) (v : Value) : Recorded R P Config.store (writeLocal id v) :=
  still fun _ => rfl

/-! ## Sequences, loops and handlers -/

variable [Stable R P]

/-- One computation after another that has a result. -/
def bind {m : ExceptT Halt (StateM σ) α} {f : α → ExceptT Halt (StateM σ) β}
    (t : Recorded R P store m) (t' : ∀ a, Recorded R P store (f a)) :
    Recorded R P store (m >>= f) :=
  t.after
    (fun r => match r with
      | .ok a => f a
      | .error e => throw e)
    (fun r => match r with
      | .ok a => t' a
      | .error _ => .halt _)
    (by
      intro c
      rw [bind_apply]
      rcases m c with ⟨_ | a, c'⟩ <;> rfl)

def iterate {round : Eval (Option Flow)} (t : Recorded R P Config.store round) :
    ∀ rounds, Recorded R P Config.store (iterate rounds round)
  | 0 => .halt _
  | rounds + 1 => t.bind fun flow? => match flow? with
    | some _ => .pure _
    | none => iterate t rounds

def forEachValue {body : Value → Eval Flow} (t : ∀ v, Recorded R P Config.store (body v)) :
    ∀ vs, Recorded R P Config.store (forEachValue body vs)
  | [] => .pure _
  | v :: vs => (t v).bind fun flow => match flow.endsLoop? with
    | some _ => .pure _
    | none => forEachValue t vs

def handlerFor {accepts : Heap → Value → Bool} {handler : Value → Eval Flow}
    (t : ∀ v, Recorded R P Config.store (handler v)) (e : Halt) :
    ∀ v?, Recorded R P Config.store (handlerFor accepts handler e v?)
  | some v => read.bind fun c => .ite (accepts c.store.heap v) (t v) (.halt _)
  | none => .halt _

def handling {body : Eval Flow} {accepts : Heap → Value → Bool} {handler : Value → Eval Flow}
    (t : Recorded R P Config.store body) (t' : ∀ v, Recorded R P Config.store (handler v)) :
    Recorded R P Config.store (handling body accepts handler) :=
  t.after (handlerAfter accepts handler)
    (fun r => match r with
      | .ok _ => .pure _
      | .error e => .handlerFor t' e e.thrown?)
    (handling_eq_handlerAfter body accepts handler)

def finally_ {body final : Eval Flow} (t : Recorded R P Config.store body)
    (t' : Recorded R P Config.store final) : Recorded R P Config.store (finally_ body final) :=
  t.after (finalAfter final)
    (fun r => match r with
      | .error .exhausted => .halt _
      | .error (.fault _) => t'.bind fun flow => match flow with
        | .next => .halt _
        | .ret _ | .breakLoop | .continueLoop => .pure _
      | .ok _ => t'.bind fun flow => match flow with
        | .next | .ret _ | .breakLoop | .continueLoop => .pure _)
    (finally_eq_finalAfter body final)

end Recorded

end Closures
