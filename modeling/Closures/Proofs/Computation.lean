import Mathlib.Data.List.Forall2
import Closures.Machine.Store

/-!
# Computations that may stop

Small facts about the monads of the library: how a computation on a state goes
on after its first part, and what a run through a list that succeeds says about
its elements.
-/

set_option autoImplicit false

namespace Closures

/-! ## Computations on a state -/

/-- A computation that halts in its first part skips the second. -/
theorem bind_apply {σ α β : Type} (m : ExceptT Halt (StateM σ) α)
    (f : α → ExceptT Halt (StateM σ) β) (s : σ) :
    (m >>= f) s =
      match m s with
      | (.ok a, s') => f a s'
      | (.error e, s') => (.error e, s') := by
  change (match m s with | (r, s') => (ExceptT.bindCont f r : StateM σ _) s') = _
  rcases m s with ⟨_ | a, s'⟩ <;> rfl

theorem get_bind_apply {σ β : Type} (f : σ → ExceptT Halt (StateM σ) β) (s : σ) :
    (get >>= f) s = f s s := rfl

theorem onHeap_of_ok {α : Type} {f : Heap → Except Fault α} {c : Config} {a : α}
    (h : f c.store.heap = .ok a) : Eval.onHeap f c = (.ok a, c) := by
  rw [Eval.onHeap, get_bind_apply, h]
  rfl

/-! ## Computations that fail -/

theorem ok_bind {ε α β : Type} (a : α) (f : α → Except ε β) : (Except.ok a >>= f) = f a := rfl

theorem error_bind {ε α β : Type} (e : ε) (f : α → Except ε β) :
    (Except.error e >>= f) = Except.error e := rfl

theorem bind_eq_ok {ε α β : Type} {x : Except ε α} {f : α → Except ε β} {b : β} :
    x >>= f = .ok b ↔ ∃ a, x = .ok a ∧ f a = .ok b := by
  cases x with
  | error e => simp [error_bind]
  | ok a => simp [ok_bind]

theorem map_eq_ok {ε α β : Type} {x : Except ε α} {g : α → β} {b : β} :
    g <$> x = .ok b ↔ ∃ a, x = .ok a ∧ b = g a := by
  rw [map_eq_pure_bind, bind_eq_ok]
  refine exists_congr fun a => and_congr_right fun _ => ?_
  change Except.ok (g a) = .ok b ↔ _
  rw [Except.ok.injEq, eq_comm]

/-- A computation with state that succeeds is made of parts that succeed. -/
theorem bind_run_eq_ok {σ ε α β : Type} {m : StateT σ (Except ε) α}
    {f : α → StateT σ (Except ε) β} {s : σ} {r : β × σ} :
    (m >>= f) s = .ok r ↔ ∃ a s', m s = .ok (a, s') ∧ f a s' = .ok r := by
  change (m s >>= fun p => f p.1 p.2) = .ok r ↔ _
  rw [bind_eq_ok, Prod.exists]

theorem map_run_eq_ok {σ ε α β : Type} {m : StateT σ (Except ε) α} {g : α → β} {s : σ}
    {r : β × σ} : (g <$> m) s = .ok r ↔ ∃ a s', m s = .ok (a, s') ∧ r = (g a, s') := by
  rw [map_eq_pure_bind, bind_run_eq_ok]
  refine exists_congr fun a => exists_congr fun s' => and_congr_right fun _ => ?_
  change Except.ok (g a, s') = .ok r ↔ _
  rw [Except.ok.injEq, eq_comm]

/-! ## Lists -/

/-- If a function succeeds along a list, the results are those of the
elements. -/
theorem exists_of_mapM_ok {α β ε : Type} {f : α → Except ε β} :
    ∀ {as : List α} {bs : List β}, as.mapM f = .ok bs →
      (∀ a ∈ as, ∃ b ∈ bs, f a = .ok b) ∧ ∀ b ∈ bs, ∃ a ∈ as, f a = .ok b
  | [], bs, h => by
    cases h
    simp
  | a :: as, bs, h => by
    rw [List.mapM_cons] at h
    cases ha : f a with
    | error e => rw [ha] at h; cases h
    | ok b =>
      cases has : as.mapM f with
      | error e => rw [ha, has] at h; cases h
      | ok rest =>
        rw [ha, has] at h
        cases h
        obtain ⟨hl, hr⟩ := exists_of_mapM_ok has
        refine ⟨List.forall_mem_cons.mpr ⟨⟨b, List.mem_cons_self, ha⟩, fun a' ha' => ?_⟩,
          List.forall_mem_cons.mpr ⟨⟨a, List.mem_cons_self, ha⟩, fun b' hb' => ?_⟩⟩
        · obtain ⟨b', hb', h'⟩ := hl a' ha'
          exact ⟨b', List.mem_cons_of_mem _ hb', h'⟩
        · obtain ⟨a', ha', h'⟩ := hr b' hb'
          exact ⟨a', List.mem_cons_of_mem _ ha', h'⟩

theorem exists_of_forall₂_right {α β : Type} {R : α → β → Prop} {as : List α} {bs : List β}
    (h : List.Forall₂ R as bs) {b : β} (hb : b ∈ bs) : ∃ a ∈ as, R a b := by
  induction h with
  | nil => cases hb
  | cons hab _ ih =>
    rcases List.mem_cons.mp hb with rfl | hb
    · exact ⟨_, List.mem_cons_self, hab⟩
    · obtain ⟨a, ha, hab⟩ := ih hb
      exact ⟨a, List.mem_cons_of_mem _ ha, hab⟩

theorem flatMap_eq_of_forall₂ {α β : Type} {f : α → List β} {as bs : List α}
    (h : List.Forall₂ (fun a b => f b = f a) as bs) : bs.flatMap f = as.flatMap f := by
  induction h with
  | nil => rfl
  | cons hab _ ih => rw [List.flatMap_cons, List.flatMap_cons, hab, ih]

theorem map_eq_of_forall₂ {α β γ : Type} {f : β → γ} {g : α → γ} {as : List α} {bs : List β}
    (h : List.Forall₂ (fun a b => f b = g a) as bs) : bs.map f = as.map g := by
  induction h with
  | nil => rfl
  | cons hab _ ih => rw [List.map_cons, List.map_cons, hab, ih]

theorem forall₂_of_mapM_ok {α β ε : Type} {f : α → Except ε β} {as : List α} :
    ∀ {bs : List β}, as.mapM f = .ok bs → List.Forall₂ (fun a b => f a = .ok b) as bs := by
  induction as with
  | nil =>
    intro bs h
    cases h
    exact .nil
  | cons a as ih =>
    intro bs h
    rw [List.mapM_cons, bind_eq_ok] at h
    obtain ⟨b, hb, h⟩ := h
    obtain ⟨rest, hrest, h⟩ := bind_eq_ok.mp h
    cases h
    exact .cons hb (ih hrest)

/-- The same with a state, of which the single steps see some value each. -/
theorem forall₂_of_mapM_run_ok {α β σ ε : Type} {f : α → StateT σ (Except ε) β} {as : List α} :
    ∀ {s : σ} {bs : List β} {s' : σ}, as.mapM f s = .ok (bs, s') →
      List.Forall₂ (fun a b => ∃ s s', f a s = .ok (b, s')) as bs := by
  induction as with
  | nil =>
    intro s bs s' h
    cases h
    exact .nil
  | cons a as ih =>
    intro s bs s' h
    rw [List.mapM_cons, bind_run_eq_ok] at h
    obtain ⟨b, s₁, hb, h⟩ := h
    obtain ⟨rest, s₂, hrest, h⟩ := bind_run_eq_ok.mp h
    cases h
    exact .cons ⟨s, s₁, hb⟩ (ih hrest)

theorem mapM_congr {m : Type → Type} [Monad m] [LawfulMonad m] {α β : Type} {f g : α → m β}
    {as : List α} (h : ∀ a ∈ as, f a = g a) : as.mapM f = as.mapM g := by
  induction as with
  | nil => rfl
  | cons a as ih =>
    rw [List.forall_mem_cons] at h
    rw [List.mapM_cons, List.mapM_cons, h.1, ih h.2]

theorem exists_mapM_ok {α β ε : Type} {f : α → Except ε β} {as : List α}
    (h : ∀ a ∈ as, ∃ b, f a = .ok b) : ∃ bs, as.mapM f = .ok bs := by
  induction as with
  | nil => exact ⟨[], rfl⟩
  | cons a as ih =>
    rw [List.forall_mem_cons] at h
    obtain ⟨b, hb⟩ := h.1
    obtain ⟨bs, hbs⟩ := ih h.2
    exact ⟨b :: bs, by rw [List.mapM_cons, hb, hbs]; rfl⟩

/-- A test that always answers filters as its answers do. -/
theorem filterM_of_ok {α ε : Type} {f : α → Except ε Bool} {p : α → Bool} {as : List α}
    (h : ∀ a ∈ as, f a = .ok (p a)) : as.filterM f = .ok (as.filter p) := by
  have hrun : ∀ acc, List.filterAuxM f as acc = .ok ((as.filter p).reverse ++ acc) := by
    induction as with
    | nil => exact fun _ => rfl
    | cons a as ih =>
      intro acc
      rw [List.forall_mem_cons] at h
      rw [List.filterAuxM, h.1, ok_bind, ih h.2]
      cases hp : p a <;> simp [hp]
  rw [List.filterM, hrun, List.append_nil]
  exact congrArg Except.ok (List.reverse_reverse _)

/-- What every step keeps, a run through a list keeps. -/
theorem invariant_of_mapM_run_ok {α β σ ε : Type} {f : α → StateT σ (Except ε) β} {I : σ → Prop}
    (hf : ∀ a s b s', f a s = .ok (b, s') → I s → I s') {as : List α} :
    ∀ {s : σ} {bs : List β} {s' : σ}, as.mapM f s = .ok (bs, s') → I s → I s' := by
  induction as with
  | nil =>
    intro s bs s' h hs
    cases h
    exact hs
  | cons a as ih =>
    intro s bs s' h hs
    rw [List.mapM_cons, bind_run_eq_ok] at h
    obtain ⟨b, s₁, hb, h⟩ := h
    obtain ⟨rest, s₂, hrest, h⟩ := bind_run_eq_ok.mp h
    cases h
    exact ih hrest (hf a s b s₁ hb hs)

end Closures
