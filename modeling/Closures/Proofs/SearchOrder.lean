import Mathlib.Data.List.Chain
import Closures.Proofs.Hierarchy

/-!
# The order of a breadth-first search

`breadthFirst` counts its steps. `Searches` is the same loop without a count: it
goes on until the queue is empty. With enough steps the two agree
(`searches_breadthFirst`), so the loop comes to an end.

What the search finds first needs no queue and no marks to be told. From a
start, `level next start n` lists what `n` edges lead to, in order. An entry is
**first** if its key comes up in no lower level and not before it in its own
(`FirstReached`). If entries with the same key have next entries with the same
keys, the search lists exactly the entries that are first (`Searches.mem_iff`):
what a second entry of a key leads to has been met before.
-/

set_option autoImplicit false

namespace Closures

section Search

variable {α κ : Type} (key : α → κ) (next : α → List α)

/-- A search that goes on until the queue is empty, and what it lists. -/
inductive Searches : List α → List κ → List α → Prop where
  | done (seen : List κ) : Searches [] seen []
  | skip {x : α} {queue : List α} {seen : List κ} {out : List α} (hx : key x ∈ seen)
    (h : Searches queue seen out) : Searches (x :: queue) seen out
  | visit {x : α} {queue : List α} {seen : List κ} {out : List α} (hx : key x ∉ seen)
    (h : Searches (queue ++ next x) (key x :: seen) out) : Searches (x :: queue) seen (x :: out)

/-- What a number of edges leads to, in order. -/
def level (start : List α) : Nat → List α
  | 0 => start
  | n + 1 => (level start n).flatMap next

/-- An entry at some level whose key comes up neither at a lower one nor before
it. -/
def FirstReached (start : List α) (t : α) : Prop :=
  ∃ n, (∃ before after, level next start n = before ++ t :: after ∧ ∀ x ∈ before, key x ≠ key t) ∧
    ∀ k < n, ∀ x ∈ level next start k, key x ≠ key t

variable {key next}

/-- Of each key one entry is first. -/
theorem FirstReached.eq {start : List α} {t t' : α} (h : FirstReached key next start t)
    (h' : FirstReached key next start t') (hkey : key t = key t') : t = t' := by
  obtain ⟨n, ⟨before, after, hsplit, hbefore⟩, hlower⟩ := h
  obtain ⟨n', ⟨before', after', hsplit', hbefore'⟩, hlower'⟩ := h'
  have hmem : t ∈ level next start n := by simp [hsplit]
  have hmem' : t' ∈ level next start n' := by simp [hsplit']
  obtain rfl : n = n' := by
    rcases Nat.lt_trichotomy n n' with hlt | heq | hlt
    · exact absurd hkey (hlower' n hlt t hmem)
    · exact heq
    · exact absurd hkey.symm (hlower n' hlt t' hmem')
  rw [hsplit, List.append_eq_append_iff] at hsplit'
  rcases hsplit' with ⟨_ | ⟨y, between⟩, rfl, heq⟩ | ⟨_ | ⟨y, between⟩, rfl, heq⟩
  · exact (List.cons.inj heq).1
  · cases heq
    exact absurd hkey (hbefore' t (by simp))
  · exact (List.cons.inj heq).1.symm
  · cases heq
    exact absurd hkey.symm (hbefore t' (by simp))

/-- **The loop comes to an end**, and lists what the search with enough steps
lists. -/
theorem searches_breadthFirst [BEq κ] [LawfulBEq κ] {weight : List κ → Nat}
    (hw : ∀ seen x, key x ∉ seen → (next x).length + weight (key x :: seen) ≤ weight seen) :
    ∀ (steps : Nat) (queue : List α) (seen : List κ), queue.length + weight seen ≤ steps →
      Searches key next queue seen (breadthFirst key next steps queue seen)
  | 0, queue, seen, hle => by
    have hq : queue = [] := List.eq_nil_of_length_eq_zero (by omega)
    rw [hq]
    exact .done seen
  | steps + 1, [], seen, _ => .done seen
  | steps + 1, x :: queue, seen, hle => by
    rw [List.length_cons] at hle
    rw [breadthFirst]
    by_cases hx : key x ∈ seen
    · rw [if_pos (List.contains_iff_mem.mpr hx)]
      exact .skip hx (searches_breadthFirst hw steps queue seen (by omega))
    · rw [if_neg (fun h => hx (List.contains_iff_mem.mp h))]
      have hpay := hw seen x hx
      exact .visit hx (searches_breadthFirst hw steps _ _ (by rw [List.length_append]; omega))

/-- A search from an empty queue lists nothing. -/
theorem Searches.eq_nil {seen : List κ} {out : List α} (h : Searches key next [] seen out) :
    out = [] := by
  cases h
  rfl

/-! ## Keeping the first of each key -/

variable (key) in
/-- The entries whose keys were not seen, each key once. -/
def keepFirst [BEq κ] (seen : List κ) : List α → List α
  | [] => []
  | x :: xs => if seen.contains (key x) then keepFirst seen xs else x ::
    keepFirst (key x :: seen) xs

variable [BEq κ] [LawfulBEq κ]

theorem keepFirst_of_mem {seen : List κ} {x : α} (hx : key x ∈ seen) (xs : List α) :
    keepFirst key seen (x :: xs) = keepFirst key seen xs := by
  rw [keepFirst, if_pos (List.contains_iff_mem.mpr hx)]

theorem keepFirst_of_not_mem {seen : List κ} {x : α} (hx : key x ∉ seen) (xs : List α) :
    keepFirst key seen (x :: xs) = x :: keepFirst key (key x :: seen) xs := by
  rw [keepFirst, if_neg fun h => hx (List.contains_iff_mem.mp h)]

/-- Only which keys were seen matters. -/
theorem keepFirst_congr {seen seen' : List κ} (h : ∀ k, k ∈ seen ↔ k ∈ seen') (xs : List α) :
    keepFirst key seen xs = keepFirst key seen' xs := by
  induction xs generalizing seen seen' with
  | nil => rfl
  | cons x xs ih =>
    by_cases hx : key x ∈ seen
    · rw [keepFirst_of_mem hx, keepFirst_of_mem ((h _).mp hx), ih h]
    · rw [keepFirst_of_not_mem hx, keepFirst_of_not_mem fun hx' => hx ((h _).mpr hx')]
      refine congrArg _ (ih fun k => ?_)
      rw [List.mem_cons, List.mem_cons, h]

theorem keepFirst_append (seen : List κ) (xs ys : List α) :
    keepFirst key seen (xs ++ ys) = keepFirst key seen xs ++
      keepFirst key (xs.map key ++ seen) ys := by
  induction xs generalizing seen with
  | nil => rfl
  | cons x xs ih =>
    rw [List.cons_append, List.map_cons]
    by_cases hx : key x ∈ seen
    · rw [keepFirst_of_mem hx, keepFirst_of_mem hx, ih]
      refine congrArg _ (keepFirst_congr (fun k => ?_) ys)
      simp only [List.cons_append, List.mem_cons, List.mem_append]
      exact ⟨.inr, fun hk => hk.elim (fun hk => hk ▸ .inr hx) id⟩
    · rw [keepFirst_of_not_mem hx, keepFirst_of_not_mem hx, ih, List.cons_append]
      refine congrArg _ (congrArg _ (keepFirst_congr (fun k => ?_) ys))
      simp only [List.cons_append, List.mem_cons, List.mem_append]
      exact or_left_comm

/-- What was seen together with what is kept are the keys that there are. -/
theorem mem_keys_keepFirst {seen : List κ} {xs : List α} {k : κ} :
    (k ∈ (keepFirst key seen xs).map key ∨ k ∈ seen) ↔ k ∈ xs.map key ∨ k ∈ seen := by
  induction xs generalizing seen with
  | nil => rfl
  | cons x xs ih =>
    by_cases hx : key x ∈ seen
    · rw [keepFirst_of_mem hx, ih, List.map_cons, List.mem_cons]
      exact ⟨fun hk => hk.elim (.inl ∘ .inr) .inr,
        fun hk => hk.elim (·.elim (fun h => h ▸ .inr hx) .inl) .inr⟩
    · have hrest := @ih (key x :: seen)
      rw [List.mem_cons] at hrest
      rw [keepFirst_of_not_mem hx, List.map_cons, List.map_cons, List.mem_cons, List.mem_cons]
      tauto

theorem mem_keepFirst {seen : List κ} {xs : List α} {t : α} :
    t ∈ keepFirst key seen xs ↔
      key t ∉ seen ∧ ∃ before after, xs = before ++ t :: after ∧ ∀ x ∈ before, key x ≠ key t := by
  induction xs generalizing seen with
  | nil => simp [keepFirst]
  | cons x xs ih =>
    by_cases hx : key x ∈ seen
    · rw [keepFirst_of_mem hx, ih]
      refine and_congr_right fun ht => ?_
      have hne : key x ≠ key t := fun heq => ht (heq ▸ hx)
      constructor
      · rintro ⟨before, after, rfl, hbefore⟩
        exact ⟨x :: before, after, rfl, List.forall_mem_cons.mpr ⟨hne, hbefore⟩⟩
      · rintro ⟨_ | ⟨y, before⟩, after, heq, hbefore⟩
        · cases heq
          exact absurd rfl hne
        · cases heq
          exact ⟨before, after, rfl, (List.forall_mem_cons.mp hbefore).2⟩
    · rw [keepFirst_of_not_mem hx, List.mem_cons, ih, List.mem_cons, not_or]
      constructor
      · rintro (rfl | ⟨⟨hne, ht⟩, before, after, rfl, hbefore⟩)
        · exact ⟨hx, [], xs, rfl, nofun⟩
        · exact ⟨ht, x :: before, after, rfl, List.forall_mem_cons.mpr ⟨Ne.symm hne, hbefore⟩⟩
      · rintro ⟨ht, _ | ⟨y, before⟩, after, heq, hbefore⟩
        · cases heq
          exact .inl rfl
        · cases heq
          obtain ⟨hne, hbefore⟩ := List.forall_mem_cons.mp hbefore
          exact .inr ⟨⟨Ne.symm hne, ht⟩, before, after, rfl, hbefore⟩

/-- What the second entry of a key leads to is not kept. -/
theorem keepFirst_flatMap (hnext : ∀ x y, key x = key y → (next x).map key = (next y).map key)
    {seen below : List κ} {xs : List α}
    (hclosed : ∀ x, key x ∈ seen → ∀ k ∈ (next x).map key, k ∈ below) :
    keepFirst key below (xs.flatMap next) =
      keepFirst key below ((keepFirst key seen xs).flatMap next) := by
  induction xs generalizing seen below with
  | nil => rfl
  | cons x xs ih =>
    rw [List.flatMap_cons, keepFirst_append]
    by_cases hx : key x ∈ seen
    · have hold : ∀ k, k ∈ (next x).map key ++ below ↔ k ∈ below := fun k => by
        rw [List.mem_append]
        exact ⟨fun hk => hk.elim (hclosed x hx k) id, .inr⟩
      have hnone : keepFirst key below (next x) = [] := by
        refine List.eq_nil_iff_forall_not_mem.mpr fun t ht => ?_
        obtain ⟨hfresh, before, after, heq, -⟩ := mem_keepFirst.mp ht
        exact hfresh (hclosed x hx _ (heq ▸ List.mem_map_of_mem (by simp)))
      rw [keepFirst_of_mem hx, hnone, List.nil_append, keepFirst_congr hold, ih hclosed]
    · rw [keepFirst_of_not_mem hx, List.flatMap_cons, keepFirst_append]
      refine congrArg _ (ih fun y hy k hk => ?_)
      rcases List.mem_cons.mp hy with hy | hy
      · exact List.mem_append_left _ (hnext y x hy ▸ hk)
      · exact List.mem_append_right _ (hclosed y hy k hk)

/-! ## Level by level -/

/-- **A search works off the front of its queue**: it keeps the first of each
key, and what those lead to comes after the rest. -/
theorem Searches.front {queue rest : List α} {seen : List κ} {out : List α}
    (h : Searches key next (queue ++ rest) seen out) :
    ∃ seen' out', out = keepFirst key seen queue ++ out' ∧
      (∀ k, k ∈ seen' ↔ k ∈ queue.map key ∨ k ∈ seen) ∧
      Searches key next (rest ++ (keepFirst key seen queue).flatMap next) seen' out' := by
  induction queue generalizing rest seen out with
  | nil => exact ⟨seen, out, rfl, by simp, by simpa [keepFirst] using h⟩
  | cons x queue ih =>
    rw [List.cons_append] at h
    cases h with
    | skip hx h =>
      obtain ⟨seen', out', hout, hseen, h⟩ := ih h
      rw [keepFirst_of_mem hx]
      refine ⟨seen', out', hout, fun k => ?_, h⟩
      rw [hseen, List.map_cons, List.mem_cons]
      exact ⟨fun hk => hk.elim (.inl ∘ .inr) .inr,
        fun hk => hk.elim (·.elim (fun h => h ▸ .inr hx) .inl) .inr⟩
    | visit hx h =>
      rw [List.append_assoc] at h
      obtain ⟨seen', out', hout, hseen, h⟩ := ih h
      rw [keepFirst_of_not_mem hx, List.flatMap_cons, hout]
      refine ⟨seen', out', rfl, fun k => ?_, by rwa [List.append_assoc] at h⟩
      rw [hseen, List.map_cons, List.mem_cons, List.mem_cons]
      tauto

variable (next) in
/-- The levels below a number, one after another. -/
def levelsBelow (start : List α) (n : Nat) : List α := (List.range n).flatMap (level next start)

theorem levelsBelow_succ (start : List α) (n : Nat) :
    levelsBelow next start (n + 1) = levelsBelow next start n ++ level next start n := by
  rw [levelsBelow, List.range_succ, List.flatMap_append, List.flatMap_singleton, levelsBelow]

theorem mem_levelsBelow {start : List α} {n : Nat} {x : α} :
    x ∈ levelsBelow next start n ↔ ∃ k < n, x ∈ level next start k := by
  simp only [levelsBelow, List.mem_flatMap, List.mem_range]

/-- **The search goes through the levels.** After any number of them it has
listed the first of each key, and either it has found something in each or it is
at its end. -/
theorem Searches.levels (hnext : ∀ x y, key x = key y → (next x).map key = (next y).map key)
    {start out : List α} (h : Searches key next start [] out) (n : Nat) :
    ∃ rest, out = keepFirst key [] (levelsBelow next start n) ++ rest ∧
      (n ≤ (keepFirst key [] (levelsBelow next start n)).length ∨ rest = []) := by
  -- what is left to do: a queue that counts for as much as the level
  have hleft : ∃ queue seen rest, out = keepFirst key [] (levelsBelow next start n) ++ rest ∧
      (∀ k, k ∈ seen ↔ k ∈ (levelsBelow next start n).map key) ∧ Searches key next queue seen rest ∧
      keepFirst key seen queue = keepFirst key seen (level next start n) ∧
      (n ≤ (keepFirst key [] (levelsBelow next start n)).length ∨ rest = []) := by
    induction n with
    | zero => exact ⟨start, [], out, rfl, fun k => Iff.rfl, h, rfl, .inl (Nat.zero_le _)⟩
    | succ n ih =>
      obtain ⟨queue, seen, rest, hout, hseen, hrest, hlevel, hlen⟩ := ih
      rw [← List.append_nil queue] at hrest
      obtain ⟨seen', rest', hrest', hseen', hnextq⟩ := hrest.front
      rw [List.nil_append] at hnextq
      have hkeys : ∀ k, k ∈ seen' ↔ k ∈ (levelsBelow next start (n + 1)).map key := by
        intro k
        rw [hseen', ← mem_keys_keepFirst, hlevel, mem_keys_keepFirst, levelsBelow_succ,
          List.map_append, List.mem_append, hseen, or_comm]
      have hfirst : keepFirst key [] (levelsBelow next start (n + 1)) =
          keepFirst key [] (levelsBelow next start n) ++ keepFirst key seen
            (level next start n) := by
        rw [levelsBelow_succ, keepFirst_append, List.append_nil]
        exact congrArg _ (keepFirst_congr (fun k => (hseen k).symm) _)
      have hclosed : ∀ x, key x ∈ seen → ∀ k ∈ (next x).map key, k ∈ seen' := by
        intro x hx k hk
        obtain ⟨y, hy, hkey⟩ := List.mem_map.mp ((hseen _).mp hx)
        obtain ⟨j, hj, hmem⟩ := mem_levelsBelow.mp hy
        rw [hnext x y hkey.symm] at hk
        obtain ⟨z, hz, rfl⟩ := List.mem_map.mp hk
        exact (hkeys _).mpr (List.mem_map_of_mem (mem_levelsBelow.mpr
          ⟨j + 1, Nat.succ_lt_succ hj, List.mem_flatMap.mpr ⟨y, hmem, hz⟩⟩))
      refine ⟨_, seen', rest', ?_, hkeys, hnextq, ?_, ?_⟩
      · rw [hout, hrest', hfirst, hlevel, List.append_assoc]
      · rw [hlevel]
        exact (keepFirst_flatMap hnext hclosed).symm
      · rw [hfirst, List.length_append, ← hlevel]
        cases hfound : keepFirst key seen queue with
        | nil =>
          rw [hfound] at hnextq
          exact .inr hnextq.eq_nil
        | cons y ys =>
          rcases hlen with hlen | rfl
          · exact .inl (Nat.add_le_add hlen (Nat.succ_pos _))
          · rw [hfound] at hrest'
            cases hrest'
  obtain ⟨_, _, rest, hout, -, -, -, hlen⟩ := hleft
  exact ⟨rest, hout, hlen⟩

theorem mem_keepFirst_levelsBelow {start : List α} {N : Nat} {t : α} :
    t ∈ keepFirst key [] (levelsBelow next start N) ↔
      ∃ n < N, (∃ before after, level next start n = before ++ t :: after ∧
        ∀ x ∈ before, key x ≠ key t) ∧
        ∀ k < n, ∀ x ∈ level next start k, key x ≠ key t := by
  induction N with
  | zero => simp [levelsBelow, keepFirst]
  | succ N ih =>
    have hnew : key t ∉ (levelsBelow next start N).map key ++ [] ↔
        ∀ k < N, ∀ x ∈ level next start k, key x ≠ key t := by
      rw [List.append_nil, List.mem_map]
      constructor
      · exact fun h k hk x hx heq => h ⟨x, mem_levelsBelow.mpr ⟨k, hk, hx⟩, heq⟩
      · rintro h ⟨x, hx, heq⟩
        obtain ⟨k, hk, hx⟩ := mem_levelsBelow.mp hx
        exact h k hk x hx heq
    rw [levelsBelow_succ, keepFirst_append, List.mem_append, ih, mem_keepFirst, hnew]
    constructor
    · rintro (⟨n, hn, h⟩ | ⟨hnone, hsplit⟩)
      · exact ⟨n, Nat.lt_succ_of_lt hn, h⟩
      · exact ⟨N, Nat.lt_succ_self N, hsplit, hnone⟩
    · rintro ⟨n, hn, hsplit, hnone⟩
      rcases Nat.lt_succ_iff_lt_or_eq.mp hn with hn | rfl
      · exact .inl ⟨n, hn, hsplit, hnone⟩
      · exact .inr ⟨hnone, hsplit⟩

/-- **The search lists what is first of its key**, and nothing else. -/
theorem Searches.mem_iff (hnext : ∀ x y, key x = key y → (next x).map key = (next y).map key)
    {start out : List α} (h : Searches key next start [] out) {t : α} :
    t ∈ out ↔ FirstReached key next start t := by
  constructor
  · intro ht
    obtain ⟨rest, hout, hlen⟩ := h.levels hnext (out.length + 1)
    rcases hlen with hlen | rfl
    · -- there are not that many entries
      have := congrArg List.length hout
      rw [List.length_append] at this
      omega
    · rw [hout, List.append_nil] at ht
      obtain ⟨n, -, hfirst⟩ := mem_keepFirst_levelsBelow.mp ht
      exact ⟨n, hfirst⟩
  · rintro ⟨n, hfirst⟩
    obtain ⟨rest, hout, -⟩ := h.levels hnext (n + 1)
    rw [hout]
    exact List.mem_append_left _ (mem_keepFirst_levelsBelow.mpr ⟨n, Nat.lt_succ_self n, hfirst⟩)

end Search

end Closures
