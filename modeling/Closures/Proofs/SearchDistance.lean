import Mathlib.Data.Nat.Find
import Closures.Proofs.SearchOrder

/-!
# Distances in a breadth-first search

A search goes through the levels one after another, so what it lists first is
nearest. `Leads r n a b` is a path of `n` edges, and `Distance r start n b` says
that the shortest ones to `b` have `n`.

* The levels are made of the paths (`mem_level_iff`), and the search lists what
  paths lead to (`Searches.mem_iff_leads`).
* **The search lists in the order of distance** (`Searches.pairwise_distance`).
-/

set_option autoImplicit false

namespace Closures

/-! ## Paths -/

section Paths

variable {α : Type}

/-- A path of a number of edges. -/
inductive Leads (r : α → α → Prop) : Nat → α → α → Prop where
  | here (a : α) : Leads r 0 a a
  | on {n : Nat} {a b c : α} (h : Leads r n a b) (hbc : r b c) : Leads r (n + 1) a c

/-- The edges of the shortest paths from some starts. -/
structure Distance (r : α → α → Prop) (start : List α) (n : Nat) (b : α) : Prop where
  path : ∃ a ∈ start, Leads r n a b
  least : ∀ k, ∀ a ∈ start, Leads r k a b → n ≤ k

variable {r : α → α → Prop} {start : List α} {a b : α} {n : Nat}

theorem Leads.reaches (h : Leads r n a b) : Relation.ReflTransGen r a b := by
  induction h with
  | here => exact .refl
  | on _ hbc ih => exact ih.tail hbc

theorem exists_leads (h : Relation.ReflTransGen r a b) : ∃ n, Leads r n a b := by
  induction h with
  | refl => exact ⟨0, .here a⟩
  | tail _ hbc ih =>
    obtain ⟨n, hn⟩ := ih
    exact ⟨n + 1, hn.on hbc⟩

/-- What paths lead to is at some distance. -/
theorem exists_distance (h : ∃ a ∈ start, Leads r n a b) : ∃ k ≤ n, Distance r start k b := by
  classical
  have hsome : ∃ n, ∃ a ∈ start, Leads r n a b := ⟨n, h⟩
  exact ⟨Nat.find hsome, Nat.find_le h, Nat.find_spec hsome,
    fun k a ha hk => Nat.find_le ⟨a, ha, hk⟩⟩

theorem Distance.unique {k : Nat} (h : Distance r start n b) (h' : Distance r start k b) :
    n = k := by
  obtain ⟨a, ha, hn⟩ := h.path
  obtain ⟨a', ha', hk⟩ := h'.path
  exact Nat.le_antisymm (h.least k a' ha' hk) (h'.least n a ha hn)

end Paths

/-! ## Levels -/

section Levels

variable {α : Type} {next : α → List α} {start : List α}

/-- A level is what the paths of its number lead to. -/
theorem mem_level_iff {n : Nat} {b : α} :
    b ∈ level next start n ↔ ∃ a ∈ start, Leads (fun a b => b ∈ next a) n a b := by
  induction n generalizing b with
  | zero =>
    constructor
    · exact fun hb => ⟨b, hb, .here b⟩
    · rintro ⟨a, ha, hpath⟩
      cases hpath
      exact ha
  | succ n ih =>
    rw [level, List.mem_flatMap]
    constructor
    · rintro ⟨c, hc, hb⟩
      obtain ⟨a, ha, hpath⟩ := ih.mp hc
      exact ⟨a, ha, hpath.on hb⟩
    · rintro ⟨a, ha, hpath⟩
      cases hpath with
      | on hpath hb => exact ⟨_, ih.mpr ⟨a, ha, hpath⟩, hb⟩

variable {κ : Type} [BEq κ] [LawfulBEq κ] {key : α → κ}

theorem keepFirst_sublist (seen : List κ) (xs : List α) : (keepFirst key seen xs).Sublist xs := by
  induction xs generalizing seen with
  | nil => exact .slnil
  | cons x xs ih =>
    by_cases hx : key x ∈ seen
    · rw [keepFirst_of_mem hx]
      exact (ih seen).cons x
    · rw [keepFirst_of_not_mem hx]
      exact (ih (key x :: seen)).cons_cons x

theorem pairwise_keepFirst (seen : List κ) (xs : List α) :
    (keepFirst key seen xs).Pairwise fun x y => key x ≠ key y := by
  induction xs generalizing seen with
  | nil => exact .nil
  | cons x xs ih =>
    by_cases hx : key x ∈ seen
    · rw [keepFirst_of_mem hx]
      exact ih seen
    · rw [keepFirst_of_not_mem hx]
      refine List.pairwise_cons.mpr ⟨fun y hy heq => ?_, ih _⟩
      exact (mem_keepFirst.mp hy).1 (heq ▸ List.mem_cons_self)

/-- Of what is kept, the earlier comes up no later: at whatever level the second
is, the key of the first is at that level or a lower one. -/
theorem pairwise_keepFirst_levelsBelow (start : List α) (N : Nat) :
    (keepFirst key [] (levelsBelow next start N)).Pairwise fun x y =>
      ∀ n, y ∈ level next start n → ∃ m ≤ n, x ∈ level next start m := by
  induction N with
  | zero => simp [levelsBelow, keepFirst]
  | succ N ih =>
    -- what is kept of the last level is at no lower one
    have hnew : ∀ y ∈ keepFirst key ((levelsBelow next start N).map key ++ []) (level next start N),
        y ∈ level next start N ∧ ∀ n, y ∈ level next start n → N ≤ n := by
      intro y hy
      obtain ⟨hfresh, before, after, hsplit, -⟩ := mem_keepFirst.mp hy
      refine ⟨by rw [hsplit]; simp, fun n hn => Nat.le_of_not_lt fun hlt => hfresh ?_⟩
      rw [List.append_nil]
      exact List.mem_map_of_mem (mem_levelsBelow.mpr ⟨n, hlt, hn⟩)
    rw [levelsBelow_succ, keepFirst_append]
    refine List.pairwise_append.mpr ⟨ih, ?_, fun x hx y hy n hn => ?_⟩
    · exact List.pairwise_of_forall_mem_list fun x hx y hy n hn =>
        ⟨N, (hnew y hy).2 n hn, (hnew x hx).1⟩
    · obtain ⟨k, hk, ⟨before, after, hsplit, -⟩, -⟩ := mem_keepFirst_levelsBelow.mp hx
      exact ⟨k, Nat.le_trans (Nat.le_of_lt hk) ((hnew y hy).2 n hn), by rw [hsplit]; simp⟩

/-- A search is at its end after as many levels as it lists entries. -/
theorem Searches.eq_keepFirst (hnext : ∀ x y, key x = key y → (next x).map key = (next y).map key)
    {out : List α} (h : Searches key next start [] out) :
    out = keepFirst key [] (levelsBelow next start (out.length + 1)) := by
  obtain ⟨rest, hout, hlen⟩ := h.levels hnext (out.length + 1)
  rcases hlen with hlen | rfl
  · have := congrArg List.length hout
    rw [List.length_append] at this
    omega
  · rwa [List.append_nil] at hout

end Levels

/-! ## Searches that tell entries apart -/

theorem map_next_eq {α : Type} (next : α → List α) (x y : α)
    (h : (fun a : α => a) x = (fun a : α => a) y) :
    (next x).map (fun a => a) = (next y).map (fun a => a) := by
  rw [show x = y from h]

section Entries

variable {α : Type} [BEq α] [LawfulBEq α] {next : α → List α} {start out : List α}

/-- The search lists nothing twice. -/
theorem Searches.nodup (h : Searches (fun a : α => a) next start [] out) : out.Nodup := by
  rw [h.eq_keepFirst (map_next_eq next)]
  exact pairwise_keepFirst [] _

/-- **The search lists what paths lead to.** -/
theorem Searches.mem_iff_leads (h : Searches (fun a : α => a) next start [] out) {b : α} :
    b ∈ out ↔ ∃ n, ∃ a ∈ start, Leads (fun a b => b ∈ next a) n a b := by
  rw [h.mem_iff (map_next_eq next)]
  constructor
  · rintro ⟨n, ⟨before, after, hsplit, -⟩, -⟩
    exact ⟨n, mem_level_iff.mp (by rw [hsplit]; simp)⟩
  · rintro ⟨n, hpath⟩
    obtain ⟨k, -, hdistance⟩ := exists_distance hpath
    obtain ⟨before, after, hsplit, hbefore⟩ :=
      List.eq_append_cons_of_mem (mem_level_iff.mpr hdistance.path)
    refine ⟨k, ⟨before, after, hsplit, fun x hx (heq : x = b) => hbefore (heq ▸ hx)⟩, ?_⟩
    rintro m hm x hx rfl
    obtain ⟨a, ha, hpath⟩ := mem_level_iff.mp hx
    exact absurd (hdistance.least m a ha hpath) (Nat.not_le.mpr hm)

/-- **The search lists in the order of distance.** -/
theorem Searches.pairwise_distance (h : Searches (fun a : α => a) next start [] out) :
    out.Pairwise fun x y => ∀ m n, Distance (fun a b => b ∈ next a) start m x →
      Distance (fun a b => b ∈ next a) start n y → m ≤ n := by
  rw [h.eq_keepFirst (map_next_eq next)]
  refine (pairwise_keepFirst_levelsBelow start _).imp fun {x y} hxy m n hx hy => ?_
  obtain ⟨k, hk, hmem⟩ := hxy n (mem_level_iff.mpr hy.path)
  obtain ⟨a, ha, hpath⟩ := mem_level_iff.mp hmem
  exact Nat.le_trans (hx.least k a ha hpath) hk

end Entries

end Closures
