import Closures.Proofs.NearestMembers
import Closures.Proofs.SupertypeViews

/-!
# The subtype test as a search

`isSubclass` lists the ancestors of a type nearest first and looks for the other
type among them. It could go another way: take the types off a stack, follow one
path to its end before the next, and stop as soon as the other type comes up.
This file shows that no such choice matters. A `Turn` of a search takes any type
that is pending, and puts its supertypes anywhere among the others.

* **A turn** forgets nothing and adds only what can be reached (`Turn.covers`),
  and it is paid for: an entry goes, and what comes in its place are edges of a
  type that was not seen before (`Turn.pays`).
* **A run of turns** therefore ends, on every hierarchy, with what can be
  reached (`SearchState.Covers.mem_seen_iff`), and a search that stops early is
  right to do so (`SearchState.Covers.answers_iff`).
* The ancestors of a type are listed by such a run (`Searches.exists_turns`).
-/

set_option autoImplicit false

namespace Closures

/-! ## Searches in any order -/

/-- How far a search has come: what it has yet to look at, and what it has
seen. -/
structure SearchState (α : Type) where
  pending : List α
  seen : List α

namespace SearchState

variable {α : Type}

/-- A search that has yet to begin. -/
def start (a : α) : SearchState α := ⟨[a], []⟩

/-- What a search has come across. -/
def Met (p : SearchState α) (x : α) : Prop := x ∈ p.pending ∨ x ∈ p.seen

/-- What a search for `goal` may answer: yes as soon as it has come across it,
no when nothing is left. -/
inductive Answers (goal : α) (p : SearchState α) : Bool → Prop where
  | found (h : p.Met goal) : Answers goal p true
  | exhausted (h : p.pending = []) (hgoal : goal ∉ p.seen) : Answers goal p false

/-- A search from `a` has come across all that the types it has seen lead to,
and only across what can be reached. -/
structure Covers (next : α → List α) (a : α) (p : SearchState α) : Prop where
  start : p.Met a
  closed : ∀ x ∈ p.seen, ∀ y ∈ next x, p.Met y
  reached : ∀ x, p.Met x → Relation.ReflTransGen (fun x y => y ∈ next x) a x

theorem covers_start (next : α → List α) (a : α) : (start a).Covers next a where
  start := .inl List.mem_cons_self
  closed x hx := absurd hx List.not_mem_nil
  reached x hx := by
    rcases hx with hx | hx
    · rw [List.mem_singleton.mp hx]
    · exact absurd hx List.not_mem_nil

end SearchState

section Turns

variable {α : Type} {next : α → List α}

/-- One turn of a search: some entry is taken, whichever, and if it was not seen
before, what it leads to is put among the others, wherever. -/
inductive Turn (next : α → List α) : SearchState α → SearchState α → Prop where
  | drop {x : α} {pending rest seen : List α} (htake : pending.Perm (x :: rest)) (hx : x ∈ seen) :
    Turn next ⟨pending, seen⟩ ⟨rest, seen⟩
  | visit {x : α} {pending pending' rest seen : List α} (htake : pending.Perm (x :: rest))
    (hx : x ∉ seen)
    (hput : pending'.Perm (next x ++ rest)) : Turn next ⟨pending, seen⟩ ⟨pending', x :: seen⟩

variable {p q : SearchState α}

theorem Turn.dropTop {x : α} {rest seen : List α} (hx : x ∈ seen) :
    Turn next ⟨x :: rest, seen⟩ ⟨rest, seen⟩ := .drop (.refl _) hx

/-- A turn of a search with a stack, the last to be pending the first to be
taken. -/
theorem Turn.visitTop {x : α} {rest seen : List α} (hx : x ∉ seen) :
    Turn next ⟨x :: rest, seen⟩ ⟨next x ++ rest, x :: seen⟩ := .visit (.refl _) hx (.refl _)

/-- A search goes on as long as something is pending. -/
theorem exists_turn (h : p.pending ≠ []) : ∃ q, Turn next p q := by
  obtain ⟨pending, seen⟩ := p
  obtain ⟨x, rest, rfl⟩ := List.exists_cons_of_ne_nil h
  by_cases hx : x ∈ seen
  · exact ⟨_, .dropTop hx⟩
  · exact ⟨_, .visitTop hx⟩

/-- What a search has come across it does not forget. -/
theorem Turn.met (h : Turn next p q) {y : α} (hy : p.Met y) : q.Met y := by
  cases h with
  | drop htake hx =>
    rcases hy with hy | hy
    · rcases List.mem_cons.mp (htake.mem_iff.mp hy) with rfl | hy
      · exact .inr hx
      · exact .inl hy
    · exact .inr hy
  | visit htake hx hput =>
    rcases hy with hy | hy
    · rcases List.mem_cons.mp (htake.mem_iff.mp hy) with rfl | hy
      · exact .inr List.mem_cons_self
      · exact .inl (hput.mem_iff.mpr (List.mem_append_right _ hy))
    · exact .inr (List.mem_cons_of_mem _ hy)

/-- What a turn comes across is one edge away from what was met before. -/
theorem Turn.of_met (h : Turn next p q) {y : α} (hy : q.Met y) :
    p.Met y ∨ ∃ x, p.Met x ∧ y ∈ next x := by
  cases h with
  | drop htake hx =>
    rcases hy with hy | hy
    · exact .inl (.inl (htake.mem_iff.mpr (List.mem_cons_of_mem _ hy)))
    · exact .inl (.inr hy)
  | @visit x pending _ _ _ htake hx hput =>
    have htaken : x ∈ pending := htake.mem_iff.mpr List.mem_cons_self
    rcases hy with hy | hy
    · rcases List.mem_append.mp (hput.mem_iff.mp hy) with hy | hy
      · exact .inr ⟨x, .inl htaken, hy⟩
      · exact .inl (.inl (htake.mem_iff.mpr (List.mem_cons_of_mem _ hy)))
    · rcases List.mem_cons.mp hy with rfl | hy
      · exact .inl (.inl htaken)
      · exact .inl (.inr hy)

/-- What is marked as seen in a turn has its edges put among the pending
entries. -/
theorem Turn.of_mem_seen (h : Turn next p q) {x : α} (hx : x ∈ q.seen) :
    x ∈ p.seen ∨ next x ⊆ q.pending := by
  cases h with
  | drop => exact .inl hx
  | visit _ _ hput =>
    rcases List.mem_cons.mp hx with rfl | hx
    · exact .inr fun y hy => hput.mem_iff.mpr (List.mem_append_left _ hy)
    · exact .inl hx

/-- **A turn keeps what a search covers.** -/
theorem Turn.covers {a : α} (h : Turn next p q) (hp : p.Covers next a) : q.Covers next a where
  start := h.met hp.start
  closed x hx y hy := by
    rcases h.of_mem_seen hx with hx | hnext
    · exact h.met (hp.closed x hx y hy)
    · exact .inl (hnext hy)
  reached y hy := by
    rcases h.of_met hy with hy | ⟨x, hx, hedge⟩
    · exact hp.reached y hy
    · exact (hp.reached x hx).tail hedge

/-- So does a whole run. -/
theorem covers_of_turns {n : Nat} {a : α} (h : Leads (Turn next) n p q) (hp : p.Covers next a) :
    q.Covers next a := by
  induction h with
  | here => exact hp
  | on _ hturn ih => exact hturn.covers (ih hp)

/-! ## The end of a search -/

section Weight

variable {weight : List α → Nat}
  (hw : ∀ seen x, x ∉ seen → (next x).length + weight (x :: seen) ≤ weight seen)

include hw

/-- A turn is paid for by the entry that it takes, and by the edges of what was
not seen. -/
theorem Turn.pays (h : Turn next p q) :
    q.pending.length + weight q.seen + 1 ≤ p.pending.length + weight p.seen := by
  cases h with
  | drop htake =>
    have hlength := htake.length_eq
    rw [List.length_cons] at hlength
    dsimp only
    omega
  | visit htake hx hput =>
    -- the entries that come in are as many as the weight that the mark takes away, at most
    have hlength := htake.length_eq
    have hlength' := hput.length_eq
    have hpay := hw _ _ hx
    rw [List.length_cons] at hlength
    rw [List.length_append] at hlength'
    dsimp only
    omega

/-- **Every run ends**: it has no more turns than there are entries and edges to
pay for them. -/
theorem length_le_of_turns {n : Nat} (h : Leads (Turn next) n p q) :
    n + (q.pending.length + weight q.seen) ≤ p.pending.length + weight p.seen := by
  induction h with
  | here => omega
  | on _ hturn ih =>
    have := hturn.pays hw
    omega

end Weight

namespace SearchState.Covers

variable {a b : α}

/-- **A search that has come to its end has seen what can be reached**: its
marks are closed under edges. -/
theorem mem_seen_iff (h : p.Covers next a) (hend : p.pending = []) :
    b ∈ p.seen ↔ Relation.ReflTransGen (fun x y => y ∈ next x) a b := by
  have hseen : ∀ x, p.Met x → x ∈ p.seen := by
    rintro x (hx | hx)
    · rw [hend] at hx
      exact absurd hx List.not_mem_nil
    · exact hx
  constructor
  · exact fun hb => h.reached b (.inr hb)
  · -- along the path: with nothing pending, what a marked type leads to is marked itself
    intro hreach
    induction hreach with
    | refl => exact hseen a h.start
    | tail _ hedge ih => exact hseen _ (h.closed _ ih _ hedge)

/-- **What a search answers is whether its goal can be reached**, be it early or
at the end. -/
theorem answers_iff (h : p.Covers next a) {answer : Bool} (hanswer : p.Answers b answer) :
    answer = true ↔ Relation.ReflTransGen (fun x y => y ∈ next x) a b := by
  cases hanswer with
  | found hmet => exact iff_of_true rfl (h.reached b hmet)
  | exhausted hend hgoal =>
    have hunreached : ¬Relation.ReflTransGen (fun x y => y ∈ next x) a b :=
      fun hreach => hgoal ((h.mem_seen_iff hend).mpr hreach)
    exact iff_of_false Bool.false_ne_true hunreached

end SearchState.Covers

/-- A search that cannot go on has an answer. -/
theorem exists_answer_or_turn (next : α → List α) (p : SearchState α) (goal : α) :
    (∃ answer, p.Answers goal answer) ∨ ∃ q, Turn next p q := by
  by_cases hend : p.pending = []
  · by_cases hgoal : goal ∈ p.seen
    · exact .inl ⟨true, .found (.inr hgoal)⟩
    · exact .inl ⟨false, .exhausted hend hgoal⟩
  · exact .inr (exists_turn hend)

/-- A queue is one order in which to take turns. -/
theorem Searches.exists_turns {queue seen out : List α}
    (h : Searches (fun a : α => a) next queue seen out) :
    ∃ n, Leads (Turn next) n ⟨queue, seen⟩ ⟨[], out.reverse ++ seen⟩ := by
  induction h with
  | done seen => exact ⟨0, .here _⟩
  | skip hx _ ih =>
    obtain ⟨n, hrest⟩ := ih
    exact ⟨n + 1, .cons (.dropTop hx) hrest⟩
  | @visit x queue seen out hx _ ih =>
    obtain ⟨n, hrest⟩ := ih
    -- a search lists in the order in which it marks, so the marks are the list backwards
    rw [List.reverse_cons, List.append_assoc]
    exact ⟨n + 1, .cons (.visit (.refl _) hx List.perm_append_comm) hrest⟩

end Turns

/-! ## Subtyping -/

namespace CompilationUnit

/-- A declared type names another as its superclass or among its interfaces. -/
inductive NamesSupertype (u : CompilationUnit) (a b : ClassId) : Prop where
  | superclass {d : TypeDecl} {t : ClassType} (hd : u.decl? a = some d) (ht : d.superclass = some t)
    (hb : t.id = b)
  | interface {d : TypeDecl} {t : ClassType} (hd : u.decl? a = some d) (ht : t ∈ d.interfaces)
    (hb : t.id = b)

variable {u : CompilationUnit}

/-- The edges that are searched are those that declarations name. -/
theorem edge_iff_namesSupertype {a b : ClassId} : u.Edge a b ↔ u.NamesSupertype a b := by
  constructor
  · intro hedge
    rw [Edge, supertypesOf] at hedge
    cases hd : u.decl? a with
    | none => simp [hd] at hedge
    | some d =>
      rw [hd] at hedge
      obtain ⟨t, ht, hb⟩ := List.mem_map.mp hedge
      rcases List.mem_append.mp ht with ht | ht
      · exact .superclass hd (Option.mem_toList.mp ht) hb
      · exact .interface hd ht hb
  · rintro (⟨hd, ht, rfl⟩ | ⟨hd, ht, rfl⟩)
    · rw [Edge, supertypesOf_of_decl? hd]
      exact List.mem_map_of_mem (List.mem_append_left _ (Option.mem_toList.mpr ht))
    · rw [Edge, supertypesOf_of_decl? hd]
      exact List.mem_map_of_mem (List.mem_append_right _ ht)

theorem isSubclass_iff_namesSupertype {a b : ClassId} :
    u.isSubclass a b = true ↔ Relation.ReflTransGen u.NamesSupertype a b := by
  have hedges : u.Edge = u.NamesSupertype := funext₂ fun _ _ => propext edge_iff_namesSupertype
  rw [isSubclass_iff, hedges]

/-- A search of the supertypes of a type takes at most one turn for each edge,
and one for the type. -/
theorem turns_le {n : Nat} {a : ClassId} {p : SearchState ClassId}
    (h : Leads (Turn u.supertypesOf) n (.start a) p) : n ≤ u.edgeCount + 1 := by
  have hle := length_le_of_turns u.supertypesOf_length_add_edgesOutside_le h
  rw [SearchState.start, List.length_singleton, edgesOutside_nil] at hle
  omega

/-- Every search for a supertype answers what the subtype test does. -/
theorem eq_isSubclass_of_answers {n : Nat} {a b : ClassId} {p : SearchState ClassId} {answer : Bool}
    (h : Leads (Turn u.supertypesOf) n (.start a) p) (hanswer : p.Answers b answer) :
    answer = u.isSubclass a b := by
  have hcovers := covers_of_turns h (SearchState.covers_start _ a)
  rw [Bool.eq_iff_iff, hcovers.answers_iff hanswer, isSubclass_iff]
  rfl

end CompilationUnit

/-- **The subtype test is reachability** along the superclasses and interfaces
that declared types name, on every unit, and so it is reflexive and transitive.
Whatever the order in which a search takes its turns, and wherever the edges
lead, it goes on until it has an answer, has at most one turn more than there
are edges, and answers as the test does; the test itself is the answer of such a
search. -/
theorem subtype_reachability (u : CompilationUnit) (sub sup : ClassId) :
    (u.isSubclass sub sup = true ↔ Relation.ReflTransGen u.NamesSupertype sub sup) ∧
    u.isSubclass sub sub = true ∧
    (∀ top, u.isSubclass sub sup = true → u.isSubclass sup top = true →
      u.isSubclass sub top = true) ∧
    (∀ n p, Leads (Turn u.supertypesOf) n (.start sub) p →
      n ≤ u.edgeCount + 1 ∧
      ((∃ answer, p.Answers sup answer) ∨ ∃ q, Turn u.supertypesOf p q) ∧
      ∀ answer, p.Answers sup answer → answer = u.isSubclass sub sup) ∧
    ∃ n, Leads (Turn u.supertypesOf) n (.start sub) ⟨[], (u.ancestors sub).reverse⟩ := by
  refine ⟨u.isSubclass_iff_namesSupertype, u.isSubclass_refl sub, fun top =>
    u.isSubclass_trans, ?_, ?_⟩
  · intro n p h
    exact ⟨CompilationUnit.turns_le h, exists_answer_or_turn _ p sup,
      fun answer => CompilationUnit.eq_isSubclass_of_answers h⟩
  · obtain ⟨n, h⟩ := (u.searches_ancestors sub).exists_turns
    rw [List.append_nil] at h
    exact ⟨n, h⟩

namespace Knot

/-- A class that extends itself, and two interfaces that extend each other; the
class implements one of them, and the other extends a type that is not declared,
too. -/
def unit : CompilationUnit where
  name := "knot"
  sourcePath := none
  types := [
    { TypeDecl.empty 0 "Self" .topLevel with superclass := some (.raw 0), interfaces := [.raw 1] },
    { TypeDecl.empty 1 "Odd" .topLevel with isInterface := true, interfaces := [.raw 2] },
    { TypeDecl.empty 2 "Even" .topLevel with isInterface := true, interfaces := [.raw 1, .raw 9] }]

/-- Above the class, a stack comes across the type that is not declared while an
interface is still pending. -/
theorem found : Leads (Turn unit.supertypesOf) 4 (.start 0) ⟨[1, 9], [2, 1, 0]⟩ := by
  have self : Turn unit.supertypesOf (.start 0) ⟨[0, 1], [0]⟩ := .visitTop (by decide)
  have again : Turn unit.supertypesOf ⟨[0, 1], [0]⟩ ⟨[1], [0]⟩ := .dropTop (by decide)
  have odd : Turn unit.supertypesOf ⟨[1], [0]⟩ ⟨[2], [1, 0]⟩ := .visitTop (by decide)
  have even : Turn unit.supertypesOf ⟨[2], [1, 0]⟩ ⟨[1, 9], [2, 1, 0]⟩ := .visitTop (by decide)
  exact ((((Leads.here _).on self).on again).on odd).on even

/-- Above an interface, it runs empty after it has met that interface again. -/
theorem exhausted : Leads (Turn unit.supertypesOf) 4 (.start 1) ⟨[], [9, 2, 1]⟩ := by
  have odd : Turn unit.supertypesOf (.start 1) ⟨[2], [1]⟩ := .visitTop (by decide)
  have even : Turn unit.supertypesOf ⟨[2], [1]⟩ ⟨[1, 9], [2, 1]⟩ := .visitTop (by decide)
  have again : Turn unit.supertypesOf ⟨[1, 9], [2, 1]⟩ ⟨[9], [2, 1]⟩ := .dropTop (by decide)
  have undeclared : Turn unit.supertypesOf ⟨[9], [2, 1]⟩ ⟨[], [9, 2, 1]⟩ := .visitTop (by decide)
  exact ((((Leads.here _).on odd).on even).on again).on undeclared

end Knot

/-- The class is below the type that is not declared, and no interface is below
the class, though the edges run in circles. -/
theorem subtype_reachability_knot :
    Leads (Turn Knot.unit.supertypesOf) 4 (.start 0) ⟨[1, 9], [2, 1, 0]⟩ ∧
    Knot.unit.isSubclass 0 9 = true ∧
    Leads (Turn Knot.unit.supertypesOf) 4 (.start 1) ⟨[], [9, 2, 1]⟩ ∧
    Knot.unit.isSubclass 1 0 = false ∧
    4 ≤ Knot.unit.edgeCount + 1 ∧
    Knot.unit.isSubclass 0 2 = true ∧ Knot.unit.isSubclass 2 1 = true ∧
    Knot.unit.isSubclass 0 1 = true := by
  obtain ⟨-, -, -, hup, -⟩ := subtype_reachability Knot.unit 0 9
  obtain ⟨-, -, -, hdown, -⟩ := subtype_reachability Knot.unit 1 0
  obtain ⟨-, -, htrans, -, -⟩ := subtype_reachability Knot.unit 0 2
  obtain ⟨hle, -, hfound⟩ := hup 4 _ Knot.found
  obtain ⟨-, -, hexhausted⟩ := hdown 4 _ Knot.exhausted
  have hbelow : Knot.unit.isSubclass 0 2 = true := by decide
  have habove : Knot.unit.isSubclass 2 1 = true := by decide
  refine ⟨Knot.found, ?_, Knot.exhausted, ?_, hle, hbelow, habove, htrans 1 hbelow habove⟩
  · exact (hfound true (.found (.inl (by decide)))).symm
  · exact (hexhausted false (.exhausted rfl (by decide))).symm

end Closures
