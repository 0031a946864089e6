import Mathlib.Data.List.Perm.Basic
import Closures.Lowering.Reference
import Closures.Proofs.Assignability

/-!
# The most specific candidate

Of the candidates that are applicable in a phase, `Reference.pick` takes the
first one that is at least as specific as all others. Since specificity is a
preorder, this is a property of the candidate among the others (`MostSpecific`),
whatever their order: there is a choice in one order exactly if there is one in
any other.

Which candidate is chosen can depend on the order. Two candidates with different
parameters may each be at least as specific as the other; then the one that
comes first is chosen, and each of them comes first in some order. Specificity
knows nothing of the bounds of type variables, so this happens where erased
parameters differ by a bound only: one candidate takes the root type and another
one a type variable that is bounded by strings.
-/

set_option autoImplicit false

namespace Closures

namespace Reference

/-- A candidate that is applicable in a phase, in a mode, and at least as
specific as all others that are. -/
structure MostSpecific (u : CompilationUnit) (cs : List Candidate) (args : List Ty) (phase : Phase)
    (hit : Candidate × ArgMode) : Prop where
  mem : hit.1 ∈ cs
  applicable : applicable? u hit.1.isVarargs hit.1.params args phase = some hit.2
  best : ∀ c ∈ cs, ∀ mode, applicable? u c.isVarargs c.params args phase = some mode →
    moreSpecific u hit.1.params c.params = true

/-- The parameters of a candidate, erased as if no type variable had a bound. -/
def Candidate.boundless (c : Candidate) : List Ty := c.params.map (Ty.erasure [])

section Pick

variable {s : Site} {u : CompilationUnit} {cs cs' : List Candidate} {args : List Ty} {phase : Phase}
  {hit hit' : Candidate × ArgMode}

/-! ## Choosing -/

theorem mem_applicableOnes_iff :
    hit ∈ applicableOnes u cs args phase ↔
      hit.1 ∈ cs ∧ applicable? u hit.1.isVarargs hit.1.params args phase = some hit.2 := by
  rw [applicableOnes, List.mem_filterMap]
  constructor
  · rintro ⟨c, hc, h⟩
    obtain ⟨mode, hmode, rfl⟩ := Option.map_eq_some_iff.mp h
    exact ⟨hc, hmode⟩
  · rintro ⟨hc, hmode⟩
    exact ⟨hit.1, hc, Option.map_eq_some_iff.mpr ⟨hit.2, hmode, rfl⟩⟩

/-- A hit is best if it is at least as specific as every hit, since it is as
specific as itself. -/
theorem isBest_iff {hits : List (Candidate × ArgMode)} {i : Nat} (hi : hits[i]? = some hit) :
    isBest u hits i hit.1 = true ↔
      ∀ other ∈ hits, moreSpecific u hit.1.params other.1.params = true := by
  rw [isBest, List.all_eq_true]
  constructor
  · intro h other hother
    obtain ⟨j, hj⟩ := List.mem_iff_getElem?.mp hother
    have htest := h (other, j) (List.mk_mem_zipIdx_iff_getElem?.mpr hj)
    rw [Bool.or_eq_true, beq_iff_eq] at htest
    rcases htest with rfl | htest
    · obtain rfl : hit = other := Option.some.inj (hi.symm.trans hj)
      exact moreSpecific_self u _
    · exact htest
  · rintro h ⟨other, j⟩ hj
    rw [Bool.or_eq_true]
    exact .inr (h other (List.fst_mem_of_mem_zipIdx hj))

theorem mostSpecific_iff :
    MostSpecific u cs args phase hit ↔ hit ∈ applicableOnes u cs args phase ∧
      ∀ other ∈ applicableOnes u cs args phase, moreSpecific u hit.1.params
        other.1.params = true := by
  rw [mem_applicableOnes_iff]
  constructor
  · rintro ⟨hmem, happ, hbest⟩
    refine ⟨⟨hmem, happ⟩, fun other hother => ?_⟩
    obtain ⟨hc, hmode⟩ := mem_applicableOnes_iff.mp hother
    exact hbest other.1 hc other.2 hmode
  · rintro ⟨⟨hmem, happ⟩, hbest⟩
    exact ⟨hmem, happ, fun c hc mode hmode =>
      hbest (c, mode) (mem_applicableOnes_iff.mpr ⟨hc, hmode⟩)⟩

/-- **Nothing is chosen** exactly if no candidate is applicable. -/
theorem pick_eq_none_iff :
    pick s cs args phase = .ok none ↔
      ∀ c ∈ cs, applicable? s.unit c.isVarargs c.params args phase = none := by
  have hnil : applicableOnes s.unit cs args phase = [] ↔
      ∀ c ∈ cs, applicable? s.unit c.isVarargs c.params args phase = none := by
    rw [applicableOnes, List.filterMap_eq_nil_iff]
    simp only [Option.map_eq_none_iff]
  rw [← hnil, pick]
  split
  · rename_i h
    exact iff_of_true rfl h
  · rename_i h
    rw [h]
    exact iff_of_false nofun (List.cons_ne_nil _ _)
  · rename_i h
    rw [h]
    refine iff_of_false (fun h => ?_) (List.cons_ne_nil _ _)
    dsimp only at h
    split at h <;> cases h

/-- **What is chosen is most specific.** -/
theorem mostSpecific_of_pick (h : pick s cs args phase = .ok (some hit)) :
    MostSpecific s.unit cs args phase hit := by
  rw [mostSpecific_iff]
  rw [pick] at h
  split at h
  · cases h
  · rename_i hone
    cases h
    rw [hone]
    exact ⟨List.mem_singleton_self _, List.forall_mem_singleton.mpr (moreSpecific_self _ _)⟩
  · rename_i hmany
    dsimp only at h
    split at h
    · rename_i best i hfind
      cases h
      have hi := List.mk_mem_zipIdx_iff_getElem?.mp (List.mem_of_find?_eq_some hfind)
      have htest := List.find?_some hfind
      rw [hmany]
      exact ⟨List.mem_of_getElem? hi, (isBest_iff hi).mp htest⟩
    · cases h

/-- A most specific candidate that comes first is chosen. -/
theorem pick_cons {c : Candidate} {mode : ArgMode}
    (h : MostSpecific s.unit (c :: cs) args phase (c, mode)) :
    pick s (c :: cs) args phase = .ok (some (c, mode)) := by
  have happ : applicable? s.unit c.isVarargs c.params args phase = some mode := h.applicable
  have hhits : applicableOnes s.unit (c :: cs) args phase =
      (c, mode) :: applicableOnes s.unit cs args phase := by
    rw [applicableOnes, List.filterMap_cons, happ]
    rfl
  have hbest := (mostSpecific_iff.mp h).2
  rw [hhits] at hbest
  rw [pick, hhits]
  cases hrest : applicableOnes s.unit cs args phase with
  | nil => rfl
  | cons other rest =>
    rw [hrest] at hbest
    have hfirst : ((c, mode) :: other :: rest)[0]? = some (c, mode) := rfl
    have htest : isBest s.unit ((c, mode) :: other :: rest) 0 c = true :=
      (isBest_iff hfirst).mpr hbest
    dsimp only
    rw [List.zipIdx_cons, List.find?_cons, htest]

/-- **Something is chosen** exactly if there is a most specific candidate. -/
theorem exists_pick_iff :
    (∃ hit, pick s cs args phase = .ok (some hit)) ↔
      ∃ hit, MostSpecific s.unit cs args phase hit := by
  constructor
  · rintro ⟨hit, h⟩
    exact ⟨hit, mostSpecific_of_pick h⟩
  · rintro ⟨hit, h⟩
    obtain ⟨hmem, hbest⟩ := mostSpecific_iff.mp h
    rw [pick]
    split
    · rename_i hnil
      rw [hnil] at hmem
      cases hmem
    · exact ⟨_, rfl⟩
    · rename_i hmany
      rw [hmany] at hmem hbest
      obtain ⟨i, hi⟩ := List.mem_iff_getElem?.mp hmem
      dsimp only
      split
      · exact ⟨_, rfl⟩
      · rename_i hnone
        have htest := List.find?_eq_none.mp hnone (hit, i) (List.mk_mem_zipIdx_iff_getElem?.mpr hi)
        exact absurd ((isBest_iff hi).mpr hbest) htest

/-! ## Other orders -/

theorem MostSpecific.perm (hperm : cs.Perm cs') (h : MostSpecific u cs args phase hit) :
    MostSpecific u cs' args phase hit :=
  ⟨hperm.mem_iff.mp h.mem, h.applicable, fun c hc => h.best c (hperm.mem_iff.mpr hc)⟩

theorem MostSpecific.atLeast (h : MostSpecific u cs args phase hit)
    (h' : MostSpecific u cs args phase hit') : moreSpecific u hit.1.params hit'.1.params = true :=
  h.best hit'.1 h'.mem hit'.2 h'.applicable

/-- Each most specific candidate is chosen in some order. -/
theorem MostSpecific.exists_perm (h : MostSpecific s.unit cs args phase hit) :
    ∃ cs', cs.Perm cs' ∧ pick s cs' args phase = .ok (some hit) := by
  have hperm := List.perm_cons_erase h.mem
  exact ⟨hit.1 :: cs.erase hit.1, hperm, pick_cons (h.perm hperm)⟩

/-- **There is at most one most specific candidate** where the candidates can be
told apart without bounds. -/
theorem MostSpecific.unique (hu : u.Acyclic) (hcs : ∀ c ∈ cs, ∀ t ∈ c.params, t.isSingle = true)
    (hnodup : (cs.map (·.boundless)).Nodup) (h : MostSpecific u cs args phase hit)
    (h' : MostSpecific u cs args phase hit') : hit = hit' := by
  have hsame : hit.1.boundless = hit'.1.boundless :=
    (moreSpecific_both_iff hu (hcs _ h.mem) (hcs _ h'.mem)).mp ⟨h.atLeast h', h'.atLeast h⟩
  have hfst : hit.1 = hit'.1 := List.inj_on_of_nodup_map hnodup h.mem h'.mem hsame
  have hmode := h'.applicable
  rw [← hfst, h.applicable] at hmode
  exact Prod.ext hfst (Option.some.inj hmode)

end Pick

/-- What the order of the candidates means for the choice among them. -/
structure OrderEffect (s : Site) (cs : List Candidate) (args : List Ty) (phase : Phase) : Prop where
  /-- Whether a candidate is applicable does not depend on the order, -/
  none_iff : ∀ cs', cs.Perm cs' → (pick s cs args phase = .ok none ↔
    pick s cs' args phase = .ok none)
  /-- nor does it depend on the order whether one is chosen. -/
  some_iff : ∀ cs', cs.Perm cs' → ((∃ hit, pick s cs args phase = .ok (some hit)) ↔
    ∃ hit, pick s cs' args phase = .ok (some hit))
  /-- What is chosen in two orders is equally specific. -/
  equallySpecific : ∀ cs' hit hit', cs.Perm cs' → pick s cs args phase = .ok (some hit) →
    pick s cs' args phase = .ok (some hit') →
    moreSpecific s.unit hit.1.params hit'.1.params = true ∧
      moreSpecific s.unit hit'.1.params hit.1.params = true
  /-- All that are most specific are chosen, each in some order. -/
  each : ∀ hit, MostSpecific s.unit cs args phase hit →
    ∃ cs', cs.Perm cs' ∧ pick s cs' args phase = .ok (some hit)
  /-- So the parameters of the choice are the same in all orders exactly if no
  two most specific candidates differ in them. -/
  params_eq_iff : (∀ cs' hit hit', cs.Perm cs' → pick s cs args phase = .ok (some hit) →
      pick s cs' args phase = .ok (some hit') → hit.1.params = hit'.1.params) ↔
    ∀ hit hit', MostSpecific s.unit cs args phase hit → MostSpecific s.unit cs args phase hit' →
      hit.1.params = hit'.1.params
  /-- If no type is above itself, candidates without intersections are equally
  specific exactly if they cannot be told apart without bounds. -/
  tied_iff : s.unit.Acyclic → ∀ c ∈ cs, ∀ c' ∈ cs, (∀ t ∈ c.params, t.isSingle = true) →
    (∀ t ∈ c'.params, t.isSingle = true) →
    (moreSpecific s.unit c.params c'.params = true ∧ moreSpecific s.unit c'.params c.params = true ↔
      c.boundless = c'.boundless)
  /-- So the choice itself is the same in all orders if all can be told apart
  without bounds. -/
  same : s.unit.Acyclic → (∀ c ∈ cs, ∀ t ∈ c.params, t.isSingle = true) →
    (cs.map (·.boundless)).Nodup → ∀ cs' hit, cs.Perm cs' →
      (pick s cs args phase = .ok (some hit) ↔ pick s cs' args phase = .ok (some hit))

end Reference

open Reference in
/-- **Whether a choice is made does not depend on the order of the candidates**;
which one it is can depend on it, between candidates that are equally specific,
and does not where the erased parameters differ by more than bounds. -/
theorem selection_order (s : Site) (cs : List Candidate) (args : List Ty) (phase : Phase) :
    OrderEffect s cs args phase where
  none_iff cs' hperm := by
    rw [pick_eq_none_iff, pick_eq_none_iff]
    exact forall_congr' fun c => by rw [hperm.mem_iff]
  some_iff cs' hperm := by
    rw [exists_pick_iff, exists_pick_iff]
    exact exists_congr fun hit => ⟨.perm hperm, .perm hperm.symm⟩
  equallySpecific cs' hit hit' hperm h h' := by
    have hbest := mostSpecific_of_pick h
    have hbest' := (mostSpecific_of_pick h').perm hperm.symm
    exact ⟨hbest.atLeast hbest', hbest'.atLeast hbest⟩
  each hit h := h.exists_perm
  params_eq_iff := by
    constructor
    · intro h hit hit' hbest hbest'
      obtain ⟨chosen, hchosen⟩ := exists_pick_iff.mpr ⟨hit, hbest⟩
      obtain ⟨cs₁, hperm₁, hpick₁⟩ := hbest.exists_perm
      obtain ⟨cs₂, hperm₂, hpick₂⟩ := hbest'.exists_perm
      exact (h cs₁ chosen hit hperm₁ hchosen hpick₁).symm.trans
        (h cs₂ chosen hit' hperm₂ hchosen hpick₂)
    · intro h cs' hit hit' hperm hpick hpick'
      exact h hit hit' (mostSpecific_of_pick hpick) ((mostSpecific_of_pick hpick').perm hperm.symm)
  tied_iff hu _ _ _ _ hc hc' := moreSpecific_both_iff hu hc hc'
  same hu hcs hnodup cs' hit hperm := by
    have hone : ∀ {l}, cs.Perm l → MostSpecific s.unit cs args phase hit →
        pick s l args phase = .ok (some hit) := by
      intro l hl hbest
      obtain ⟨chosen, hchosen⟩ := exists_pick_iff.mpr ⟨hit, hbest.perm hl⟩
      have heq :=
        MostSpecific.unique hu hcs hnodup hbest ((mostSpecific_of_pick hchosen).perm hl.symm)
      rw [hchosen, heq]
    exact ⟨fun h => hone hperm (mostSpecific_of_pick h),
      fun h => hone (.refl cs) ((mostSpecific_of_pick h).perm hperm.symm)⟩

namespace Tie

/-- A static method that takes one argument and returns nothing. -/
def method (name : String) (bound : Ty) (t : Ty) : Method :=
  ⟨name, [⟨"T", some bound⟩], [⟨1, "x", t, true⟩], .void, [], .method, true,
    false, false, false, some [], .dummy⟩

/-- A class with two pairs of overloads. One takes a type variable or a string,
the other a type variable that is bounded by strings or anything. -/
def unit : CompilationUnit where
  name := "tie"
  sourcePath := none
  types := [
    { TypeDecl.empty 0 "Show" .topLevel with
      methods := [method "count" .object (.var "T"), method "count" .object .string,
        method "show" .string (.var "T"), method "show" .string .object] }]

/-- A site in the class. -/
def site : Site := ⟨unit, 0, [], []⟩

/-- An overload as a candidate. -/
def overload (index : UInt32) (t : Ty) : Reference.Candidate := ⟨⟨0, index⟩, false, [t], .void⟩

/-- The overloads that can be told apart without bounds. -/
def apart : List Reference.Candidate := [overload 0 (.var "T"), overload 1 .string]

end Tie

open Reference Tie in
/-- The overload for strings is chosen, in both orders. -/
theorem selection_order_tie :
    (∀ c ∈ apart, ∀ t ∈ c.params, t.isSingle = true) ∧ (apart.map (·.boundless)).Nodup ∧
    pick site apart [.string] .strict = .ok (some (overload 1 .string, .fixed)) ∧
    pick site apart.reverse [.string] .strict = .ok (some (overload 1 .string, .fixed)) := by
  have hsingle : ∀ c ∈ apart, ∀ t ∈ c.params, t.isSingle = true := by decide
  have hnodup : (apart.map (·.boundless)).Nodup := by decide
  have hpick : pick site apart [.string] .strict = .ok (some (overload 1 .string, .fixed)) := by cbv
  have hsame := (selection_order site apart [.string] .strict).same
    (CompilationUnit.acyclic_of_lt (by decide)) hsingle hnodup _ (overload 1 .string, .fixed)
    apart.reverse_perm.symm
  exact ⟨hsingle, hnodup, hpick, hsame.mp hpick⟩

open Reference Tie in
/-- **The order of declarations can decide which overload is chosen.** The
erased parameters differ, but a type variable and the root type are assignable
to each other. -/
theorem Tie.order_matters :
    candidates site (.raw 0) "show" []
      (·.isStatic) = .ok [overload 2 (.var "T"), overload 3 .object] ∧
    unit.erasedParams ⟨0, 2⟩ ≠ unit.erasedParams ⟨0, 3⟩ ∧
    pick site [overload 2 (.var "T"), overload 3 .object] [.string] .strict =
      .ok (some (overload 2 (.var "T"), .fixed)) ∧
    pick site [overload 3 .object, overload 2 (.var "T")] [.string] .strict =
      .ok (some (overload 3 .object, .fixed)) ∧
    (overload 2 (.var "T")).params ≠ (overload 3 .object).params :=
  ⟨rfl, by decide, by cbv, by cbv, by decide⟩

end Closures
