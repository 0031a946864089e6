import Mathlib
import Closures.Proofs.SiteAdapters

/-!
# Sites and adapters correspond

The whole work on a unit is one trade (`Lowering.UnitRun.trade`). Here it is
read off in terms of the two units: the adapters stand behind the given
declarations in the order of the sites, and each is constructed by exactly one
node of the lowered unit.
-/

set_option autoImplicit false

namespace Closures

/-- The constructions in a unit. -/
def CompilationUnit.constructions (u : CompilationUnit) : List (ClassId × Option Nat) :=
  u.types.flatMap fun d => Closures.constructions d.marks

namespace Lowering

/-! ## Numbers in order -/

theorem length_numbered (next : ClassId) (ss : List Span) :
    (numbered next ss).length = ss.length := by
  induction ss generalizing next with
  | nil => rfl
  | cons s ss ih => rw [numbered, List.length_cons, List.length_cons, ih]

theorem map_snd_numbered (next : ClassId) (ss : List Span) :
    (numbered next ss).map (·.2) = ss.map some := by
  induction ss generalizing next with
  | nil => rfl
  | cons s ss ih => rw [numbered, List.map_cons, List.map_cons, ih]

/-- As long as they fit, numbers count up. -/
theorem toNat_numbered {next : ClassId} {ss : List Span} (h : next.toNat + ss.length ≤ 2 ^ 32) :
    ((numbered next ss).map fun x => x.1.toNat) = List.range' next.toNat ss.length := by
  induction ss generalizing next with
  | nil => rfl
  | cons s ss ih =>
    rw [List.length_cons] at h
    rw [numbered, List.map_cons, List.length_cons, List.range'_succ]
    cases ss with
    | nil => rfl
    | cons s' ss =>
      have hsucc : (next + 1).toNat = next.toNat + 1 := by
        rw [UInt32.toNat_add]
        exact Nat.mod_eq_of_lt (by simp at h ⊢; omega)
      rw [ih (by rw [hsucc]; omega), hsucc]

/-- Sorting by number brings the adapters in the order of their sites. -/
theorem map_eq_numbered {ds : List TypeDecl} {next : ClassId} {ss : List Span}
    (hsorted : ds.Pairwise fun a b => a.id ≤ b.id)
    (hperm : (ds.map fun d => (d.id, d.site?)).Perm (numbered next ss))
    (h : next.toNat + ss.length ≤ 2 ^ 32) :
    (ds.map fun d => (d.id, d.site?)) = numbered next ss := by
  have hrange := toNat_numbered h
  have hnumbers : (numbered next ss).Pairwise fun a b => a.1 < b.1 := by
    have hlt := List.pairwise_lt_range' (s := next.toNat) (n := ss.length)
    rw [← hrange, List.pairwise_map] at hlt
    exact hlt.imp fun h => UInt32.lt_iff_toNat_lt.mpr h
  refine hperm.eq_of_pairwise ?_ (List.pairwise_map.mpr hsorted) (hnumbers.imp UInt32.le_of_lt)
  intro a b ha hb hab hba
  have hnodup : ((numbered next ss).map fun x => x.1.toNat).Nodup := by
    rw [hrange]
    exact List.nodup_range'
  exact List.inj_on_of_nodup_map hnodup (hperm.mem_iff.mp ha) hb
    (congrArg UInt32.toNat (UInt32.le_antisymm hab hba))

section Unit

variable {u v : CompilationUnit} {policy : SingletonInit} {summary : Summary}

/-- The spans of the sites of a unit, partition by partition. -/
def unitSpans (u : CompilationUnit) (ts : List ClassId) : List Span :=
  ts.flatMap fun c => (declsOf u c).flatMap fun d => spans d.marks

theorem spans_flatMap {α : Type} (f : α → List Mark) (as : List α) :
    spans (as.flatMap f) = as.flatMap fun a => spans (f a) :=
  List.filterMap_flatMap

theorem constructions_flatMap {α : Type} (f : α → List Mark) (as : List α) :
    Closures.constructions (as.flatMap f) = as.flatMap fun a => Closures.constructions (f a) :=
  List.filterMap_flatMap

/-- Partitions without sites add nothing to the spans. -/
theorem unitSpans_activeTops (u : CompilationUnit) :
    unitSpans u (activeTops u) = unitSpans u (tops u) := by
  rw [unitSpans, unitSpans, activeTops]
  induction tops u with
  | nil => rfl
  | cons t ts ih =>
    rw [List.filter_cons, List.flatMap_cons]
    split
    · rw [List.flatMap_cons, ih]
    · rename_i h
      have hzero : siteCount u t = 0 := by simpa using h
      rw [siteCount_eq, List.length_eq_zero_iff, spans_flatMap] at hzero
      rw [hzero, ih]
      rfl

theorem spans_activeDecls (u : CompilationUnit) :
    spans ((activeDecls u).flatMap TypeDecl.marks) = unitSpans u (activeTops u) := by
  rw [spans_flatMap, activeDecls, List.flatMap_assoc]
  rfl

theorem totalSites_partitions (u : CompilationUnit) :
    totalSites (partitions u) = (unitSpans u (activeTops u)).length := by
  rw [partitions_eq, unitSpans]
  generalize u.types.length.toUInt32 = next
  induction activeTops u generalizing next with
  | nil => rfl
  | cons t ts ih =>
    rw [number, totalSites, List.foldr_cons, ← totalSites, ih, List.flatMap_cons,
      List.length_append, siteCount_eq, spans_flatMap]

/-! ## The adapters of a unit -/

namespace UnitRun

variable (run : UnitRun u policy v summary)

include run in
theorem sites_eq : summary.sites = (unitSpans u (activeTops u)).length := by
  rw [run.summary_eq]
  exact totalSites_partitions u

/-- **The adapters stand in the order of the sites.** -/
theorem map_adapters (h : u.types.length + summary.sites ≤ 2 ^ 32) :
    (run.adapters.map fun d => (d.id, d.site?)) =
      numbered u.types.length.toUInt32 (unitSpans u (activeTops u)) := by
  obtain ⟨new, stop, hperm, htrade⟩ := run.trade
  have hsites := htrade.sites
  rw [spans_activeDecls] at hsites
  refine map_eq_numbered (mergeSort_pairwise_le TypeDecl.id _) ((hperm.map _).trans hsites) ?_
  have hle : u.types.length.toUInt32.toNat ≤ u.types.length := Nat.mod_le ..
  rw [run.sites_eq] at h
  omega

theorem length_adapters (h : u.types.length + summary.sites ≤ 2 ^ 32) :
    run.adapters.length = summary.sites := by
  have hlen := congrArg List.length (run.map_adapters h)
  rwa [List.length_map, length_numbered, ← run.sites_eq] at hlen

theorem toNat_id_adapters (h : u.types.length + summary.sites ≤ 2 ^ 32) {k : Nat} {d : TypeDecl}
    (hd : run.adapters[k]? = some d) : d.id.toNat = u.types.length + k := by
  have hk : k < summary.sites := by
    rw [← run.length_adapters h]
    exact (List.getElem?_eq_some_iff.mp hd).1
  have hfirst : u.types.length.toUInt32.toNat = u.types.length := Nat.mod_eq_of_lt (by omega)
  have hmap := congrArg (List.map fun x => x.1.toNat) (run.map_adapters h)
  rw [toNat_numbered (by rw [hfirst, ← run.sites_eq]; exact h), List.map_map, hfirst,
    ← run.sites_eq] at hmap
  have hget := congrArg (·[k]?) hmap
  simpa [hd, List.getElem?_range' hk] using hget

theorem getElem?_types (k : Nat) : v.types[u.types.length + k]? = run.adapters[k]? := by
  rw [← run.types_drop, List.getElem?_drop]

include run in
theorem isArena (hu : u.IsArena) (h : u.types.length + summary.sites ≤ 2 ^ 32) : v.IsArena := by
  intro i d hd
  rcases Nat.lt_or_ge i u.types.length with hi | hi
  · rw [run.types_eq, List.getElem?_append_left (by rwa [length_place])] at hd
    exact InPlace.place hu i d hd
  · obtain ⟨k, rfl⟩ := Nat.exists_eq_add_of_le hi
    rw [run.getElem?_types] at hd
    exact run.toNat_id_adapters h hd

theorem isAdapter {d : TypeDecl} (hd : d ∈ run.adapters) : d.IsAdapter := by
  obtain ⟨new, stop, hperm, htrade⟩ := run.trade
  exact htrade.wellFormed d (hperm.mem_iff.mp hd)

include run in
/-- **No site is left**, but in the adapters that were there before. -/
theorem clean (hu : u.IsArena) {d : TypeDecl} (hd : d ∈ v.types) :
    spans d.marks = [] ∨ d ∈ u.types ∧ d.kind = .adapter := by
  rw [(run.types_perm hu).mem_iff, List.mem_append, List.mem_append, List.mem_filter] at hd
  rcases hd with (hd | ⟨hd, hinactive⟩) | hd
  · obtain ⟨new, stop, -, htrade⟩ := run.trade
    have hclean := htrade.clean
    rw [spans_flatMap, List.flatMap_eq_nil_iff] at hclean
    exact .inl (hclean d hd)
  · cases hl : isLowered d with
    | false => exact .inr ⟨hd, by simpa [isLowered] using hl⟩
    | true =>
      have hzero : siteCount u (u.topLevel d.id) = 0 := by simpa [isActive, hl] using hinactive
      rw [siteCount_eq, List.length_eq_zero_iff, spans_flatMap, List.flatMap_eq_nil_iff] at hzero
      exact .inl (hzero d (List.mem_filter.mpr ⟨hd, by simp [hl]⟩))
  · exact .inl (run.isAdapter hd).clean

/-- **Constructions are kept, and every adapter has one.** -/
theorem constructions_perm (hu : u.IsArena) :
    v.constructions.Perm (u.constructions ++ run.adapters.map TypeDecl.construction) := by
  obtain ⟨new, stop, hperm, htrade⟩ := run.trade
  rw [List.perm_iff_count]
  intro x
  have hv := ((run.types_perm hu).flatMap_right fun d => Closures.constructions d.marks).count_eq x
  have hactive := (activeDecls_perm u).append_right (u.types.filter fun d => !isActive u d)
  have hsplit := (hactive.trans (List.filter_append_perm (isActive u) u.types)).flatMap_right
    fun d => Closures.constructions d.marks
  have hu := hsplit.count_eq x
  have hnew := (hperm.flatMap_right fun d => Closures.constructions d.marks).count_eq x
  have hmap := (hperm.map TypeDecl.construction).count_eq x
  have hbuilt := htrade.built x
  rw [constructions_flatMap, constructions_flatMap] at hbuilt
  simp only [List.flatMap_append, List.count_append] at hv hu
  rw [CompilationUnit.constructions, CompilationUnit.constructions, List.count_append]
  omega

/-- An adapter is constructed once. -/
theorem constructions_filter (hu : u.IsArena)
    (hfree : ∀ c ∈ u.constructions, c.1.toNat < u.types.length)
    (h : u.types.length + summary.sites ≤ 2 ^ 32) {k : Nat} {d : TypeDecl}
    (hd : run.adapters[k]? = some d) :
    (v.constructions.filter fun c => c.1.toNat == u.types.length + k) = [d.construction] := by
  have hk : k < run.adapters.length := (List.getElem?_eq_some_iff.mp hd).1
  have hget : run.adapters[k] = d := (List.getElem?_eq_some_iff.mp hd).2
  have hperm := (run.constructions_perm hu).trans
    (((perm_cons_eraseIdx hk).map TypeDecl.construction).append_left _)
  have hfilter := hperm.filter fun c => c.1.toNat == u.types.length + k
  -- The given constructions name given types, and the other adapters have other numbers.
  have hgiven : (u.constructions.filter fun c => c.1.toNat == u.types.length + k) = [] := by
    refine List.filter_eq_nil_iff.mpr fun c hc => ?_
    have := hfree c hc
    simp only [beq_iff_eq]
    omega
  have hothers : ((run.adapters.eraseIdx k).map TypeDecl.construction).filter
      (fun c => c.1.toNat == u.types.length + k) = [] := by
    refine List.filter_eq_nil_iff.mpr (List.forall_mem_map.mpr fun d' hd' => ?_)
    obtain ⟨j, hj, hd'⟩ := List.mem_eraseIdx_iff_getElem?.mp hd'
    have hid := run.toNat_id_adapters h hd'
    simp only [TypeDecl.construction, beq_iff_eq]
    omega
  have hself : (d.construction.1.toNat == u.types.length + k) = true := by
    simpa [TypeDecl.construction] using run.toNat_id_adapters h hd
  rw [hget, List.filter_append, hgiven, List.map_cons, List.filter_cons, if_pos hself,
    hothers] at hfilter
  exact List.perm_singleton.mp hfilter

end UnitRun

end Unit

end Lowering

theorem isSite_eq_false {ns : List Node} (h : spans (marks ns) = []) {n : Node} (hn : n ∈ ns) :
    n.isSite = false := by
  rw [spans, marks, List.filterMap_filterMap, List.filterMap_eq_nil_iff] at h
  have hmark := h n hn
  rcases n with s | e
  · rfl
  · cases e
    case lambda | methodRef => cases hmark
    all_goals rfl

/-! ## The correspondence -/

open Lowering in
/-- Sites of one unit and adapters of another correspond one to one. -/
structure Corresponds (u v : CompilationUnit) (summary : Summary) : Prop where
  /-- There is one more declaration for each site, and all stand at their
  numbers. -/
  length : v.types.length = u.types.length + summary.sites
  isArena : v.IsArena
  /-- No site is left, but in the adapters that were there before. -/
  clean : ∀ d ∈ v.types, (∀ n ∈ d.nodes, n.isSite = false) ∨ d ∈ u.types ∧ d.kind = .adapter
  /-- Each new number is that of an adapter, which is constructed once: with as
  many operands as it has fields, at least one, if it is created at each
  evaluation, and as the shared instance if not. -/
  constructed : ∀ i, u.types.length ≤ i → i < u.types.length + summary.sites →
    ∃ d info, v.types[i]? = some d ∧ d.kind = .adapter ∧ d.adapter = some info ∧
      info.captures.length = d.fields.length ∧
      (info.instantiation = .perEvaluation ∧ 1 ≤ d.fields.length ∧
          (v.constructions.filter fun c => c.1.toNat == i) = [(d.id, some d.fields.length)] ∨
        info.instantiation ≠ .perEvaluation ∧ d.fields = [] ∧
          (v.constructions.filter fun c => c.1.toNat == i) = [(d.id, none)])
  counted : summary.capturing + summary.singletons = summary.sites
  listed : summary.adapters = (v.types.drop u.types.length).map fun d => (d.id, d.name)
  /-- The adapters stand in the order of their sites: partitions by their
  top-level types, then declarations as in the unit, then pre-order. -/
  ordered : ∃ ts : List ClassId, ts.Pairwise (· < ·) ∧
    (∀ c, c ∈ ts ↔ ∃ d ∈ u.types, d.kind ≠ .adapter ∧ u.topLevel d.id = c) ∧
    (v.types.drop u.types.length).map (fun d => d.adapter.map (·.site)) =
      (ts.flatMap fun c =>
        (u.types.filter fun d => d.kind != .adapter && u.topLevel d.id == c).flatMap
        fun d => spans d.marks).map some

open Lowering in
/-- **Sites and adapters correspond one to one.** This holds of every unit that
can be lowered whose declarations stand at their numbers and in which no
construction names a number that is still free, as long as the numbers suffice
for all sites. -/
theorem lower_corresponds {u v : CompilationUnit} {policy : SingletonInit} {summary : Summary}
    (hu : u.IsArena) (hfree : ∀ c ∈ u.constructions, c.1.toNat < u.types.length)
    (h : u.lower policy = .ok (v, summary)) (hroom : u.types.length + summary.sites ≤ 2 ^ 32) :
    Corresponds u v summary := by
  obtain ⟨run⟩ := exists_unitRun h
  refine ⟨?_, run.isArena hu hroom, fun d hd => ?_, fun i hle hlt => ?_, ?_, ?_, ?_⟩
  · rw [run.types_eq, List.length_append, length_place]
    exact congrArg _ (run.length_adapters hroom)
  · exact (run.clean hu hd).imp_left fun hclean n hn => isSite_eq_false hclean hn
  · obtain ⟨k, rfl⟩ := Nat.exists_eq_add_of_le hle
    have hk : k < run.adapters.length := by
      rw [run.length_adapters hroom]
      omega
    have hd := List.getElem?_eq_getElem hk
    generalize run.adapters[k] = d at hd
    have hadapter := run.isAdapter (List.mem_of_getElem? hd)
    obtain ⟨info, hinfo, hcaptures⟩ := hadapter.captures
    refine ⟨d, info, by rw [run.getElem?_types, hd], hadapter.kind, hinfo, hcaptures, ?_⟩
    rw [run.constructions_filter hu hfree hroom hd, TypeDecl.construction]
    have hper : isPerEvaluation d = decide (info.instantiation = .perEvaluation) := by
      rw [isPerEvaluation, hinfo]
      rfl
    have hfields := hadapter.perEvaluation
    rw [hper] at hfields ⊢
    by_cases hinst : info.instantiation = .perEvaluation
    · refine .inl ⟨hinst, ?_, by simp [hinst]⟩
      rw [hinst] at hfields
      exact List.length_pos_iff.mpr (by simpa using hfields)
    · exact .inr ⟨hinst, by simpa [hinst] using hfields, by simp [hinst]⟩
  · have hcapturing : summary.capturing = run.adapters.countP isPerEvaluation :=
      congrArg Summary.capturing run.summary_eq
    have hsingletons : summary.singletons = run.adapters.countP (!isPerEvaluation ·) :=
      congrArg Summary.singletons run.summary_eq
    rw [hcapturing, hsingletons, ← run.length_adapters hroom,
      List.length_eq_countP_add_countP isPerEvaluation]
    simp only [Bool.not_eq_true, Bool.decide_eq_false]
  · rw [run.types_drop]
    exact congrArg Summary.adapters run.summary_eq
  · refine ⟨tops u, tops_pairwise u, fun c => ?_, ?_⟩
    · rw [mem_tops]
      simp only [isLowered, bne_iff_ne]
    · have hsites := congrArg (List.map fun x => x.2) (run.map_adapters hroom)
      rw [map_snd_numbered, List.map_map, unitSpans_activeTops] at hsites
      rw [run.types_drop]
      exact hsites

namespace Meter

/-- An interface with one method, and a meter that makes two closures: one that
captures a local and its instance, and inside it one that captures nothing. -/
def unit : CompilationUnit where
  name := "meter"
  sourcePath := none
  types := [
    { TypeDecl.empty 0 "Step" .topLevel with
      isInterface := true
      methods :=
        [⟨"run", [], [⟨1, "x", .int, true⟩], .int, [], .method, false, true, false, false, none,
        .dummy⟩] },
    { TypeDecl.empty 1 "Meter" .topLevel with
      fields := [⟨"level", .int, false, false, none⟩]
      methods :=
        [⟨"make", [], [⟨2, "by", .int, true⟩], .raw 0, [], .method, false, false, false, false,
        some [.ret (some (.lambda ⟨[⟨3, "x", .int, true⟩],
          .block [
            .expr (.lambda ⟨[⟨4, "y", .int, true⟩], .expr (.localGet 4), .int, .raw 0, .dummy⟩),
            .ret (some (.binary .add (.localGet 2) (.fieldGet none ⟨1, 0⟩)))],
          .int, .raw 0, .dummy⟩))],
        .dummy⟩] }]

theorem isArena : unit.IsArena := by decide

end Meter

/-- The correspondence for a unit with one site inside another. -/
theorem lower_corresponds_meter :
    ∃ v summary, Meter.unit.lower .onDemand = .ok (v, summary) ∧ summary.sites = 2 ∧
      Corresponds Meter.unit v summary := by
  have hrun : ((Meter.unit.lower .onDemand).map fun r => r.2.sites) = .ok 2 := by cbv
  obtain ⟨⟨v, summary⟩, h, hsites⟩ := map_eq_ok.mp hrun
  have hfree : Meter.unit.constructions = [] := rfl
  refine ⟨v, summary, h, hsites.symm, lower_corresponds Meter.isArena ?_ h ?_⟩
  · simp [hfree]
  · rw [← hsites]
    decide

end Closures
