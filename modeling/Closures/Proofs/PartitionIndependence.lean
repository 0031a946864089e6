import Closures.Proofs.ClosureNames
import Closures.Proofs.Outline
import Closures.Proofs.Repetition

/-!
# Partitions do not interfere

A partition is a top-level type with all that is nested in it. To lower it takes
its code and the outlines of the other declarations, so other code elsewhere
makes no difference (`lowerPartition_eq`). In a whole unit it can make a
difference to the numbers that a partition starts from. These show up in no
name, no capture and no signature (`partitions_independent`).
-/

set_option autoImplicit false

namespace Closures

/-- Units that agree in everything but the code outside of one partition. -/
structure CompilationUnit.AgreesOn (u v : CompilationUnit) (top : ClassId) : Prop where
  name : v.name = u.name
  sourcePath : v.sourcePath = u.sourcePath
  types : List.Forall₂ (fun d d' => d'.outline = d.outline ∧ (u.topLevel d.id = top → d' = d))
    u.types v.types

/-- The adapters of a lowered unit whose sites are in one partition of the given
unit. -/
def CompilationUnit.adaptersOf (u v : CompilationUnit) (top : ClassId) : List TypeDecl :=
  (v.types.drop u.types.length).filter fun d => d.adapter.any fun a => u.topLevel a.enclosing == top

namespace Lowering

section Agreement

variable {u v : CompilationUnit} {top : ClassId} (h : u.AgreesOn v top)

include h

theorem outline_eq : v.outline = u.outline := by
  have htypes : v.types.map TypeDecl.outline = u.types.map TypeDecl.outline :=
    map_eq_of_forall₂ (h.types.imp fun _ _ hd => hd.1)
  rw [CompilationUnit.outline, CompilationUnit.outline, htypes, h.name, h.sourcePath]

theorem topLevel_eq : v.topLevel = u.topLevel := by
  rw [← v.topLevel_outline, outline_eq h, u.topLevel_outline]

theorem declsOf_eq : declsOf v top = declsOf u top := by
  have htypes := h.types
  rw [declsOf, declsOf, topLevel_eq h]
  generalize u.types = ts, v.types = ts' at htypes
  induction htypes with
  | nil => rfl
  | @cons d d' _ _ hd _ ih =>
    obtain ⟨houtline, hsame⟩ := hd
    have hid : d'.outline.id = d.outline.id := congrArg TypeDecl.id houtline
    by_cases htop : u.topLevel d.id = top
    · rw [hsame htop, List.filter_cons, List.filter_cons, ih]
    · have hout : ∀ d₀ : TypeDecl, d₀.id = d.id → (isLowered d₀ && u.topLevel d₀.id == top) =
          false := by
        intro d₀ hid
        rw [hid, beq_false_of_ne htop, Bool.and_false]
      simp only [List.filter_cons, hout d' hid, hout d rfl, ih]
      rfl

/-- **Partitions do not interfere.** -/
theorem lowerPartition_eq (policy : SingletonInit) (first : LocalId) (next : ClassId) :
    lowerPartition v policy first top next = lowerPartition u policy first top next := by
  have hdecl : lowerDecl v policy = lowerDecl u policy := by
    funext d
    rw [← lowerDecl_outline, outline_eq h, lowerDecl_outline]
  rw [lowerPartition, lowerPartition, declsOf_eq h, hdecl]

end Agreement

theorem mem_activeTops {u : CompilationUnit} {c : ClassId} :
    c ∈ activeTops u ↔ siteCount u c ≠ 0 := by
  rw [activeTops, List.mem_filter, bne_iff_ne]
  refine ⟨fun h => h.2, fun h => ⟨?_, h⟩⟩
  cases hdecls : declsOf u c with
  | nil =>
    rw [siteCount, hdecls] at h
    exact absurd rfl h
  | cons d ds =>
    have hd : d ∈ declsOf u c := hdecls ▸ List.mem_cons_self
    rw [declsOf, List.mem_filter, Bool.and_eq_true, beq_iff_eq] at hd
    exact mem_tops.mpr ⟨d, hd.1, hd.2.1, hd.2.2⟩

/-- The adapters of a partition record types of the partition. -/
theorem lowerPartition_adapter {u : CompilationUnit} {policy : SingletonInit} {top next : ClassId}
    {first : LocalId} {r : PartitionResult} (h : lowerPartition u policy first top next = .ok r)
    {d : TypeDecl} (hd : d ∈ r.adapters) :
    ∃ info, d.adapter = some info ∧ u.topLevel info.enclosing = top := by
  obtain ⟨new, hperm, -, hnew⟩ := lowerPartition_tickets h
  obtain ⟨x, hx, rfl⟩ := List.mem_map.mp (hperm.mem_iff.mp hd)
  obtain ⟨info, hinfo, hin⟩ := hnew x hx
  exact ⟨info, hinfo.adapter, hin.1⟩

/-- Of adapters made partition by partition, those of one partition are what its
lowering made. -/
theorem filter_adapters {u : CompilationUnit} {policy : SingletonInit} {first : LocalId}
    (top : ClassId)
    {ts : List ClassId} (hts : ts.Nodup) {next : ClassId} {rs : List PartitionResult}
    (h : List.Forall₂ (fun p r => lowerPartition u policy first p.top p.firstAdapter = .ok r)
      (number u next ts) rs) :
    (top ∈ ts → ∃ next r, lowerPartition u policy first top next = .ok r ∧
      (rs.flatMap (·.adapters)).filter (·.adapter.any fun a => u.topLevel a.enclosing == top) =
        r.adapters) ∧
    (top ∉ ts →
      (rs.flatMap (·.adapters)).filter (·.adapter.any fun a => u.topLevel a.enclosing == top) =
        []) := by
  induction ts generalizing next rs with
  | nil =>
    cases h
    exact ⟨fun h => (nomatch h), fun _ => rfl⟩
  | cons t ts ih =>
    rw [number] at h
    cases h with
    | @cons _ r _ rs hr hrs =>
      rw [List.nodup_cons] at hts
      obtain ⟨hmem, hnot⟩ := ih hts.2 hrs
      rw [List.flatMap_cons, List.filter_append, List.mem_cons]
      have hadapter : ∀ d ∈ r.adapters,
          (d.adapter.any fun a => u.topLevel a.enclosing == top) = (t == top) := by
        intro d hd
        obtain ⟨info, hinfo, htop⟩ := lowerPartition_adapter hr hd
        rw [hinfo, Option.any_some, htop]
      by_cases heq : t = top
      · subst heq
        have hself :
            r.adapters.filter (·.adapter.any fun a => u.topLevel a.enclosing == t) = r.adapters :=
          List.filter_eq_self.mpr fun d hd => (hadapter d hd).trans (beq_self_eq_true t)
        rw [hself, hnot hts.1, List.append_nil]
        exact ⟨fun _ => ⟨next, r, hr, rfl⟩, fun h => absurd (.inl rfl) h⟩
      · have hnone : r.adapters.filter (·.adapter.any fun a => u.topLevel a.enclosing == top) =
          [] :=
          List.filter_eq_nil_iff.mpr fun d hd => by rw [hadapter d hd, beq_false_of_ne heq]; decide
        rw [hnone, List.nil_append, or_iff_right (Ne.symm heq)]
        exact ⟨hmem, hnot⟩

/-- **The adapters whose sites are in a partition are those that its lowering
made.** -/
theorem UnitRun.adaptersOf_perm {u v : CompilationUnit} {policy : SingletonInit} {summary : Summary}
    (run : UnitRun u policy v summary) (top : ClassId) :
    (siteCount u top ≠ 0 → ∃ next r, lowerPartition u policy (firstLocal u) top next = .ok r ∧
      (u.adaptersOf v top).Perm r.adapters) ∧
    (siteCount u top = 0 → u.adaptersOf v top = []) := by
  have hnodup : (activeTops u).Nodup := (tops_nodup u).sublist List.filter_sublist
  obtain ⟨hmem, hnot⟩ := filter_adapters top hnodup run.results_eq
  have hperm : (u.adaptersOf v top).Perm ((run.results.flatMap (·.adapters)).filter
      (·.adapter.any fun a => u.topLevel a.enclosing == top)) := by
    rw [CompilationUnit.adaptersOf, run.types_drop]
    exact (List.mergeSort_perm ..).filter _
  constructor
  · intro hsites
    obtain ⟨next, r, hr, hadapters⟩ := hmem (mem_activeTops.mpr hsites)
    exact ⟨next, r, hr, hadapters ▸ hperm⟩
  · intro hsites
    rw [hnot (fun h => mem_activeTops.mp h hsites)] at hperm
    exact hperm.eq_nil

end Lowering

open Lowering in
/-- **Partitions do not interfere.** Of two units that agree in everything but
the code outside of a partition, the partition is lowered to the same, or fails
with the same error in the same words, from any numbers on. And if both units
are lowered, the adapters of the partition show the same: names, captures and
methods do not depend on sites elsewhere. -/
theorem partitions_independent {u v : CompilationUnit} {top : ClassId} (h : u.AgreesOn v top)
    (policy : SingletonInit) :
    (∀ first next, lowerPartition v policy first top next =
      lowerPartition u policy first top next) ∧
      (∀ e : LoweringError, e.message v = e.message u) ∧
      ∀ {u' v' : CompilationUnit} {s s' : Summary}, u.lower policy = .ok (u', s) →
        v.lower policy = .ok (v', s') →
        ((v.adaptersOf v' top).map TypeDecl.face).Perm
          ((u.adaptersOf u' top).map TypeDecl.face) := by
  refine ⟨fun first next => lowerPartition_eq h policy first next, fun e => ?_, ?_⟩
  · rw [LoweringError.message, LoweringError.message, ← Cause.message_outline, outline_eq h,
      Cause.message_outline]
  · intro u' v' s s' hu hv
    obtain ⟨run⟩ := exists_unitRun hu
    obtain ⟨run'⟩ := exists_unitRun hv
    obtain ⟨hsome, hnone⟩ := run.adaptersOf_perm top
    obtain ⟨hsome', hnone'⟩ := run'.adaptersOf_perm top
    have hsites : siteCount v top = siteCount u top := by rw [siteCount, siteCount, declsOf_eq h]
    by_cases hzero : siteCount u top = 0
    · rw [hnone hzero, hnone' (hsites.trans hzero)]
    · obtain ⟨next, r, hr, hperm⟩ := hsome hzero
      obtain ⟨next', r', hr', hperm'⟩ := hsome' (fun h => hzero (hsites.symm.trans h))
      rw [lowerPartition_eq h] at hr'
      calc (v.adaptersOf v' top).map TypeDecl.face
        _ |>.Perm (r'.adapters.map TypeDecl.face) := hperm'.map _
        _ |>.Perm (r.adapters.map TypeDecl.face) := lowerPartition_faces hr hr'
        _ |>.Perm ((u.adaptersOf u' top).map TypeDecl.face) := (hperm.map _).symm

namespace Pair

/-- A lambda that adds a captured local to its parameter. -/
def adder (x : LocalId) (captured : LocalId) : Expr :=
  .lambda ⟨[⟨x, "x", .int, true⟩], .expr (.binary .add (.localGet captured) (.localGet x)), .int,
    .raw 0, .dummy⟩

/-- A type with a method of one parameter. -/
def maker (id : ClassId) (name : String) (n : LocalId) (body : List Stmt) : TypeDecl :=
  { TypeDecl.empty id name .topLevel with
    methods := [⟨"make", [], [⟨n, "n", .int, true⟩], .raw 0, [], .method, true, false, false, false,
      some body, .dummy⟩] }

/-- An interface and two types that make closures; the code of the first one can
be chosen. -/
def unit (body : List Stmt) : CompilationUnit where
  name := "pair"
  sourcePath := none
  types := [
    { TypeDecl.empty 0 "Step" .topLevel with
      isInterface := true
      methods :=
        [⟨"run", [], [⟨1, "x", .int, true⟩], .int, [], .method, false, true, false, false, none,
        .dummy⟩] },
    maker 1 "A" 2 body,
    maker 2 "B" 3 [.ret (some (adder 4 3))]]

/-- Code with one site. -/
def short : List Stmt := [.ret (some (adder 5 2))]

/-- Code with two sites, and a larger local. -/
def long : List Stmt := [.expr (adder 8 2), .ret (some (adder 9 2))]

theorem agreesOn : (unit short).AgreesOn (unit long) 2 :=
  ⟨rfl, rfl, .cons ⟨rfl, fun _ => rfl⟩ (.cons ⟨rfl, fun h => absurd h (by decide)⟩
    (.cons ⟨rfl, fun _ => rfl⟩ .nil))⟩

end Pair

/-- A second site in one type moves the number of the adapter of another, and
nothing else of it. -/
theorem partitions_independent_pair :
    ∃ u v s s', (Pair.unit Pair.short).lower .onDemand = .ok (u, s) ∧
      (Pair.unit Pair.long).lower .onDemand = .ok (v, s') ∧
      s.adapters = [(3, "A_$Lambda$1"), (4, "B_$Lambda$1")] ∧
      s'.adapters = [(3, "A_$Lambda$1"), (4, "A_$Lambda$2"), (5, "B_$Lambda$1")] ∧
      (((Pair.unit Pair.long).adaptersOf v 2).map TypeDecl.face).Perm
        (((Pair.unit Pair.short).adaptersOf u 2).map TypeDecl.face) := by
  have hshort : ((Pair.unit Pair.short).lower .onDemand).map (·.2.adapters) =
      .ok [(3, "A_$Lambda$1"), (4, "B_$Lambda$1")] := by cbv
  have hlong : ((Pair.unit Pair.long).lower .onDemand).map (·.2.adapters) =
      .ok [(3, "A_$Lambda$1"), (4, "A_$Lambda$2"), (5, "B_$Lambda$1")] := by cbv
  obtain ⟨⟨u, s⟩, hu, hs⟩ := map_eq_ok.mp hshort
  obtain ⟨⟨v, s'⟩, hv, hs'⟩ := map_eq_ok.mp hlong
  exact ⟨u, v, s, s', hu, hv, hs.symm, hs'.symm,
    (partitions_independent Pair.agreesOn .onDemand).2.2 hu hv⟩

end Closures
