import Mathlib
import Closures.Proofs.Nesting
import Closures.Proofs.RunInduction

/-!
# The names of adapters

The name of an adapter is made of the qualified path of the type around its site
and of a number, and the numbers are counted for the nearest named type. So each
adapter has a **ticket**, a named type and a number, and no ticket is handed out
twice (`UnitRun.ticketed`). Path and number can be read off the name again
(`name_inj`). Two adapters share a name only if the types around their sites
have one path and are counted apart (`adapter_names`), which does happen: `A_B`
can be a type in no other, or the type `B` in the type `A`.
-/

set_option autoImplicit false

namespace Closures

namespace Lowering

/-! ## Tickets -/

/-- An adapter that was named for a number of a named type. -/
structure Ticketed (u : CompilationUnit) (d : TypeDecl) (ticket : ClassId × Nat)
    (info : AdapterInfo) :
    Prop where
  adapter : d.adapter = some info
  named : u.nearestNamed info.enclosing = ticket.1
  name : d.name = u.qualifiedPath info.enclosing ++ "_$Lambda$" ++ ticket.2.repr

/-- **A piece of lowering hands out tickets**: one for each adapter, none of
them twice, and only numbers that were not counted before. -/
structure Tickets (u : CompilationUnit) (Q : ClassId → Prop) (p p' : Progress)
    (new : List (TypeDecl × (ClassId × Nat))) : Prop where
  adapters : p'.adapters = new.map (·.1) ++ p.adapters
  ticketed : ∀ x ∈ new, ∃ info, Ticketed u x.1 x.2 info ∧ Q info.enclosing
  nodup : (new.map (·.2)).Nodup
  grows : ∀ c, p.naming.count c ≤ p'.naming.count c
  fresh : ∀ x ∈ new, p.naming.count x.2.1 < x.2.2 ∧ x.2.2 ≤ p'.naming.count x.2.1

namespace Tickets

variable {u : CompilationUnit} {Q : ClassId → Prop} {p p₁ p₂ p' : Progress}
  {new new₁ new₂ : List (TypeDecl × (ClassId × Nat))}

theorem refl (p : Progress) : Tickets u Q p p [] where
  adapters := rfl
  ticketed _ h := nomatch h
  nodup := List.nodup_nil
  grows _ := Nat.le_refl _
  fresh _ h := nomatch h

theorem append (h₁ : Tickets u Q p p₁ new₁) (h₂ : Tickets u Q p₁ p' new₂) :
    Tickets u Q p p' (new₂ ++ new₁) where
  adapters := by rw [h₂.adapters, h₁.adapters, List.map_append, List.append_assoc]
  ticketed := List.forall_mem_append.mpr ⟨h₂.ticketed, h₁.ticketed⟩
  nodup := by
    rw [List.map_append, List.nodup_append]
    refine ⟨h₂.nodup, h₁.nodup, ?_⟩
    -- the numbers of the second piece are beyond those of the first
    intro ticket hticket ticket' hticket' heq
    obtain ⟨x, hx, rfl⟩ := List.mem_map.mp hticket
    obtain ⟨y, hy, rfl⟩ := List.mem_map.mp hticket'
    have hlow := (h₂.fresh x hx).1
    have hhigh := (h₁.fresh y hy).2
    rw [← heq] at hhigh
    omega
  grows c := Nat.le_trans (h₁.grows c) (h₂.grows c)
  fresh := by
    refine List.forall_mem_append.mpr ⟨fun x hx => ?_, fun x hx => ?_⟩
    · exact ⟨Nat.lt_of_le_of_lt (h₁.grows _) (h₂.fresh x hx).1, (h₂.fresh x hx).2⟩
    · exact ⟨(h₁.fresh x hx).1, Nat.le_trans (h₁.fresh x hx).2 (h₂.grows _)⟩

/-- **A site takes the next number** before those inside it do. -/
theorem site {cx : Context} {c : Closure} (h : Tickets cx.unit Q (cx.allocated p) p₁ new)
    (hsame : p₁.SameSites p₂) (hname : c.name = cx.nameFor p) (hc : c.enclosing = cx.owner)
    (hQ : Q cx.owner) :
    Tickets cx.unit Q p (cx.finished c p₂)
      ((c.decl cx.unit cx.policy, cx.unit.nearestNamed cx.owner,
        p.naming.count (cx.unit.nearestNamed cx.owner) + 1) :: new) := by
  obtain ⟨next, rfl⟩ := hsame
  have hself : (cx.allocated p).naming.count (cx.unit.nearestNamed cx.owner) =
      p.naming.count (cx.unit.nearestNamed cx.owner) + 1 := List.count_cons_self
  have hallocated : ∀ x, p.naming.count x ≤ (cx.allocated p).naming.count x := fun x =>
    List.count_le_count_cons
  refine ⟨congrArg (_ :: ·) h.adapters, List.forall_mem_cons.mpr ⟨?_, h.ticketed⟩,
    List.nodup_cons.mpr ⟨?_, h.nodup⟩, fun x => Nat.le_trans (hallocated x) (h.grows x),
    List.forall_mem_cons.mpr ⟨⟨Nat.lt_succ_self _, ?_⟩, fun x hx => ?_⟩⟩
  · refine ⟨c.info cx.policy, ⟨rfl, congrArg cx.unit.nearestNamed hc, ?_⟩, (congrArg Q hc).mpr hQ⟩
    change c.name = cx.unit.qualifiedPath c.enclosing ++ _ ++ _
    rw [hname, hc]
    rfl
  · intro hmem
    obtain ⟨x, hx, heq⟩ := List.mem_map.mp hmem
    have hlow := (h.fresh x hx).1
    rw [heq, hself] at hlow
    exact Nat.lt_irrefl _ hlow
  · rw [← hself]
    exact h.grows _
  · exact ⟨Nat.lt_of_le_of_lt (hallocated _) (h.fresh x hx).1, (h.fresh x hx).2⟩

end Tickets

/-! ## Runs -/

/-- Some tickets are handed out, whatever is lowered. -/
def HandsOut (u : CompilationUnit) (Q : ClassId → Prop) {α β : Type} (_ : α)
    (_ : β) (p p' : Progress) :
    Prop := ∃ new, Tickets u Q p p' new

theorem HandsOut.along {u : CompilationUnit} {Q : ClassId → Prop} {α β : Type} {as : List α}
    {bs : List β} {p p' : Progress} (h : Along (HandsOut u Q) as bs p p') :
    ∃ new, Tickets u Q p p' new := by
  induction h with
  | nil p => exact ⟨[], .refl p⟩
  | cons hr _ ih =>
    obtain ⟨new₁, h₁⟩ := hr
    obtain ⟨new₂, h₂⟩ := ih
    exact ⟨_, h₁.append h₂⟩

theorem HandsOut.part {u : CompilationUnit} {Q : ClassId → Prop} {part part' : Part}
    {p p' : Progress}
    (h : PartAlong (HandsOut u Q) (HandsOut u Q) part part' p p') :
      ∃ new, Tickets u Q p p' new := by
  cases h with
  | exprs _ h | stmts _ h => exact HandsOut.along h

theorem HandsOut.parts {u : CompilationUnit} {Q : ClassId → Prop} {ps ps' : List Part}
    {p p' : Progress}
    (h : Along (PartAlong (HandsOut u Q) (HandsOut u Q)) ps ps' p p') :
      ∃ new, Tickets u Q p p' new :=
  HandsOut.along (h.imp HandsOut.part)

theorem runSteps_handsOut (cx : Context) {Q : ClassId → Prop} (hQ : Q cx.owner) :
    RunSteps (HandsOut cx.unit Q) (HandsOut cx.unit Q) cx where
  node _ _ h := HandsOut.along h
  lambda run h := by
    obtain ⟨new, hnew⟩ := HandsOut.part h
    exact ⟨_, hnew.site run.sameSites rfl rfl hQ⟩
  methodRef run h := by
    obtain ⟨new, hnew⟩ := HandsOut.along h
    exact ⟨_, hnew.site run.sameSites rfl rfl hQ⟩
  stmt _ h := HandsOut.parts h

section Units

variable {u v : CompilationUnit} {policy : SingletonInit} {summary : Summary}

/-- The sites of a partition lie in its types. -/
def InPartition (u : CompilationUnit) (top : ClassId) (id : ClassId) : Prop :=
  u.topLevel id = top ∧ ∃ d ∈ u.types, d.kind ≠ .adapter ∧ d.id = id

/-- **A partition hands out tickets.** -/
theorem lowerPartition_tickets {first : LocalId} {top next : ClassId} {r : PartitionResult}
    (h : lowerPartition u policy first top next = .ok r) :
    ∃ new : List (TypeDecl × (ClassId × Nat)), r.adapters.Perm (new.map (·.1)) ∧
      (new.map (·.2)).Nodup ∧
      ∀ x ∈ new, ∃ info, Ticketed u x.1 x.2 info ∧ InPartition u top info.enclosing := by
  obtain ⟨stop, hrun, hadapters⟩ := lowerPartition_eq_ok h
  have halong : Along (HandsOut u (InPartition u top)) (declsOf u top) r.types ⟨next, first, [], []⟩
      stop := by
    refine .of_mapM hrun fun d hd d' p p' hdecl => ?_
    obtain ⟨hmem, hlowered⟩ := List.mem_filter.mp hd
    rw [Bool.and_eq_true, beq_iff_eq, isLowered, bne_iff_ne] at hlowered
    have hin : InPartition u top d.id := ⟨hlowered.2, d, hmem, hlowered.1, rfl⟩
    refine HandsOut.parts (RunSteps.decl (fun isStatic => ?_) hdecl)
    exact runSteps_handsOut (declContext u policy d isStatic) hin
  obtain ⟨new, hnew⟩ := HandsOut.along halong
  refine ⟨new, ?_, hnew.nodup, hnew.ticketed⟩
  rw [hadapters, hnew.adapters, List.append_nil]
  exact List.mergeSort_perm ..

/-- **No ticket is handed out twice** in a unit. Partitions count apart, and
share no named types. -/
theorem UnitRun.ticketed (run : UnitRun u policy v summary)
    (hends : ∀ d ∈ u.types, u.NestingEnds d.id) :
    ∃ new : List (TypeDecl × (ClassId × Nat)), run.adapters.Perm (new.map (·.1)) ∧
      (new.map (·.2)).Nodup ∧ ∀ x ∈ new, ∃ info, Ticketed u x.1 x.2 info ∧
        ∃ d ∈ u.types, d.kind ≠ .adapter ∧ d.id = info.enclosing := by
  have htops : (activeTops u).Nodup := (tops_nodup u).sublist List.filter_sublist
  suffices h : ∃ new : List (TypeDecl × (ClassId × Nat)),
      (run.results.flatMap (·.adapters)).Perm (new.map (·.1)) ∧ (new.map (·.2)).Nodup ∧
      ∀ x ∈ new, ∃ info, Ticketed u x.1 x.2 info ∧
        ∃ top ∈ activeTops u, InPartition u top info.enclosing by
    obtain ⟨new, hperm, hnodup, hall⟩ := h
    refine ⟨new, (List.mergeSort_perm ..).trans hperm, hnodup, fun x hx => ?_⟩
    obtain ⟨info, hinfo, _, -, hin⟩ := hall x hx
    exact ⟨info, hinfo, hin.2⟩
  have hresults := run.results_eq
  generalize run.results = rs at hresults ⊢
  generalize u.types.length.toUInt32 = next at hresults
  generalize activeTops u = ts at hresults htops ⊢
  induction ts generalizing next rs with
  | nil =>
    cases hresults
    exact ⟨[], .nil, List.nodup_nil, fun _ h => nomatch h⟩
  | cons t ts ih =>
    rw [number] at hresults
    cases hresults with
    | @cons _ r _ rs hr hrs =>
      rw [List.nodup_cons] at htops
      obtain ⟨new₁, hperm₁, hnodup₁, hall₁⟩ := lowerPartition_tickets hr
      obtain ⟨new₂, hperm₂, hnodup₂, hall₂⟩ := ih _ _ hrs htops.2
      refine ⟨new₁ ++ new₂, ?_, ?_, List.forall_mem_append.mpr ⟨fun x hx => ?_, fun x hx => ?_⟩⟩
      · rw [List.flatMap_cons, List.map_append]
        exact hperm₁.append hperm₂
      · rw [List.map_append, List.nodup_append]
        refine ⟨hnodup₁, hnodup₂, ?_⟩
        intro ticket hticket ticket' hticket' heq
        obtain ⟨x, hx, rfl⟩ := List.mem_map.mp hticket
        obtain ⟨y, hy, rfl⟩ := List.mem_map.mp hticket'
        obtain ⟨info, hinfo, htop, d, hd, -, hid⟩ := hall₁ x hx
        obtain ⟨info', hinfo', top', htop', heq', d', hd', -, hid'⟩ := hall₂ y hy
        -- one named type lies in one top-level type
        have hsame : u.topLevel info.enclosing = u.topLevel info'.enclosing := by
          rw [← CompilationUnit.topLevel_nearestNamed (hid ▸ hends d hd), hinfo.named, heq,
            ← hinfo'.named, CompilationUnit.topLevel_nearestNamed (hid' ▸ hends d' hd')]
        obtain rfl : t = top' := htop.symm.trans (hsame.trans heq')
        exact htops.1 htop'
      · obtain ⟨info, hinfo, hin⟩ := hall₁ x hx
        exact ⟨info, hinfo, t, List.mem_cons_self, hin⟩
      · obtain ⟨info, hinfo, top, htop, hin⟩ := hall₂ x hx
        exact ⟨info, hinfo, top, List.mem_cons_of_mem _ htop, hin⟩

end Units

end Lowering

/-! ## Reading names -/

theorem toList_repr (n : Nat) : n.repr.toList = Nat.toDigits 10 n := String.toList_ofList

theorem not_mem_repr {c : Char} (hc : c.isDigit = false) (n : Nat) : c ∉ n.repr.toList := by
  intro hmem
  rw [toList_repr] at hmem
  rw [Nat.isDigit_of_mem_toDigits (by decide) (by decide) hmem] at hc
  cases hc

theorem toList_repr_inj {m n : Nat} (h : m.repr.toList = n.repr.toList) : m = n := by
  rw [toList_repr, toList_repr] at h
  rw [← Nat.ofDigitChars_toDigits (b := 10) (n := m) (by decide) (by decide), h,
    Nat.ofDigitChars_toDigits (by decide) (by decide)]

/-- **Path and number can be read off a name.** -/
theorem name_inj {p q : String} {m n : Nat}
    (h : p ++ "_$Lambda$" ++ m.repr = q ++ "_$Lambda$" ++ n.repr) : p = q ∧ m = n := by
  have hsplit : ∀ (s : String) (k : Nat),
      (s ++ "_$Lambda$" ++ k.repr).toList = (s ++ "_$Lambda").toList ++ '$' :: k.repr.toList := by
    intro s k
    simp
  rw [← String.toList_inj, hsplit, hsplit] at h
  obtain ⟨hpath, hnumber⟩ :=
    CompilationUnit.append_cons_inj_last (not_mem_repr rfl m) (not_mem_repr rfl n) h
  rw [String.toList_append, String.toList_append] at hpath
  exact ⟨String.toList_inj.mp (List.append_cancel_right hpath), toList_repr_inj hnumber⟩

/-! ## Adapters with one name -/

/-- Two adapters whose sites lie in types with one path that are counted
apart. -/
def TypeDecl.SharePath (u : CompilationUnit) (d d' : TypeDecl) : Prop :=
  ∃ info info', d.adapter = some info ∧ d'.adapter = some info' ∧
    u.qualifiedPath info.enclosing = u.qualifiedPath info'.enclosing ∧
    u.nearestNamed info.enclosing ≠ u.nearestNamed info'.enclosing

theorem TypeDecl.SharePath.symm {u : CompilationUnit} {d d' : TypeDecl} (h : d.SharePath u d') :
    d'.SharePath u d := by
  obtain ⟨info, info', hd, hd', hpath, hnamed⟩ := h
  exact ⟨info', info, hd', hd, hpath.symm, hnamed.symm⟩

/-- Adapters with one name and different tickets share a path. -/
theorem Lowering.Ticketed.sharePath {u : CompilationUnit} {d d' : TypeDecl} {x x' : ClassId × Nat}
    {info info' : AdapterInfo} (h : Ticketed u d x info) (h' : Ticketed u d' x' info')
    (hne : x ≠ x') (hname : d.name = d'.name) : d.SharePath u d' := by
  rw [h.name, h'.name] at hname
  obtain ⟨hpath, hnumber⟩ := name_inj hname
  refine ⟨info, info', h.adapter, h'.adapter, hpath, fun hnamed => hne ?_⟩
  rw [h.named, h'.named] at hnamed
  exact Prod.ext hnamed hnumber

open Lowering in
/-- **The names of adapters.** Let a unit be lowered in which the nesting of
types comes to an end.

* Two new adapters with one name stem from types with one qualified path that
  are counted apart.
* There are none if the names of types contain no `_` and types in the same
  place have different names, whatever their kind: then all new adapters have
  different names. -/
theorem adapter_names {u v : CompilationUnit} {policy : SingletonInit} {summary : Summary}
    (hends : ∀ d ∈ u.types, u.NestingEnds d.id) (h : u.lower policy = .ok (v, summary)) :
    (v.types.drop u.types.length).Pairwise (fun d d' => d.name = d'.name → d.SharePath u d') ∧
      (u.IsArena → u.PlainNames → ((v.types.drop u.types.length).map (·.name)).Nodup) := by
  obtain ⟨run⟩ := exists_unitRun h
  obtain ⟨new, hperm, hnodup, hall⟩ := run.ticketed hends
  have hpairs : (new.map (·.1)).Pairwise (fun d d' => d.name = d'.name → d.SharePath u d') := by
    rw [List.pairwise_map]
    refine (List.pairwise_map.mp hnodup).imp_of_mem fun {x y} hx hy hne hname => ?_
    obtain ⟨info, hinfo, -⟩ := hall x hx
    obtain ⟨info', hinfo', -⟩ := hall y hy
    exact hinfo.sharePath hinfo' hne hname
  have hshare := (hperm.pairwise_iff fun {x y} hxy hname => (hxy hname.symm).symm).mpr hpairs
  rw [run.types_drop]
  refine ⟨hshare, fun hu hplain => List.pairwise_map.mpr (hshare.imp_of_mem ?_)⟩
  intro d d' hd hd' hsame hname
  obtain ⟨info, info', hinfo, hinfo', hpath, hnamed⟩ := hsame hname
  -- both sites lie in declarations of the unit, and these have different paths
  have hdecl : ∀ {d info}, d ∈ run.adapters → d.adapter = some info →
      ∃ e ∈ u.types, e.kind ≠ .adapter ∧ e.id = info.enclosing := by
    intro d info hd hinfo
    obtain ⟨x, hx, rfl⟩ := List.mem_map.mp (hperm.mem_iff.mp hd)
    obtain ⟨info', hinfo', hin⟩ := hall x hx
    rw [hinfo'.adapter] at hinfo
    cases hinfo
    exact hin
  obtain ⟨e, he, hk, hid⟩ := hdecl hd hinfo
  obtain ⟨e', he', hk', hid'⟩ := hdecl hd' hinfo'
  rw [← hid, ← hid'] at hpath hnamed
  exact hnamed (congrArg u.nearestNamed
    (CompilationUnit.qualifiedPath_inj hu hplain hends he he' hk hk' hpath))

namespace Label

/-- An interface with one method. -/
def step : TypeDecl :=
  { TypeDecl.empty 0 "Step" .topLevel with
    isInterface := true
    methods :=
      [⟨"run", [], [⟨1, "x", .int, true⟩], .int, [], .method, false, true, false, false, none,
      .dummy⟩] }

/-- A type with a method that makes a closure. -/
def maker (id : ClassId) (name : String) (kind : TypeKind) (outer : Option ClassId) (x : LocalId) :
    TypeDecl :=
  { TypeDecl.empty id name kind with
    isStatic := true
    outer
    methods := [⟨"make", [], [], .raw 0, [], .method, true, false, false, false,
      some [.ret
        (some (.lambda ⟨[⟨x, "x", .int, true⟩], .expr (.localGet x), .int, .raw 0, .dummy⟩))],
      .dummy⟩] }

/-- A type with a member and an anonymous class in it, with a closure in each of
the three. -/
def unit : CompilationUnit where
  name := "label"
  sourcePath := none
  types := [step, maker 1 "A" .topLevel none 2, maker 2 "B" .member (some 1) 3,
    maker 3 "1" .anonymous (some 1) 4]

theorem isArena : unit.IsArena := by decide

theorem plainNames : unit.PlainNames where
  plain := by decide
  topLevel := by decide
  outer := by
    have h : ∀ d ∈ unit.types, d.outer = none ∨ d.outer = some 1 := by decide
    intro d hd _ o ho
    rcases h d hd with hnone | hsome
    · rw [ho] at hnone
      cases hnone
    · rw [ho] at hsome
      cases hsome
      exact ⟨_, rfl, by decide⟩
  siblings := by decide

/-- Two types in a type that share a name, and a type whose name looks like a
path. -/
def clash : CompilationUnit where
  name := "clash"
  sourcePath := none
  types := [step, TypeDecl.empty 1 "A" .topLevel, maker 2 "B" .member (some 1) 3,
    maker 3 "X" .member (some 1) 4, maker 4 "X" .inBlock (some 1) 5, maker 5 "A_B" .topLevel none 6]

end Label

/-- Three closures in one another's types have three names. -/
theorem adapter_names_label :
    ∃ v summary, Label.unit.lower .onDemand = .ok (v, summary) ∧
      summary.adapters.map (·.2) = ["A_$Lambda$1", "A_B_$Lambda$1", "A_1_$Lambda$2"] ∧
      ((v.types.drop Label.unit.types.length).map (·.name)).Nodup := by
  have hrun : ((Label.unit.lower .onDemand).map fun r => r.2.adapters.map (·.2)) =
      .ok ["A_$Lambda$1", "A_B_$Lambda$1", "A_1_$Lambda$2"] := by cbv
  obtain ⟨⟨v, summary⟩, h, hnames⟩ := map_eq_ok.mp hrun
  have hends : ∀ d ∈ Label.unit.types, Label.unit.NestingEnds d.id := by
    unfold CompilationUnit.NestingEnds
    decide
  exact ⟨v, summary, h, hnames.symm, (adapter_names hends h).2 Label.isArena Label.plainNames⟩

/-- **Names can clash**, although types of one kind in the same place have
different names: a member and a local class that share a name are counted apart,
and a path can be the name of another type. -/
theorem Label.names_clash :
    (∀ d ∈ clash.types, ∀ d' ∈ clash.types, d.outer = d'.outer → d.kind = d'.kind →
      d.name = d'.name →
        d.id = d'.id) ∧
      ((clash.lower .onDemand).map fun r => r.2.adapters) =
        .ok [(6, "A_B_$Lambda$1"), (7, "A_X_$Lambda$1"), (8, "A_X_$Lambda$1"),
          (9, "A_B_$Lambda$1")] :=
  ⟨by decide, by cbv⟩

end Closures
