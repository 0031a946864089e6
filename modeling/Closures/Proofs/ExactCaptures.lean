import Mathlib.Data.List.Chain
import Closures.Proofs.CaptureAnalysis
import Closures.Proofs.UnitLowering

/-!
# Capture analysis is exact

What a lambda takes from its site can be told without the analysis. A local is
taken if it is read somewhere in the body and declared neither by the lambda nor
in the body. An enclosing instance is taken if an expression **uses** one
without naming an object (`Expr.instanceUse?`); which one is **meant** is a fact
about the types around the site (`Site.Means`): the innermost that is the
qualifier, or that has the member.

The analysis succeeds exactly if everything that is used can be had
(`Capturable`). Then its slots are what is taken, each once and in the order in
which the walk first meets it, and the body finds a slot wherever it needs one
(`CaptureSet.Exact`).
-/

set_option autoImplicit false

namespace Closures

/-! ## What an expression uses -/

/-- How an enclosing instance is meant. -/
inductive InstanceUse where
  /-- By `this` or `super`, which may be qualified. -/
  | this (qualifier : Option ClassId)
  /-- As the one with the members of a type. -/
  | member (owner : ClassId)

/-- The enclosing instance that an expression uses without naming an object:
`this`, an instance member without receiver, a super call, or the creation of an
inner instance. -/
def Expr.instanceUse? (u : CompilationUnit) : Expr → Option InstanceUse
  | .this q | .call (.super q) _ _ => some (.this q)
  | .fieldGet none f | .fieldSet none f _ =>
    if (u.field? f).any (!·.isStatic) then some (.member f.owner) else none
  | .call .implicit m _ => if (u.method? m).any (!·.isStatic) then some (.member m.owner) else none
  | .new t _ none _ => (u.carrier? t.id).map .member
  | _ => none

/-- The members and types that an expression names without naming an object are
there. -/
def Expr.NamesKnown (u : CompilationUnit) : Expr → Prop
  | .fieldGet none f | .fieldSet none f _ => (u.field? f).isSome
  | .call .implicit m _ => (u.method? m).isSome
  | .new t _ none _ => (u.decl? t.id).isSome
  | .this (some q) | .call (.super (some q)) _ _ => (u.decl? q).isSome
  | _ => True

/-- An expression that takes the enclosing instance from an object. -/
def Expr.onInstance (e object : Expr) : Expr :=
  match e with
  | .this _ => object
  | .fieldGet none f => .fieldGet (some object) f
  | .fieldSet none f v => .fieldSet (some object) f v
  | .call .implicit m args => .call (.expr object) m args
  | .call (.super _) m args => .call (.nonVirtual object) m args
  | .new t ctor none args => .new t ctor (some object) args
  | e => e

namespace Site

/-- The nearest type around a site of which something holds. -/
def Innermost (s : Site) (p : ClassId → Prop) (depth : Nat) : Prop :=
  (∃ c, s.chain[depth]? = some c ∧ p c) ∧ ∀ i < depth, ∀ c, s.chain[i]? = some c → ¬p c

/-- Which enclosing instance is meant. A qualifying interface leaves it at the
innermost one. -/
def Means (s : Site) : InstanceUse → Nat → Prop
  | .this none, depth => s.chain ≠ [] ∧ depth = 0
  | .this (some q), depth => ∃ d, s.unit.decl? q = some d ∧
      if d.isInterface then s.chain ≠ [] ∧ depth = 0 else s.Innermost (· = q) depth
  | .member owner, depth => s.Innermost (Relation.ReflTransGen s.unit.Edge · owner) depth

variable {s : Site} {depth : Nat}

theorem innermost_iff {p : ClassId → Prop} {test : ClassId → Bool}
    (htest : ∀ c, test c = true ↔ p c) :
    s.Innermost p depth ↔ s.chain.findIdx? test = some depth := by
  rw [List.findIdx?_eq_some_iff_getElem, Innermost]
  constructor
  · rintro ⟨⟨c, hc, hp⟩, hbefore⟩
    obtain ⟨hlt, rfl⟩ := List.getElem?_eq_some_iff.mp hc
    refine ⟨hlt, (htest _).mpr hp, fun i hi hpi => ?_⟩
    have hilt := Nat.lt_trans hi hlt
    exact hbefore i hi _ (List.getElem?_eq_getElem hilt) ((htest _).mp hpi)
  · rintro ⟨hlt, hp, hbefore⟩
    refine ⟨⟨_, List.getElem?_eq_getElem hlt, (htest _).mp hp⟩, fun i hi c hc hpc => ?_⟩
    obtain ⟨_, rfl⟩ := List.getElem?_eq_some_iff.mp hc
    exact hbefore i hi ((htest _).mpr hpc)

theorem means_this_iff {q : Option ClassId} :
    s.Means (.this q) depth ↔ s.thisDepth q = .ok depth := by
  cases q with
  | none => exact thisDepth_none_eq_ok.symm
  | some q =>
    have hidx : s.Innermost (· = q) depth ↔ s.chain.idxOf? q = some depth :=
      innermost_iff fun c => beq_iff_eq
    rw [thisDepth_some_eq_ok, Means]
    constructor
    · rintro ⟨d, hd, hcase⟩
      split at hcase
      · exact ⟨hcase.1, d, hd, by rw [if_pos ‹_›]; exact hcase.2⟩
      · refine ⟨?_, d, hd, by rw [if_neg ‹_›]; exact hidx.mp hcase⟩
        rintro hnil
        obtain ⟨⟨c, hc, -⟩, -⟩ := hcase
        rw [hnil] at hc
        cases hc
    · rintro ⟨hne, d, hd, hcase⟩
      refine ⟨d, hd, ?_⟩
      split
      · rw [if_pos ‹_›] at hcase
        exact ⟨hne, hcase⟩
      · rw [if_neg ‹_›] at hcase
        exact hidx.mpr hcase

theorem means_member_iff {owner : ClassId} :
    s.Means (.member owner) depth ↔ s.memberDepth owner = .ok depth := by
  rw [memberDepth_eq_ok]
  exact innermost_iff fun c => s.unit.isSubclass_iff

/-- At most one enclosing instance is meant. -/
theorem Means.eq {use : InstanceUse} {depth' : Nat} (h : s.Means use depth)
    (h' : s.Means use depth') :
    depth = depth' := by
  cases use with
  | this q =>
    rw [means_this_iff] at h h'
    exact Except.ok.inj (h.symm.trans h')
  | member owner =>
    rw [means_member_iff] at h h'
    exact Except.ok.inj (h.symm.trans h')

theorem Means.lt {use : InstanceUse} (h : s.Means use depth) : depth < s.chain.length := by
  cases use with
  | this q => exact thisDepth_lt (means_this_iff.mp h)
  | member owner => exact memberDepth_lt (means_member_iff.mp h)

/-- The type of an enclosing instance within reach. -/
theorem getElem?_chain (h : depth < s.chain.length) :
    s.chain[depth]? = some (s.instanceType depth) := by
  rw [instanceType, List.getD_eq_getElem?_getD, List.getElem?_eq_getElem h]
  rfl

end Site

/-! ## One node -/

section Node

variable {s : Site} {declared : List LocalId} {e : Expr}

/-- Everything that an expression uses from outside can be had. -/
structure Expr.Capturable (s : Site) (declared : List LocalId) (e : Expr) : Prop where
  read : ∀ id, e = .localGet id → id ∉ declared →
    ∃ p, s.scope.lookup? id = some p ∧ p.effectivelyFinal = true
  assign : ∀ id v, e = .localSet id v → id ∈ declared
  known : e.NamesKnown s.unit
  means : ∀ use, e.instanceUse? s.unit = some use → ∃ depth, s.Means use depth

/-- What an expression takes from outside: a local that it reads, or the
instance that it uses. -/
inductive Expr.Takes (s : Site) (declared : List LocalId) : Expr → Slot → Prop where
  | local_ {id : LocalId} {p : Param} (hfree : id ∉ declared) (hp : s.scope.lookup? id = some p) :
    Takes s declared (.localGet id) (.localValue id p.name p.ty)
  | instance_ {e : Expr} {use : InstanceUse} {depth : Nat} {type : ClassId}
    (huse : e.instanceUse? s.unit = some use) (hmeans : s.Means use depth)
    (htype : s.chain[depth]? = some type) : Takes s declared e (.instance_ depth type)

theorem Expr.of_implicitField? {f : FieldId} (h : e.implicitField? = some f) :
    e = .fieldGet none f ∨ ∃ v, e = .fieldSet none f v := by
  unfold Expr.implicitField? at h
  split at h
  · cases h
    exact .inl rfl
  · cases h
    exact .inr ⟨_, rfl⟩
  · cases h

theorem Expr.of_isInert (u : CompilationUnit) (h : e.isInert = true) :
    (∀ id, e ≠ .localGet id) ∧ (∀ id v, e ≠ .localSet id v) ∧ e.NamesKnown u ∧
      e.instanceUse? u = none := by
  refine ⟨?_, ?_, ?_, ?_⟩
  · rintro id rfl
    cases h
  · rintro id v rfl
    cases h
  · unfold Expr.NamesKnown
    split <;> trivial
  · unfold Expr.instanceUse?
    split <;> first | rfl | cases h

/-- An expression that is neither a read nor an assignment of a local. -/
theorem Expr.Capturable.of_use (hread : ∀ id, e ≠ .localGet id)
    (hassign : ∀ id v, e ≠ .localSet id v)
    (hknown : e.NamesKnown s.unit)
    (hmeans : ∀ use, e.instanceUse? s.unit = some use → ∃ depth, s.Means use depth) :
    e.Capturable s declared :=
  ⟨fun id h => absurd h (hread id), fun id v h => absurd h (hassign id v), hknown, hmeans⟩

/-- What is resolved can be had. -/
theorem Expr.Resolved.capturable {bs : List Binding} (h : e.Resolved s declared bs) :
    e.Capturable s declared := by
  cases h with
  | own hid =>
    exact ⟨fun _ heq hfree => absurd (by cases heq; exact hid) hfree, nofun, trivial, nofun⟩
  | captured hfree hp =>
    refine ⟨?_, nofun, trivial, nofun⟩
    rintro _ ⟨⟩ -
    exact ⟨_, hp, rfl⟩
  | assigned hid =>
    refine ⟨nofun, ?_, trivial, nofun⟩
    rintro _ _ ⟨⟩
    exact hid
  | @this q _ hd =>
    refine .of_use nofun nofun ?_ ?_
    · cases q with
      | none => trivial
      | some q =>
        obtain ⟨-, d, hdecl, -⟩ := Site.thisDepth_some_eq_ok.mp hd
        exact Option.isSome_of_eq_some hdecl
    · rintro _ ⟨⟩
      exact ⟨_, Site.means_this_iff.mpr hd⟩
  | @super q _ _ _ hd =>
    refine .of_use nofun nofun ?_ ?_
    · cases q with
      | none => trivial
      | some q =>
        obtain ⟨-, d, hdecl, -⟩ := Site.thisDepth_some_eq_ok.mp hd
        exact Option.isSome_of_eq_some hdecl
    · rintro _ ⟨⟩
      exact ⟨_, Site.means_this_iff.mpr hd⟩
  | staticField he hf hs =>
    rcases Expr.of_implicitField? he with rfl | ⟨v, rfl⟩ <;>
    · refine .of_use nofun nofun (Option.isSome_of_eq_some hf) ?_
      simp [Expr.instanceUse?, hf, hs]
  | instanceField he hf hs hd =>
    rcases Expr.of_implicitField? he with rfl | ⟨v, rfl⟩ <;>
    · refine .of_use nofun nofun (Option.isSome_of_eq_some hf) ?_
      simp only [Expr.instanceUse?, hf, hs, Option.any_some, Bool.not_false, if_true]
      rintro _ ⟨⟩
      exact ⟨_, Site.means_member_iff.mpr hd⟩
  | staticCall hm hs =>
    refine .of_use nofun nofun (Option.isSome_of_eq_some hm) ?_
    simp [Expr.instanceUse?, hm, hs]
  | instanceCall hm hs hd =>
    refine .of_use nofun nofun (Option.isSome_of_eq_some hm) ?_
    simp only [Expr.instanceUse?, hm, hs, Option.any_some, Bool.not_false, if_true]
    rintro _ ⟨⟩
    exact ⟨_, Site.means_member_iff.mpr hd⟩
  | create hd =>
    obtain ⟨⟨d, hdecl⟩, hcarrier⟩ := Site.creationDepth_eq_ok.mp hd
    refine .of_use nofun nofun (Option.isSome_of_eq_some hdecl) ?_
    rcases hcarrier with ⟨hnone, -⟩ | ⟨outer, depth, hsome, hdepth, -⟩
    · simp [Expr.instanceUse?, hnone]
    · simp only [Expr.instanceUse?, hsome, Option.map_some]
      rintro _ ⟨⟩
      exact ⟨_, Site.means_member_iff.mpr hdepth⟩
  | inert hi =>
    obtain ⟨hread, hassign, hknown, hnone⟩ := Expr.of_isInert s.unit hi
    exact .of_use hread hassign hknown (by simp [hnone])

/-- What can be had is resolved, unless it is a site. -/
theorem Expr.Capturable.exists_needs (hsite : e.isSite = false) (h : e.Capturable s declared) :
    ∃ bs, e.needs s declared = .ok bs := by
  have hfield : ∀ f, (s.unit.field? f).isSome →
      ((s.unit.field? f).any (!·.isStatic) = true → ∃ depth, s.Means (.member f.owner) depth) →
      ∃ bs, (do
        if (← s.field f).isStatic then return []
        let depth ← s.memberDepth f.owner
        return [s.instanceAt depth, .outerField depth f] : Except Cause (List Binding)) =
          .ok bs := by
    intro f hknown hmeans
    obtain ⟨fld, hf⟩ := Option.isSome_iff_exists.mp hknown
    rw [Site.field, hf]
    dsimp only
    rw [ok_bind]
    cases hs : fld.isStatic with
    | true => exact ⟨_, rfl⟩
    | false =>
      obtain ⟨depth, hdepth⟩ := hmeans (by simp [hf, hs])
      rw [Site.means_member_iff.mp hdepth]
      exact ⟨_, rfl⟩
  have hmember : ∀ {b : Bool} {owner : ClassId},
      (∀ use, (if b then some (InstanceUse.member owner) else none) = some use →
        ∃ depth, s.Means use depth) →
      b = true → ∃ depth, s.Means (.member owner) depth := by
    rintro _ owner hmeans rfl
    exact hmeans _ rfl
  cases e
  case localGet id =>
    rw [Expr.needs]
    split
    · exact ⟨_, rfl⟩
    · rename_i hfree
      obtain ⟨p, hp, hfinal⟩ := h.read id rfl fun hid => hfree (List.contains_iff_mem.mpr hid)
      rw [hp]
      dsimp only
      rw [if_pos hfinal]
      exact ⟨_, rfl⟩
  case localSet id v =>
    rw [Expr.needs, if_pos (List.contains_iff_mem.mpr (h.assign id v rfl))]
    exact ⟨_, rfl⟩
  case this q =>
    obtain ⟨depth, hdepth⟩ := h.means _ rfl
    rw [Expr.needs, Site.means_this_iff.mp hdepth]
    exact ⟨_, rfl⟩
  case fieldGet r f =>
    cases r with
    | none => exact hfield f h.known (hmember h.means)
    | some r => exact ⟨_, rfl⟩
  case fieldSet r f v =>
    cases r with
    | none => exact hfield f h.known (hmember h.means)
    | some r => exact ⟨_, rfl⟩
  case call r m args =>
    cases r with
    | implicit =>
      obtain ⟨decl, hm⟩ := Option.isSome_iff_exists.mp h.known
      rw [Expr.needs, Site.method, hm]
      dsimp only
      rw [ok_bind]
      cases hs : decl.isStatic with
      | true => exact ⟨_, rfl⟩
      | false =>
        obtain ⟨depth, hdepth⟩ := hmember h.means (by simp [hm, hs])
        rw [Site.means_member_iff.mp hdepth]
        exact ⟨_, rfl⟩
    | super q =>
      obtain ⟨depth, hdepth⟩ := h.means _ rfl
      rw [Expr.needs, Site.means_this_iff.mp hdepth]
      exact ⟨_, rfl⟩
    | static | expr _ | nonVirtual _ => exact ⟨_, rfl⟩
  case new t ctor o args =>
    cases o with
    | some o => exact ⟨_, rfl⟩
    | none =>
      have hdecl := Option.isSome_iff_exists.mp h.known
      rw [Expr.needs]
      cases hc : s.unit.carrier? t.id with
      | none =>
        rw [Site.creationDepth_eq_ok.mpr ⟨hdecl, .inl ⟨hc, rfl⟩⟩]
        exact ⟨_, rfl⟩
      | some outer =>
        obtain ⟨depth, hdepth⟩ := h.means (.member outer) (by rw [Expr.instanceUse?, hc]; rfl)
        rw [Site.creationDepth_eq_ok.mpr
          ⟨hdecl, .inr ⟨outer, depth, hc, Site.means_member_iff.mp hdepth, rfl⟩⟩]
        exact ⟨_, rfl⟩
  case lambda | methodRef => cases hsite
  all_goals exact ⟨_, rfl⟩

/-- An instance that is used is the only thing taken. -/
theorem Expr.takes_of_use {use : InstanceUse} {depth : Nat} {x : Slot}
    (huse : e.instanceUse? s.unit = some use) (hmeans : s.Means use depth) :
    e.Takes s declared x ↔ x = .instance_ depth (s.instanceType depth) := by
  constructor
  · intro h
    cases h with
    | local_ => cases huse
    | instance_ huse' hmeans' htype =>
      cases huse.symm.trans huse'
      cases hmeans.eq hmeans'
      rw [Site.getElem?_chain hmeans.lt] at htype
      rw [Option.some.inj htype]
  · rintro rfl
    exact .instance_ huse hmeans (Site.getElem?_chain hmeans.lt)

/-- An expression that uses no instance and reads no local takes nothing. -/
theorem Expr.not_takes {x : Slot} (huse : e.instanceUse? s.unit = none)
    (hread : ∀ id, e = .localGet id → id ∈ declared) : ¬e.Takes s declared x := by
  intro h
  cases h with
  | local_ hfree => exact hfree (hread _ rfl)
  | instance_ huse' =>
    rw [huse] at huse'
    cases huse'

/-- **What is needed has a slot for what is taken**, and for nothing else. -/
theorem Expr.Resolved.slots {bs : List Binding} (h : e.Resolved s declared bs) :
    ∃ taken : Option Slot, bs.filterMap Binding.slot? = taken.toList ∧
      ∀ x, taken = some x ↔ e.Takes s declared x := by
  have hinstance : ∀ {use : InstanceUse} {depth : Nat}, e.instanceUse? s.unit = some use →
    s.Means use depth →
      ∀ x, some (Slot.instance_ depth (s.instanceType depth)) = some x ↔ e.Takes s declared x := by
    intro use depth huse hmeans x
    rw [Expr.takes_of_use huse hmeans, Option.some.injEq, eq_comm]
  have hnothing : e.instanceUse? s.unit = none → (∀ id, e = .localGet id → id ∈ declared) →
      ∀ x, (none : Option Slot) = some x ↔ e.Takes s declared x := fun huse hread x =>
    ⟨nofun, fun ht => absurd ht (Expr.not_takes huse hread)⟩
  cases h with
  | own hid => exact ⟨none, rfl, hnothing rfl (by rintro _ ⟨⟩; exact hid)⟩
  | @captured id name ty hfree hp =>
    refine ⟨some (.localValue id name ty), rfl, fun x => ⟨?_, fun ht => ?_⟩⟩
    · rintro ⟨⟩
      exact .local_ hfree hp
    · cases ht with
      | local_ hfree' hp' =>
        cases hp.symm.trans hp'
        rfl
      | instance_ huse => cases huse
  | assigned => exact ⟨none, rfl, hnothing rfl nofun⟩
  | this hd => exact ⟨_, rfl, hinstance rfl (Site.means_this_iff.mpr hd)⟩
  | super hd => exact ⟨_, rfl, hinstance rfl (Site.means_this_iff.mpr hd)⟩
  | staticField he hf hs =>
    rcases Expr.of_implicitField? he with rfl | ⟨v, rfl⟩ <;>
    exact ⟨none, rfl, hnothing (by simp [Expr.instanceUse?, hf, hs]) nofun⟩
  | instanceField he hf hs hd =>
    rcases Expr.of_implicitField? he with rfl | ⟨v, rfl⟩ <;>
    exact ⟨_, rfl, hinstance (by simp [Expr.instanceUse?, hf, hs]) (Site.means_member_iff.mpr hd)⟩
  | staticCall hm hs => exact ⟨none, rfl, hnothing (by simp [Expr.instanceUse?, hm, hs]) nofun⟩
  | instanceCall hm hs hd =>
    exact ⟨_, rfl, hinstance (by simp [Expr.instanceUse?, hm, hs]) (Site.means_member_iff.mpr hd)⟩
  | create hd =>
    rcases (Site.creationDepth_eq_ok.mp hd).2 with ⟨hnone, rfl⟩ | ⟨outer, depth, hsome, hdepth, rfl⟩
    · exact ⟨none, rfl, hnothing (by simp [Expr.instanceUse?, hnone]) nofun⟩
    · exact ⟨_, rfl, hinstance (by simp [Expr.instanceUse?, hsome])
        (Site.means_member_iff.mpr hdepth)⟩
  | inert hi =>
    obtain ⟨hread, -, -, hnone⟩ := Expr.of_isInert s.unit hi
    exact ⟨none, rfl, hnothing hnone fun id heq => absurd heq (hread id)⟩

end Node

/-! ## Each once, in order -/

theorem eraseDups_concat {α : Type} [BEq α] [LawfulBEq α] (xs : List α) (x : α) :
    (xs ++ [x]).eraseDups = addNew xs.eraseDups x := by
  rw [List.eraseDups_append, addNew, List.removeAll]
  by_cases hx : x ∈ xs
  · rw [if_pos (List.contains_iff_mem.mpr (List.mem_eraseDups.mpr hx))]
    simp [hx]
  · rw [if_neg (by rwa [List.contains_iff_mem, List.mem_eraseDups])]
    simp [hx, List.eraseDups_cons]

/-- Adding bindings one by one keeps each of them, and each of their slots,
where it first comes up. -/
theorem CaptureSet.addAll_empty (bs : List Binding) :
    empty.addAll bs = ⟨bs.eraseDups, (bs.filterMap Binding.slot?).eraseDups⟩ := by
  induction bs using List.reverseRecOn with
  | nil => rfl
  | append_singleton bs b ih =>
    have hadd : empty.addAll (bs ++ [b]) = (empty.addAll bs).add b := by
      rw [addAll, List.foldl_append]
      rfl
    rw [hadd, ih, CaptureSet.add, eraseDups_concat, List.filterMap_append]
    dsimp only
    by_cases hb : b ∈ bs
    · have hmem : bs.eraseDups.contains b = true :=
        List.contains_iff_mem.mpr (List.mem_eraseDups.mpr hb)
      rw [if_pos hmem, addNew, if_pos hmem]
      cases hslot : b.slot? with
      | none => rw [List.filterMap_cons_none hslot, List.filterMap_nil, List.append_nil]
      | some x =>
        have hx : x ∈ (bs.filterMap Binding.slot?).eraseDups :=
          List.mem_eraseDups.mpr (List.mem_filterMap.mpr ⟨b, hb, hslot⟩)
        rw [List.filterMap_cons_some hslot, List.filterMap_nil, eraseDups_concat, addNew,
          if_pos (List.contains_iff_mem.mpr hx)]
    · have hmem : ¬bs.eraseDups.contains b = true := by
        rwa [List.contains_iff_mem, List.mem_eraseDups]
      rw [if_neg hmem, addNew, if_neg hmem]
      cases hslot : b.slot? with
      | none =>
        rw [List.filterMap_cons_none hslot, List.filterMap_nil, List.append_nil]
        rfl
      | some x =>
        rw [List.filterMap_cons_some hslot, List.filterMap_nil, eraseDups_concat]
        rfl

/-! ## Redirecting -/

namespace CaptureSet

variable {s : Site} {c : CaptureSet}

theorem readInstance?_eq {depth i : Nat} {r : Except Cause Nat} (hr : r = .ok depth)
    (hslot : c.instanceSlot? depth = some i) (adapter : ClassId) :
    c.readInstance? adapter r = some (slotRead adapter i) := by
  rw [hr, readInstance?, hslot]
  rfl

/-- **An expression that uses an enclosing instance takes it from its slot.** -/
theorem redirect_of_use {e : Expr} {use : InstanceUse} {depth i : Nat}
    (huse : e.instanceUse? s.unit = some use)
    (hmeans : s.Means use depth) (hslot : c.instanceSlot? depth = some i) (adapter : ClassId) :
    redirect s c adapter e = e.onInstance (slotRead adapter i) := by
  unfold Expr.instanceUse? at huse
  split at huse
  · cases huse
    rw [redirect, readInstance?_eq (Site.means_this_iff.mp hmeans) hslot]
    rfl
  · cases huse
    rw [redirect, readInstance?_eq (Site.means_this_iff.mp hmeans) hslot]
    rfl
  · split at huse
    · rename_i hinstance
      cases huse
      rw [redirect, if_pos hinstance, readInstance?_eq (Site.means_member_iff.mp hmeans) hslot]
      rfl
    · cases huse
  · split at huse
    · rename_i hinstance
      cases huse
      rw [redirect, if_pos hinstance, readInstance?_eq (Site.means_member_iff.mp hmeans) hslot]
      rfl
    · cases huse
  · split at huse
    · rename_i hinstance
      cases huse
      rw [redirect, if_pos hinstance, readInstance?_eq (Site.means_member_iff.mp hmeans) hslot]
      rfl
    · cases huse
  · rename_i t ctor args
    obtain ⟨outer, hcarrier, rfl⟩ := Option.map_eq_some_iff.mp huse
    have hdecl : ∃ d, s.unit.decl? t.id = some d := by
      obtain ⟨d, hd, -⟩ := Option.bind_eq_some_iff.mp hcarrier
      exact ⟨d, hd⟩
    have hdepth := Site.creationDepth_eq_ok.mpr
      ⟨hdecl, .inr ⟨outer, depth, hcarrier, Site.means_member_iff.mp hmeans, rfl⟩⟩
    rw [redirect, hdepth]
    dsimp only
    rw [readInstance?_eq rfl hslot]
    rfl
  · cases huse

end CaptureSet

/-! ## The whole body -/

/-- The locals of a lambda: its parameters and what its body declares. -/
def ownLocals (params : List Param) (body : LambdaBody) : List LocalId :=
  params.map (·.id) ++ declaredIn body.nodes

/-- What a node takes from outside. -/
def Node.Takes (s : Site) (declared : List LocalId) : Node → Slot → Prop
  | .expr e, x => e.Takes s declared x
  | .stmt _, _ => False

/-- The id of the local that a slot holds. -/
def Slot.localId? : Slot → Option LocalId
  | .localValue id _ _ => some id
  | _ => none

/-- The depth of the enclosing instance that a slot holds. -/
def Slot.depth? : Slot → Option Nat
  | .instance_ depth _ => some depth
  | _ => none

/-- Everything that a lambda uses from outside can be had. -/
structure LambdaBody.Capturable (s : Site) (params : List Param) (body : LambdaBody) : Prop where
  /-- Locals from outside that are read can be seen and are effectively
  final. -/
  read : ∀ id, .expr (.localGet id) ∈ body.nodes → id ∉ ownLocals params body →
    ∃ p, s.scope.lookup? id = some p ∧ p.effectivelyFinal = true
  /-- No local from outside is assigned to. -/
  assign : ∀ id v, .expr (.localSet id v) ∈ body.nodes → id ∈ ownLocals params body
  known : ∀ e, .expr e ∈ body.nodes → e.NamesKnown s.unit
  /-- Every enclosing instance that is used is there. -/
  means : ∀ e use, .expr e ∈ body.nodes → e.instanceUse? s.unit = some use →
    ∃ depth, s.Means use depth

/-- A capture set that holds exactly what a lambda takes from outside. -/
structure CaptureSet.Exact (s : Site) (params : List Param) (body : LambdaBody) (c : CaptureSet) :
    Prop where
  /-- The locals are those that are read and not the lambda's own. -/
  locals : ∀ id name ty, .localValue id name ty ∈ c.slots ↔
    .expr (.localGet id) ∈ body.nodes ∧ id ∉ ownLocals params body ∧
      ∃ p, s.scope.lookup? id = some p ∧ p.name = name ∧ p.ty = ty
  /-- The instances are those that are used. -/
  instances : ∀ depth type, .instance_ depth type ∈ c.slots ↔
    s.chain[depth]? = some type ∧
      ∃ e use, .expr e ∈ body.nodes ∧ e.instanceUse? s.unit = some use ∧ s.Means use depth
  receivers : ∀ ty, .receiver ty ∉ c.slots
  /-- They stand in the order in which the walk first meets them. -/
  order : ∃ taken : Node → Option Slot,
    (∀ n ∈ body.nodes, ∀ x, taken n = some x ↔ n.Takes s (ownLocals params body) x) ∧
      c.slots = (body.nodes.filterMap taken).eraseDups
  nodup_locals : (c.slots.filterMap Slot.localId?).Nodup
  nodup_depths : (c.slots.filterMap Slot.depth?).Nodup
  slots_eq_nil : c.slots = [] ↔ c.bindings = []
  /-- The body finds the slot of a local that it reads. -/
  findsLocal : ∀ id, .expr (.localGet id) ∈ body.nodes → id ∉ ownLocals params body →
    ∃ (i : Nat) (name : String) (ty : Ty), c.slots[i]? = some (.localValue id name ty) ∧
      ∀ adapter, redirect s c adapter (.localGet id) = slotRead adapter i
  /-- It finds the slot of an instance that it uses, in whatever expression that
  is. -/
  findsInstance : ∀ e use depth, .expr e ∈ body.nodes → e.instanceUse? s.unit = some use →
    s.Means use depth → ∃ (i : Nat) (type : ClassId), c.slots[i]? = some (.instance_ depth type) ∧
      ∀ adapter e', e'.instanceUse? s.unit = some use →
        redirect s c adapter e' = e'.onInstance (slotRead adapter i)

section Body

variable {s : Site} {params : List Param} {body : LambdaBody} {c : CaptureSet}

/-- The analysis succeeds exactly if every node has its needs. -/
theorem CaptureSet.ofLambda_ok_iff :
    (∃ c, ofLambda s params body = .ok c) ↔
      ∀ n ∈ body.nodes, ∃ bs, n.needs s (ownLocals params body) = .ok bs := by
  constructor
  · rintro ⟨c, h⟩ n hn
    obtain ⟨bs, hneeds, -⟩ := (mem_bindings_ofLambda h).1 n hn
    exact ⟨bs, hneeds⟩
  · intro h
    obtain ⟨needs, hneeds⟩ := exists_mapM_ok h
    exact ⟨_, by rw [ofLambda_eq]; exact congrArg (Except.map _) hneeds⟩

theorem capturable_iff (hbody : ∀ n ∈ body.nodes, n.isSite = false) :
    (∀ n ∈ body.nodes, ∃ bs, n.needs s (ownLocals params body) = .ok bs) ↔
      body.Capturable s params := by
  constructor
  · intro h
    have hnode : ∀ e, .expr e ∈ body.nodes → e.Capturable s (ownLocals params body) := by
      intro e he
      obtain ⟨bs, hneeds⟩ := h _ he
      exact (e.resolved_of_needs hneeds).capturable
    exact ⟨fun id hid => (hnode _ hid).read id rfl, fun id v hid => (hnode _ hid).assign id v rfl,
      fun e he => (hnode e he).known, fun e use he => (hnode e he).means use⟩
  · intro h n hn
    cases n with
    | stmt st => exact ⟨[], rfl⟩
    | expr e =>
      refine Expr.Capturable.exists_needs (hbody _ hn) ⟨?_, ?_, h.known e hn, fun use =>
        h.means e use hn⟩
      · rintro id rfl
        exact h.read id hn
      · rintro id v rfl
        exact h.assign id v hn

/-- What each node takes. -/
theorem Node.slots_of_needs {n : Node} {declared : List LocalId} {bs : List Binding}
    (h : n.needs s declared = .ok bs) :
    ∃ taken : Option Slot, bs.filterMap Binding.slot? = taken.toList ∧
      ∀ x, taken = some x ↔ n.Takes s declared x := by
  cases n with
  | stmt st =>
    cases h
    exact ⟨none, rfl, fun x => ⟨nofun, nofun⟩⟩
  | expr e => exact (e.resolved_of_needs h).slots

/-- The slots are what the nodes take, each once, in order. -/
theorem CaptureSet.exists_taken (h : ofLambda s params body = .ok c) :
    ∃ taken : Node → Option Slot,
      (∀ n ∈ body.nodes, ∀ x, taken n = some x ↔ n.Takes s (ownLocals params body) x) ∧
        c.slots = (body.nodes.filterMap taken).eraseDups := by
  rw [ofLambda_eq] at h
  cases hneeds : body.nodes.mapM (Node.needs s (params.map (·.id) ++ declaredIn body.nodes)) with
  | error e => rw [hneeds] at h; cases h
  | ok needs =>
    rw [hneeds] at h
    cases h
    have hnodes := forall₂_of_mapM_ok hneeds
    let slots (n : Node) : List Slot :=
      ((n.needs s (ownLocals params body)).toOption.getD []).filterMap Binding.slot?
    have hslots : needs.map (List.filterMap Binding.slot?) = body.nodes.map slots := by
      refine map_eq_of_forall₂ (hnodes.imp fun n bs hbs => ?_)
      dsimp only [slots]
      rw [ownLocals, hbs]
      rfl
    have htaken : ∀ n ∈ body.nodes, slots n = ((slots n).head?).toList ∧
        ∀ x, (slots n).head? = some x ↔ n.Takes s (ownLocals params body) x := by
      intro n hn
      obtain ⟨bs, -, hbs⟩ := (exists_of_mapM_ok hneeds).1 n hn
      obtain ⟨taken, heq, htakes⟩ := Node.slots_of_needs hbs
      have hsn : slots n = taken.toList := by
        dsimp only [slots]
        rw [ownLocals, hbs]
        exact heq
      rw [hsn]
      cases taken with
      | none => exact ⟨rfl, htakes⟩
      | some x => exact ⟨rfl, htakes⟩
    refine ⟨fun n => (slots n).head?, fun n hn => (htaken n hn).2, ?_⟩
    dsimp only
    rw [CaptureSet.addAll_empty]
    dsimp only
    rw [List.filterMap_flatten, hslots, ← List.flatMap_def, List.filterMap_eq_flatMap_toList]
    exact congrArg List.eraseDups (List.flatMap_congr fun n hn => (htaken n hn).1)

/-- A slot is there exactly if some node takes it. -/
theorem CaptureSet.mem_slots_iff (h : ofLambda s params body = .ok c) {x : Slot} :
    x ∈ c.slots ↔ ∃ n ∈ body.nodes, n.Takes s (ownLocals params body) x := by
  obtain ⟨taken, htaken, hslots⟩ := exists_taken h
  rw [hslots, List.mem_eraseDups, List.mem_filterMap]
  exact exists_congr fun n => and_congr_right fun hn => htaken n hn x

theorem localValue_taken_iff {declared : List LocalId} {id : LocalId} {name : String} {ty : Ty} :
    (∃ n ∈ body.nodes, n.Takes s declared (.localValue id name ty)) ↔
      .expr (.localGet id) ∈ body.nodes ∧ id ∉ declared ∧
        ∃ p, s.scope.lookup? id = some p ∧ p.name = name ∧ p.ty = ty := by
  constructor
  · rintro ⟨_ | e, hn, htakes⟩
    · cases htakes
    · cases htakes with
      | local_ hfree hp => exact ⟨hn, hfree, _, hp, rfl, rfl⟩
  · rintro ⟨hn, hfree, p, hp, rfl, rfl⟩
    exact ⟨_, hn, .local_ hfree hp⟩

theorem instance_taken_iff {declared : List LocalId} {depth : Nat} {type : ClassId} :
    (∃ n ∈ body.nodes, n.Takes s declared (.instance_ depth type)) ↔
      s.chain[depth]? = some type ∧
        ∃ e use, .expr e ∈ body.nodes ∧ e.instanceUse? s.unit = some use ∧ s.Means use depth := by
  constructor
  · rintro ⟨_ | e, hn, htakes⟩
    · cases htakes
    · cases htakes with
      | instance_ huse hmeans htype => exact ⟨htype, e, _, hn, huse, hmeans⟩
  · rintro ⟨htype, e, use, hn, huse, hmeans⟩
    exact ⟨_, hn, .instance_ huse hmeans htype⟩

/-- What tells the slots apart tells apart what is read off them. -/
theorem nodup_filterMap {α β : Type} {f : α → Option β} {xs : List α} (hxs : xs.Nodup)
    (hinj : ∀ a ∈ xs, ∀ b ∈ xs, ∀ y, f a = some y → f b = some y → a = b) :
      (xs.filterMap f).Nodup := by
  rw [List.Nodup, List.pairwise_filterMap]
  refine List.Pairwise.imp_of_mem ?_ hxs
  rintro a b ha hb hne y hy _ hy' rfl
  exact hne (hinj a ha b hb y hy hy')

/-- **The slots of a successful analysis are exact.** -/
theorem CaptureSet.exact_ofLambda (h : ofLambda s params body = .ok c) : c.Exact s params body := by
  have hlocals := fun id name ty =>
    (mem_slots_iff (x := .localValue id name ty) h).trans localValue_taken_iff
  have hinstances := fun depth type =>
    (mem_slots_iff (x := .instance_ depth type) h).trans instance_taken_iff
  obtain ⟨taken, htaken, hslots⟩ := exists_taken h
  have hnodup : c.slots.Nodup := hslots ▸ Lowering.nodup_eraseDups _
  refine ⟨hlocals, hinstances, fun ty hty => ?_, ⟨taken, htaken, hslots⟩, ?_, ?_, ?_, ?_, ?_⟩
  · obtain ⟨_ | e, -, htakes⟩ := (mem_slots_iff h).mp hty <;> cases htakes
  · refine nodup_filterMap hnodup fun a ha b hb id hid hid' => ?_
    -- the scope gives an id one name and type
    cases a <;> cases hid
    cases b <;> cases hid'
    obtain ⟨-, -, p, hp, rfl, rfl⟩ := (hlocals ..).mp ha
    obtain ⟨-, -, p', hp', rfl, rfl⟩ := (hlocals ..).mp hb
    cases hp.symm.trans hp'
    rfl
  · refine nodup_filterMap hnodup fun a ha b hb depth hdepth hdepth' => ?_
    cases a <;> cases hdepth
    cases b <;> cases hdepth'
    cases ((hinstances ..).mp ha).1.symm.trans ((hinstances ..).mp hb).1
    rfl
  · have hempty := isEmpty_ofLambda h
    rw [isEmpty, Bool.eq_iff_iff, List.isEmpty_iff, List.isEmpty_iff] at hempty
    exact hempty.symm
  · intro id hn hfree
    rcases (served_ofLambda h _ hn).localGet with hown | ⟨name, ty, hmem⟩
    · exact absurd hown hfree
    · cases hslot : c.localSlot? id with
      | none => exact absurd hmem (localSlot?_eq_none hslot name ty)
      | some i =>
        obtain ⟨name', ty', hget⟩ := slot_of_localSlot? hslot
        exact ⟨i, name', ty', hget, fun adapter => by rw [redirect, hslot]⟩
  · intro e use depth hn huse hmeans
    have hmem := (hinstances depth _).mpr ⟨Site.getElem?_chain hmeans.lt, e, use, hn, huse, hmeans⟩
    obtain ⟨i, hslot⟩ := instanceSlot?_of_mem hmem
    obtain ⟨type, hget⟩ := slot_of_instanceSlot? hslot
    exact ⟨i, type, hget, fun adapter e' huse' => redirect_of_use huse' hmeans hslot adapter⟩

end Body

/-- **Capture analysis is exact.** For a body without inner sites it succeeds
exactly if everything that is used from outside can be had, and then it finds
exactly that. -/
theorem captures_exact (s : Site) (params : List Param) (body : LambdaBody)
    (hbody : ∀ n ∈ body.nodes, n.isSite = false) :
    ((∃ c, CaptureSet.ofLambda s params body = .ok c) ↔ body.Capturable s params) ∧
      ∀ c, CaptureSet.ofLambda s params body = .ok c → c.Exact s params body :=
  ⟨CaptureSet.ofLambda_ok_iff.trans (capturable_iff hbody), fun _ => CaptureSet.exact_ofLambda⟩

namespace Posting

/-- A class with a field, and an inner class. -/
def unit : CompilationUnit where
  name := "posting"
  sourcePath := none
  types := [
    { TypeDecl.empty 0 "Account" .topLevel with
      fields := [⟨"total", .int, false, false, none⟩] },
    { TypeDecl.empty 1 "Entry" .member with
      outer := some 0 }]

/-- A site in the inner class that sees two locals. -/
def site : Site := ⟨unit, 1, [1, 0], [⟨5, "amount", .int, true⟩, ⟨6, "rate", .int, true⟩]⟩

/-- A body with a local of its own. It uses an outer local twice, a field of the
outer class and its own instance. -/
def body : LambdaBody := .block [
  .declare ⟨7, "sum", .int, false⟩ (some (.localGet 5)),
  .expr (.fieldSet none ⟨0, 0⟩ (.localSet 7 (.binary .add (.localGet 7) (.localGet 5)))),
  .expr (.new (.raw 1) none none []),
  .ret (some (.this none))]

theorem not_isSite : ∀ n ∈ body.nodes, n.isSite = false := by decide +kernel

end Posting

/-- The body captures the local, the outer instance and the innermost one, in
this order. -/
theorem captures_exact_posting :
    (∀ n ∈ Posting.body.nodes, n.isSite = false) ∧
      ∃ c, CaptureSet.ofLambda Posting.site [] Posting.body = .ok c ∧
        c.slots = [.localValue 5 "amount" .int, .instance_ 1 0, .instance_ 0 1] ∧
        Posting.body.Capturable Posting.site [] ∧ c.Exact Posting.site [] Posting.body := by
  have hexact := captures_exact Posting.site [] Posting.body Posting.not_isSite
  have hrun : (CaptureSet.ofLambda Posting.site [] Posting.body).map (·.slots) =
      .ok [.localValue 5 "amount" .int, .instance_ 1 0, .instance_ 0 1] := by decide +kernel
  obtain ⟨c, hc, hslots⟩ := map_eq_ok.mp hrun
  exact ⟨Posting.not_isSite, c, hc, hslots.symm, hexact.1.mp ⟨c, hc⟩, hexact.2 c hc⟩

end Closures
