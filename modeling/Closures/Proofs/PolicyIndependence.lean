import Closures.Proofs.ClosureIdentity
import Closures.Proofs.PairedScripts
import Closures.Proofs.PolicyLowering

/-!
# The policy of shared instances

A shared instance can be made when the program starts or when it is first asked
for. Both policies lower a unit to the same code, so the runs of the two units
differ in nothing but when shared instances are made: at the start one run has
some that the other one lacks. They are blank, and no value refers to them. From
then on the runs go along with each other (`Session.transcript_paired`).

What is left is the start: the stores in which the static initializers begin are
paired by their shared instances.
-/

set_option autoImplicit false

namespace Closures

/-! ## The stores at the start -/

/-- A store in which nothing has happened yet but that shared instances were
made. -/
structure Store.Untouched (u : CompilationUnit) (s : Store) : Prop where
  blank : ∀ (r : Ref) (o : Obj), s.heap[r]? = some o → o.IsBlank u
  shares : s.Shares
  printed : s.printed = []
  depth : s.depth = 0

/-- The shared instances of two stores, paired by their adapters. -/
def Store.sharedPairs (s t : Store) : Pairing := fun x y =>
  ∃ a, s.singletons.get? a = some (.ref x) ∧ t.singletons.get? a = some (.ref y)

namespace Store.Untouched

variable {u : CompilationUnit} {s t : Store}

theorem share (hs : s.Untouched u) (a : ClassId) :
    (s.withShared u a).Untouched u :=
  { hs with
    shares := hs.shares.share a
    blank := by
      intro r o ho
      change (s.heap.push _)[r]? = some o at ho
      rw [Array.getElem?_push] at ho
      split at ho
      · cases ho
        exact ⟨a, s.serial + 1, rfl⟩
      · exact hs.blank r o ho }

/-- The shared instance of an adapter is a blank instance of it. -/
theorem shared (hs : s.Untouched u) {a : ClassId} {v : Value} (ha : s.singletons.get? a = some v) :
    ∃ r serial, v = .ref r ∧ s.heap[r]? = some (.inst a serial (blankInstance u a) none) := by
  obtain ⟨r, serial, fields, outer, rfl, ho⟩ := hs.shares a v ha
  obtain ⟨a', serial', heq⟩ := hs.blank r _ ho
  cases heq
  exact ⟨r, serial, rfl, ho⟩

theorem inward (hs : s.Untouched u) : Heap.Inward s.heap := by
  intro r o ho p hp
  obtain ⟨a, serial, rfl⟩ := hs.blank r o ho
  cases hp

/-- **Two untouched stores are paired by their shared instances** if the second
one has all that the first one has. -/
theorem paired (hs : s.Untouched u) (ht : t.Untouched u) (hstatics : t.statics = s.statics)
    (hplain : ∀ x ∈ s.statics, x.2.ref? = none)
    (hmore : ∀ a, (s.singletons.get? a).isSome → (t.singletons.get? a).isSome) :
    s.Paired u (s.sharedPairs t) t where
  heap := {
    inj := by
      rintro x y x' y' ⟨a, hx, hy⟩ ⟨a', hx', hy'⟩
      constructor
      · rintro rfl
        cases hs.shares.inj hx hx'
        rw [hy] at hy'
        cases hy'
        rfl
      · rintro rfl
        cases ht.shares.inj hy hy'
        rw [hx] at hx'
        cases hx'
        rfl
    obj := by
      rintro x y ⟨a, hx, hy⟩
      obtain ⟨_, serial, heq, ho⟩ := hs.shared hx
      obtain ⟨_, serial', heq', ho'⟩ := ht.shared hy
      cases heq
      cases heq'
      exact ⟨_, _, ho, ho', .blank u a serial serial' .none⟩
    inward := hs.inward
    inward' := ht.inward }
  spare r o ho := .inr (hs.blank r o ho)
  spare' r o ho := .inr (ht.blank r o ho)
  statics := by
    rw [hstatics]
    exact .refl hplain
  shared a v ha := by
    obtain ⟨w, hw⟩ := Option.isSome_iff_exists.mp (hmore a (by rw [ha]; rfl))
    obtain ⟨r, _, rfl, -⟩ := hs.shared ha
    obtain ⟨r', _, rfl, -⟩ := ht.shared hw
    exact ⟨.ref r', hw, .ref ⟨a, ha, hw⟩⟩
  ready a w ha hw := by
    obtain ⟨r, serial, rfl, ho⟩ := ht.shared hw
    refine ⟨r, serial, rfl, ?_, ho⟩
    -- the instance of one adapter is not that of another
    rintro x ⟨a', hx, hr⟩
    cases ht.shares.inj hw hr
    rw [ha] at hx
    cases hx
  printed := ht.printed.trans hs.printed.symm
  depth := ht.depth.trans hs.depth.symm

end Store.Untouched

namespace Session

theorem untouched_prepared (u : CompilationUnit) : (prepared u Store.empty).Untouched u := by
  have hempty : Store.empty.Untouched u :=
    ⟨fun _ _ h => (nomatch h), fun _ _ h => (nomatch h), rfl, rfl⟩
  have hcreated := createEager_keeps (u := u) (fun _ a hs => hs.share a) u.types hempty
  exact { hcreated with }

/-- Where more shared instances are due, more adapters have one. -/
theorem isSome_createEager {u u' : CompilationUnit} {ds ds' : List TypeDecl}
    (hds : List.Forall₂ (fun d d' => d'.id = d.id ∧ (isEager d = true → isEager d' = true)) ds ds')
    {s t : Store} (hst : ∀ a, (s.singletons.get? a).isSome → (t.singletons.get? a).isSome) :
    ∀ a, ((createEager u ds s).2.singletons.get? a).isSome →
      ((createEager u' ds' t).2.singletons.get? a).isSome := by
  induction hds generalizing s t with
  | nil => exact hst
  | @cons d d' _ _ hd _ ih =>
    obtain ⟨hid, heager⟩ := hd
    rw [createEager, createEager]
    cases hleft : isEager d <;> cases hright : isEager d'
    · exact ih hst
    · exact ih fun a ha => Table.isSome_get?_put (hst a ha)
    · rw [heager hleft] at hright
      cases hright
    · refine ih fun a ha => ?_
      rw [hid]
      by_cases had : a = d.id
      · rw [had, Table.get?_put_self]
        rfl
      · rw [Table.get?_put_ne had] at ha
        exact Table.isSome_get?_put (hst a ha)

theorem prepared_paired {u u' : CompilationUnit} (hu : u.SameCode u')
    (htypes : List.Forall₂ (fun d d' => d'.id = d.id ∧ (isEager d = true → isEager d' = true))
      u.types u'.types) :
    ∃ ρ, (prepared u Store.empty).Paired u ρ (prepared u' Store.empty) := by
  have hblank : ∀ o : Obj, o.IsBlank u' → o.IsBlank u := by
    rintro o ⟨a, serial, rfl⟩
    exact ⟨a, serial, by rw [hu.blankInstance]⟩
  have ht := untouched_prepared u'
  have ht' : (prepared u' Store.empty).Untouched u :=
    { ht with blank := fun r o ho => hblank o (ht.blank r o ho) }
  refine ⟨_, (untouched_prepared u).paired ht' (hu.eq _ CompilationUnit.blankStatics_bare) ?_
    (isSome_createEager htypes fun _ h => h)⟩
  rintro ⟨f, v⟩ hx
  obtain ⟨d, -, x, -, -, -, rfl⟩ := mem_blankStatics.mp hx
  exact Value.ref?_defaultFor _

end Session

/-! ## The two policies -/

/-- **The policy of shared instances cannot be observed.** Lowering a unit under
the two policies fails with the same error or gives the same summary. Any script
that shows no serial then has paired transcripts in the two units: the sessions
start alike, and each step halts alike or answers alike and prints the same
lines. References are paired one to one over the whole script. Paired objects
are instances of one class with paired fields and paired enclosing instances,
boxes of one kind, or arrays of one type, with paired contents. -/
theorem shared_policy_unobservable (u : CompilationUnit) :
    Outcome Eq
      (fun r r' => r'.2 = r.2 ∧ ∀ budget script, Session.ShowsNoSerial r.1 budget script →
        (Session.transcript r.1 (callsWithin r.1 budget) script).Paired r.1
          (Session.transcript r'.1 (callsWithin r'.1 budget) script))
      (u.lower .onDemand) (u.lower .atStart) := by
  have hpolicy := lower_policy u .onDemand .atStart
  cases h : u.lower .onDemand with
  | error e =>
    rw [h] at hpolicy
    rw [hpolicy]
    exact .error rfl
  | ok r =>
    rw [h] at hpolicy
    have hsame := lower_sameCode h hpolicy
    rw [hpolicy]
    obtain ⟨ρ, hstart⟩ := Session.prepared_paired hsame.1 hsame.2
    exact .ok ⟨rfl, fun budget script => Session.transcript_paired hsame.1 budget script hstart⟩

namespace Pulse

open Session

/-- Two closures that capture nothing, and a method that prints a number. -/
def unit : CompilationUnit where
  name := "pulse"
  sourcePath := none
  types := [
    { TypeDecl.empty 0 "Step" .topLevel with
      isInterface := true
      methods :=
        [⟨"run", [], [⟨1, "x", .int, true⟩], .int, [], .method, false, true, false, false, none,
        .dummy⟩] },
    { TypeDecl.empty 1 "Pulse" .topLevel with
      methods := [
        ⟨"keep", [], [], .raw 0, [], .method, true, false, false, false,
          some [.ret
            (some (.lambda ⟨[⟨2, "x", .int, true⟩], .expr (.localGet 2), .int, .raw 0, .dummy⟩))],
          .dummy⟩,
        ⟨"next", [], [], .raw 0, [], .method, true, false, false, false,
          some [.ret
            (some (.lambda ⟨[⟨3, "x", .int, true⟩], .expr (.binary .add (.localGet 3) (.int 1)),
            .int, .raw 0, .dummy⟩))],
          .dummy⟩,
        ⟨"show", [], [⟨4, "x", .int, true⟩], .void, [], .method, true, false, false, false,
          some [.expr (.intrinsic .println [.localGet 4])], .dummy⟩] }]

/-- The second closure is made before the first one. In between it is called and
what it gives is printed. -/
def script : List Step := [
  .run "Pulse" "next" [],
  .call (.result 0) "run" [.literal ⟨.int 4, rfl⟩],
  .run "Pulse" "show" [.result 1],
  .run "Pulse" "keep" [],
  .same (.result 0) (.result 3)]

end Pulse

/-- The two policies for a script that asks for the second of two shared
instances before the first. Made at the start, both are there before the static
initializers, in the other order. -/
theorem shared_policy_unobservable_pulse :
    ∃ v v' summary, Pulse.unit.lower .onDemand = .ok (v, summary) ∧
      Pulse.unit.lower .atStart = .ok (v', summary) ∧
      (Session.prepared v Store.empty).heap.size = 0 ∧
        (Session.prepared v' Store.empty).heap.size = 2 ∧
      Session.ShowsNoSerial v 3 Pulse.script ∧
      (Session.transcript v (callsWithin v 3) Pulse.script).Paired v
        (Session.transcript v' (callsWithin v' 3) Pulse.script) := by
  have hpolicies := shared_policy_unobservable Pulse.unit
  have hleft : ((Pulse.unit.lower .onDemand).map fun r =>
      (Session.prepared r.1 Store.empty).heap.size) = .ok 0 := by
    cbv
  have hright : ((Pulse.unit.lower .atStart).map fun r =>
      (Session.prepared r.1 Store.empty).heap.size) = .ok 2 := by
    cbv
  have hshow :
    ((Pulse.unit.lower .onDemand).map fun r =>
    Session.transcript r.1 (cautious r.1 3) Pulse.script) =
      (Pulse.unit.lower .onDemand).map fun r =>
        Session.transcript r.1 (callsWithin r.1 3) Pulse.script := by
    cbv
  obtain ⟨⟨v, summary⟩, h, hsize⟩ := map_eq_ok.mp hleft
  obtain ⟨⟨v', summary'⟩, h', hsize'⟩ := map_eq_ok.mp hright
  rw [h] at hshow hpolicies
  rw [h'] at hpolicies
  obtain ⟨⟨hsummary, hpaired⟩⟩ := hpolicies
  cases hsummary
  have hsilent : Session.ShowsNoSerial v 3 Pulse.script := Except.ok.inj hshow
  exact ⟨v, v', summary, h, h', hsize.symm, hsize'.symm, hsilent,
    hpaired 3 Pulse.script hsilent⟩

end Closures
