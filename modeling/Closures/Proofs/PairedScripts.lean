import Closures.Proofs.PairedEvaluation
import Closures.Proofs.Scripts

/-!
# Scripts played alike

Played with `cautious`, a script is stopped where a text would show the serial
of an instance. It **shows no serial** if it has the same transcript as when it
is played with `callsWithin`.

Two units with the same code have paired transcripts if their sessions start
from paired stores and the script shows no serial (`Session.transcript_paired`).
-/

set_option autoImplicit false

namespace Closures

namespace Session

/-- No text that a script makes shows an instance by its serial. -/
def ShowsNoSerial (u : CompilationUnit) (budget : Nat) (script : List Step) : Prop :=
  transcript u (cautious u budget) script = transcript u (callsWithin u budget) script

/-! ## Paired transcripts -/

/-- Paired values, or the same answer. -/
inductive Reply.Paired (ρ : Pairing) : Reply → Reply → Prop where
  | value {v w : Value} (h : v.Paired ρ w) : Paired ρ (.value v) (.value w)
  | missing : Paired ρ .missing .missing
  | same (b : Bool) : Paired ρ (.same b) (.same b)

/-- Steps that end alike, one after another: both halt or both answer, paired
values or the same, with paired stores. The pairing grows from step to step, so
a reference that comes up twice is paired with the same one. -/
inductive StepsPaired (u : CompilationUnit) :
    Pairing → List (Except Halt Reply × Store) → List (Except Halt Reply × Store) → Prop where
  | nil (ρ : Pairing) : StepsPaired u ρ [] []
  | cons {ρ ρ' : Pairing} {r r' : Except Halt Reply × Store}
    {rest rest' : List (Except Halt Reply × Store)}
    (hρ : ρ ≤ ρ') (hreply : Outcome (Halt.Paired ρ') (Reply.Paired ρ') r.1 r'.1)
    (hstore : r.2.Paired u ρ' r'.2) (hrest : StepsPaired u ρ' rest rest') :
    StepsPaired u ρ (r :: rest) (r' :: rest')

/-- **Paired transcripts**: the sessions start alike, and every step ends
alike. -/
def Transcript.Paired (u : CompilationUnit) (x y : Transcript) : Prop :=
  ∃ ρ, Outcome (Halt.Paired ρ) Eq x.start.1 y.start.1 ∧ x.start.2.Paired u ρ y.start.2 ∧
    StepsPaired u ρ x.steps y.steps

/-! ## Steps are performed alike -/

section Alike

variable {u u' : CompilationUnit} {k k' : Calls} {ρ ρ' : Pairing}
    {results results' : List (Option Value)}

/-- The results so far are paired. -/
abbrev ResultsPaired (ρ : Pairing) : List (Option Value) → List (Option Value) → Prop :=
  List.Forall₂ (Option.Rel (Value.Paired ρ))

theorem ResultsPaired.mono (hρ : ρ ≤ ρ') (h : ResultsPaired ρ results results') :
    ResultsPaired ρ' results results' := by
  refine List.Forall₂.imp (fun a b hab => ?_) h
  cases hab with
  | some hv => exact .some (hv.mono hρ)
  | none => exact .none

theorem ResultsPaired.getD (h : ResultsPaired ρ results results') (i : Nat) :
    ((results.getD i none).getD .null).Paired ρ ((results'.getD i none).getD .null) := by
  induction h generalizing i with
  | nil => exact .plain rfl
  | cons hab _ ih =>
    cases i with
    | zero =>
      cases hab with
      | some hv => exact hv
      | none => exact .plain rfl
    | succ i => exact ih i

mutual

theorem Operand.read_sim (o : Operand) (ρ : Pairing) (hr : ResultsPaired ρ results results') :
    Action.Sim u Value.Paired ρ (o.read results) (o.read results') := by
  cases o <;> rw [Operand.read, Operand.read]
  case literal v => exact .pure (.plain v.2)
  case result step => exact .pure (hr.getD step)
  case box kind content =>
    exact (content.read_sim ρ hr).bind fun _ _ _ _ hv => .newObject (.boxed hv)
  case array t os =>
    exact (Operand.readAll_sim os ρ hr).bind fun _ _ _ _ hvs => .newObject (.array hvs)

theorem Operand.readAll_sim (os : List Operand) (ρ : Pairing)
    (hr : ResultsPaired ρ results results') :
    Action.Sim u (fun ρ => List.Forall₂ (Value.Paired ρ)) ρ (Operand.readAll results os)
      (Operand.readAll results' os) := by
  cases os <;> rw [Operand.readAll, Operand.readAll]
  case nil => exact .pure .nil
  case cons o os =>
    exact (o.read_sim ρ hr).bind fun ρ₁ hρ _ _ hv => (Operand.readAll_sim os ρ₁ (hr.mono hρ)).bind
      fun _ hρ' _ _ hvs => .pure (.cons (hv.mono hρ') hvs)

end

theorem Operand.readObject_sim (o : Option Operand) (hr : ResultsPaired ρ results results') :
    Action.Sim u (fun ρ => Option.Rel ρ) ρ (Operand.readObject results o)
      (Operand.readObject results' o) := by
  cases o with
  | none => exact .pure .none
  | some o =>
    refine (o.read_sim ρ hr).bind fun _ _ v w hv => ?_
    cases hv with
    | ref hab => exact .pure (.some hab)
    | plain hv =>
      rw [hv]
      exact .pure .none

theorem runBy_sim (hu : u.SameCode u') (hk : k.Sim u k') (type method : String) {vs ws : List Value}
    (hvs : List.Forall₂ (Value.Paired ρ) vs ws) :
    Action.Sim u Value.Paired ρ (runBy u k type method vs) (runBy u' k' type method ws) := by
  unfold runBy
  rw [hu.findType?, hu.declaredMethod?]
  cases (u.findType? type).bind fun c => u.declaredMethod? c method with
  | some id => exact hk.invoke id .none hvs
  | none => exact .fault (.same rfl)

theorem callBy_sim (hu : u.SameCode u') (hk : k.Sim u k') {v w : Value} (hv : v.Paired ρ w)
    (name : String) {vs ws : List Value} (hvs : List.Forall₂ (Value.Paired ρ) vs ws) :
    Action.Sim u Value.Paired ρ (callBy u k v name vs) (callBy u' k' w name ws) := by
  unfold callBy
  rw [hu.findByArity?, hu.className, ← hvs.length_eq]
  refine .get_bind fun s t hs => .ofExcept_bind (Heap.Paired.nonNull name hv) fun r r' hr =>
    .ofExcept_bind (hs.heap.instanceType name hr) fun type _ htype => ?_
  subst htype
  cases u.findByArity? type name vs.length with
  | some id => exact hk.invoke id (.some hr) hvs
  | none => exact .fault (.same rfl)

theorem staticField?_paired (hu : u.SameCode u') {s t : Store} (hs : s.Paired u ρ t)
    (type name : String) :
    Option.Rel (Value.Paired ρ) (staticField? u s type name) (staticField? u' t type name) := by
  unfold staticField?
  rw [hu.findType?]
  cases u.findType? type with
  | none => exact .none
  | some c =>
    have hdecl := hu.decl? c
    simp only [Option.bind_eq_bind, Option.bind_some]
    cases hd : u.decl? c <;> cases hd' : u'.decl? c <;> rw [hd, hd'] at hdecl
    · exact .none
    · cases hdecl
    · cases hdecl
    · rename_i d d'
      rw [TypeDecl.eq_of_bare (Option.some.inj hdecl)]
      simp only [Option.bind_some]
      have hfound : ∀ o : Option (FieldId × Field), Option.Rel (Value.Paired ρ)
          (o.bind fun x => s.statics.get? x.1) (o.bind fun x => t.statics.get? x.1) := by
        rintro (_ | x)
        · exact .none
        · exact hs.statics.get? x.1
      exact hfound _

/-- **A step is performed alike.** -/
theorem Step.perform_sim (hu : u.SameCode u') (hk : k.Sim u k')
    (hr : ResultsPaired ρ results results') (step : Step) :
    Action.Sim u Reply.Paired ρ (step.perform u k results) (step.perform u' k' results') := by
  cases step with
  | run type method args =>
    exact (Operand.readAll_sim args ρ hr).bind fun _ _ _ _ hvs =>
      (runBy_sim hu hk type method hvs).bind fun _ _ _ _ hv => .pure (.value hv)
  | call receiver name args =>
    exact (receiver.read_sim ρ hr).bind fun ρ₁ hρ _ _ hv =>
      (Operand.readAll_sim args ρ₁ (hr.mono hρ)).bind
      fun _ hρ' _ _ hvs => (callBy_sim hu hk (hv.mono hρ') name hvs).bind fun _ _ _ _ hw =>
        .pure (.value hw)
  | invoke method this args =>
    exact (Operand.readObject_sim this hr).bind fun ρ₁ hρ _ _ ho =>
      (Operand.readAll_sim args ρ₁ (hr.mono hρ)).bind
      fun _ hρ' _ _ hvs => (hk.invoke method (optionRel_mono hρ' ho) hvs).bind fun _ _ _ _ hw =>
        .pure (.value hw)
  | staticField type name =>
    refine .get_bind fun s t hs => ?_
    have hfield := staticField?_paired hu hs type name
    generalize staticField? u s type name = x, staticField? u' t type name = y at hfield ⊢
    cases hfield with
    | some hv => exact .pure (.value hv)
    | none => exact .pure .missing
  | same left right =>
    refine (left.read_sim ρ hr).bind fun ρ₁ hρ _ _ hv => (right.read_sim ρ₁ (hr.mono hρ)).bind
      fun _ hρ' _ _ hw => .get_bind fun s t hs => ?_
    rw [hs.heap.same_eq (hv.mono hρ') hw]
    exact .pure (.same _)

theorem initStatics_sim (hu : u.SameCode u') (hk : k.Sim u k') {ds ds' : List TypeDecl}
    (hds : List.Forall₂ (fun d d' => d'.bare = d.bare) ds ds') (ρ : Pairing) :
    Action.Sim u (fun _ => Eq) ρ (initStatics u k ds) (initStatics u' k' ds') := by
  induction hds generalizing ρ with
  | nil => exact .pure rfl
  | cons hd _ ih =>
    have hframe : Frame.Paired ρ Frame.empty Frame.empty := ⟨.none, .nil⟩
    have hdecl := initDecl_sim hu hk (ρ := ρ) true (fun _ _ f _ _ hv => .writeStatic f hv) hd
    exact (hdecl.within hframe).bind fun ρ₁ _ _ _ _ => ih ρ₁

/-- **A script is played alike** if it shows no serial. -/
theorem play_paired (hu : u.SameCode u') (budget : Nat) (script : List Step) {s t : Store}
    (hs : s.Paired u ρ t) (hr : ResultsPaired ρ results results')
    (hshow : play clearOutput u (cautious u budget) script results s =
      play clearOutput u (callsWithin u budget) script results s) :
    StepsPaired u ρ (play clearOutput u (callsWithin u budget) script results s)
      (play clearOutput u' (callsWithin u' budget) script results' t) := by
  induction script generalizing ρ results results' s t with
  | nil => exact .nil ρ
  | cons step rest ih =>
    simp only [play, List.cons.injEq] at hshow
    obtain ⟨hhead, htail⟩ := hshow
    have hends := (step.perform_sim hu (cautious_sim hu budget) hr).run s t hs
    rw [hhead] at hends htail
    rcases hends with ⟨-, hmark⟩ | ⟨ρ', hρ, hs', -, hout⟩
    · -- a step that shows no serial is not stopped
      have hdepth := step.depth_perform u budget results s
      simp only [id] at hmark
      omega
    · refine .cons hρ hout hs' (ih (hs'.withPrinted []) ?_ htail)
      refine List.rel_append (hr.mono hρ) (.cons ?_ .nil)
      generalize (step.perform u (callsWithin u budget) results s).1 = x,
        (step.perform u' (callsWithin u' budget) results' t).1 = y at hout ⊢
      cases hout with
      | error => exact .none
      | ok h =>
        cases h with
        | value hv => exact .some hv
        | missing | same => exact .none

/-- **The transcripts of a script are paired** if it shows no serial and the
sessions start from paired stores. -/
theorem transcript_paired (hu : u.SameCode u') (budget : Nat) (script : List Step)
    (hprepared : (prepared u Store.empty).Paired u ρ (prepared u' Store.empty))
    (hshow : ShowsNoSerial u budget script) :
    (transcript u (callsWithin u budget) script).Paired u
      (transcript u' (callsWithin u' budget) script) := by
  have hends := (initStatics_sim hu (cautious_sim hu budget) hu.types ρ).run _ _ hprepared
  have hstart : startBy u (cautious u budget) Store.empty =
    startBy u (callsWithin u budget) Store.empty :=
    congrArg Transcript.start hshow
  have hplay := congrArg Transcript.steps hshow
  have hdepth := depth_start u budget Store.empty
  simp only [transcript, transcriptWith, hstart] at hplay
  rw [← startBy_callsWithin] at hdepth
  rw [← startBy_apply, ← startBy_apply, hstart] at hends
  unfold Transcript.Paired transcript transcriptWith
  generalize startBy u (callsWithin u budget) Store.empty = r,
    startBy u' (callsWithin u' budget) Store.empty = r' at hplay hdepth hends ⊢
  obtain ⟨x, s⟩ := r
  obtain ⟨y, t⟩ := r'
  rcases hends with ⟨-, hmark⟩ | ⟨ρ', -, hs, -, hout⟩
  · -- the start was not stopped, since it leaves no mark
    simp only [id] at hmark hdepth
    omega
  · refine ⟨ρ', hout, hs, ?_⟩
    cases hout with
    | error => exact .nil ρ'
    | ok => exact play_paired hu budget script (hs.withPrinted []) .nil hplay

end Alike

end Session

end Closures
