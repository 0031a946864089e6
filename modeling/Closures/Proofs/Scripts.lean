import Closures.Machine.Session
import Closures.Proofs.EvaluationRecord

/-!
# Scripts

A script drives a session from outside, step by step. What a step hands in are
literals, new boxes and arrays, and values that earlier steps have given. The
**transcript** of a script tells how the session starts and how each step ends,
each with the store at that moment; the lines printed so far are taken away
between the steps. Its **history** is the same with the lines left in place.

Scripts are played with calls of any kind. Played with `callsWithin` they go
through `Session.start`, `Session.run`, `Session.call` and `invoke`.

The **moments** of a script are those of the whole session: the static
initializers, then step after step, in order, with all that happens within the
calls (`Session.moments`). `Session.Recounted` says what they are: each comes
from the one before it by a single change, each step ends where its moments do,
and what happens within a call stands between entering the call and leaving it.
-/

set_option autoImplicit false

namespace Closures

namespace Session

/-! ## The start of a session -/

/-- The store at the start of a session, before the static initializers run. -/
def prepared (u : CompilationUnit) (s : Store) : Store :=
  { (createEager u u.types s).2 with statics := blankStatics u }

theorem createEager_ok (u : CompilationUnit) :
    ∀ (ds : List TypeDecl) (s : Store), (createEager u ds s).1 = .ok ()
  | [], _ => rfl
  | d :: ds, s => by
    rw [createEager]
    cases isEager d with
    | false => exact createEager_ok u ds s
    | true => exact createEager_ok u ds _

/-- What holds of a store and goes on to hold when an adapter gets an instance
to share, holds of the store when those that are due have been created. -/
theorem createEager_keeps {u : CompilationUnit} {P : Store → Prop}
    (hshare : ∀ s a, P s → P (s.withShared u a)) :
    ∀ (ds : List TypeDecl) {s : Store}, P s → P (createEager u ds s).2
  | [], _, hs => hs
  | d :: ds, s, hs => by
    rw [createEager]
    cases isEager d with
    | false => exact createEager_keeps hshare ds hs
    | true => exact createEager_keeps hshare ds (hshare s d.id hs)

/-- `start` with calls of any kind. -/
def startBy (u : CompilationUnit) (k : Calls) : Action Unit := do
  createEager u u.types
  modify fun s => { s with statics := blankStatics u }
  initStatics u k u.types

theorem startBy_callsWithin (u : CompilationUnit) (budget : Nat) :
    startBy u (callsWithin u budget) = start u budget := rfl

theorem startBy_apply (u : CompilationUnit) (k : Calls) (s : Store) :
    startBy u k s = initStatics u k u.types (prepared u s) := by
  have hok := createEager_ok u u.types s
  rw [startBy, bind_apply]
  rcases hrun : createEager u u.types s with ⟨r, s'⟩
  rw [hrun] at hok
  cases hok
  rw [prepared, hrun]
  rfl

theorem start_apply (u : CompilationUnit) (budget : Nat) (s : Store) :
    start u budget s = initStatics u (callsWithin u budget) u.types (prepared u s) := by
  rw [← startBy_callsWithin, startBy_apply]

/-- The static fields of a unit are there. -/
def HasBlanks (u : CompilationUnit) (s : Store) : Prop :=
  ∀ d ∈ u.types, ∀ x ∈ d.fieldIds d.id, x.2.isStatic = true → (s.statics.get? x.1).isSome

theorem mem_blankStatics {u : CompilationUnit} {f : FieldId} {v : Value} :
    (f, v) ∈ blankStatics u ↔ ∃ d ∈ u.types, ∃ x ∈ d.fieldIds d.id,
      x.2.isStatic = true ∧ x.1 = f ∧ .defaultFor x.2.ty = v := by
  simp only [blankStatics, List.mem_flatMap, List.mem_map, List.mem_filter,
    Prod.mk.injEq, and_assoc]

theorem hasBlanks_prepared (u : CompilationUnit) (s : Store) : HasBlanks u (prepared u s) := by
  intro d hd x hx hstatic
  have hmem : (x.1, Value.defaultFor x.2.ty) ∈ blankStatics u :=
    mem_blankStatics.mpr ⟨d, hd, x, hx, hstatic, rfl, rfl⟩
  rw [prepared, Table.get?, List.lookup_isSome_iff]
  exact ⟨_, hmem, beq_self_eq_true _⟩

/-! ## Sessions with calls of any kind -/

/-- `run` with calls of any kind. -/
def runBy (u : CompilationUnit) (k : Calls) (type method : String) (args : List Value) :
    Action Value :=
  match (u.findType? type).bind fun c => u.declaredMethod? c method with
  | some id => k.invoke id none args
  | none => Action.fault (.noSuchMethod type method)

/-- `call` with calls of any kind. -/
def callBy (u : CompilationUnit) (k : Calls) (receiver : Value) (name : String)
    (args : List Value) :
    Action Value := do
  let h := (← get).heap
  let object ← Action.ofExcept (nonNull h name receiver)
  let type ← Action.ofExcept (instanceType h name object)
  match u.findByArity? type name args.length with
  | some id => k.invoke id (some object) args
  | none => Action.fault (.noSuchMethod (u.className type) name)

theorem runBy_callsWithin (u : CompilationUnit) (budget : Nat) :
    runBy u (callsWithin u budget) = run u budget := rfl

theorem callBy_callsWithin (u : CompilationUnit) (budget : Nat) :
    callBy u (callsWithin u budget) = call u budget := rfl

/-! ## Steps -/

/-- A value that refers to no object. -/
abbrev Literal := { v : Value // v.ref? = none }

/-- A value as it is handed in. -/
inductive Operand where
  | literal (v : Literal)
  /-- The very same value that an earlier step gave. -/
  | result (step : Nat)
  /-- A new box. -/
  | box (kind : Primitive) (content : Operand)
  /-- A new array. -/
  | array (element : Ty) (values : List Operand)

mutual

/-- The value of an operand, where the steps so far have given these results. A
result that is missing counts as `null`. -/
def Operand.read (results : List (Option Value)) : Operand → Action Value
  | .literal v => return v.1
  | .result step => return (results.getD step none).getD .null
  | .box kind content => do newObject (.boxed kind (← content.read results))
  | .array t os => do newObject (.array t (← Operand.readAll results os).toArray)

def Operand.readAll (results : List (Option Value)) : List Operand → Action (List Value)
  | [] => return []
  | o :: os => do
    let v ← o.read results
    return v :: (← Operand.readAll results os)

end

/-- The object that an operand refers to, if there is one. -/
def Operand.readObject (results : List (Option Value)) : Option Operand → Action (Option Ref)
  | none => return none
  | some o => do return (← o.read results).ref?

/-- What can be asked of a session. -/
inductive Step where
  | run (type method : String) (args : List Operand)
  | call (receiver : Operand) (name : String) (args : List Operand)
  | invoke (method : MethodId) (this : Option Operand) (args : List Operand)
  | staticField (type name : String)
  | same (left right : Operand)

/-- What a step answers if it does not halt. -/
inductive Reply where
  | value (v : Value)
  /-- There is no such static field. -/
  | missing
  | same (b : Bool)

/-- The value that later steps can hand in. -/
def Reply.value? : Reply → Option Value
  | .value v => some v
  | _ => none

/-- Perform a step. -/
def Step.perform (u : CompilationUnit) (k : Calls) (results : List (Option Value)) :
    Step → Action Reply
  | .run type method args => do
    let vs ← Operand.readAll results args
    return .value (← runBy u k type method vs)
  | .call receiver name args => do
    let v ← receiver.read results
    let vs ← Operand.readAll results args
    return .value (← callBy u k v name vs)
  | .invoke method this args => do
    let object ← Operand.readObject results this
    let vs ← Operand.readAll results args
    return .value (← k.invoke method object vs)
  | .staticField type name => do
    match staticField? u (← get) type name with
    | some v => return .value v
    | none => return .missing
  | .same left right => do
    let v ← left.read results
    let w ← right.read results
    return .same (v.same (← get).heap w)

/-! ## Transcripts -/

/-- Perform steps one after another, each on what the one before left and
`between` makes of it. A step that halts does not end the script. -/
def play (between : Store → Store) (u : CompilationUnit) (k : Calls) :
    List Step → List (Option Value) → Store → List (Except Halt Reply × Store)
  | [], _, _ => []
  | step :: rest, results, s =>
    let end_ := step.perform u k results s
    end_ :: play between u k rest (results ++ [end_.1.toOption.bind Reply.value?]) (between end_.2)

/-- How a session starts and how the steps of a script end. -/
structure Transcript where
  start : Except Halt Unit × Store
  steps : List (Except Halt Reply × Store)

/-- The transcript of a script, with something done between the steps. There are
no steps if the session does not start. -/
def transcriptWith (between : Store → Store) (u : CompilationUnit) (k : Calls)
    (script : List Step) : Transcript :=
  let start := startBy u k Store.empty
  ⟨start, match start.1 with
    | .ok _ => play between u k script [] (between start.2)
    | .error _ => []⟩

/-- The transcript of a script. -/
def transcript (u : CompilationUnit) (k : Calls) (script : List Step) : Transcript :=
  transcriptWith clearOutput u k script

/-- The history of a script. -/
def history (u : CompilationUnit) (k : Calls) (script : List Step) : Transcript :=
  transcriptWith id u k script

end Session

/-! ## Recorded steps -/

/-- The fields that the code of a unit assigns to. -/
def CompilationUnit.Assigned (u : CompilationUnit) (f : FieldId) : Prop :=
  ∃ d ∈ u.types, ∃ r e, Node.expr (.fieldSet r f e) ∈ d.nodes

theorem CompilationUnit.writesOnly_assigned (u : CompilationUnit) : u.WritesOnly u.Assigned := by
  rintro d hd (_ | e) hn
  · trivial
  · cases e with
    | fieldSet r f e => exact ⟨d, hd, r, e, hn⟩
    | _ => trivial

theorem CompilationUnit.WritesOnly.assigned {writable : FieldId → Prop} {u : CompilationUnit}
    (hu : u.WritesOnly writable) {f : FieldId} (hf : u.Assigned f) : writable f := by
  obtain ⟨d, hd, r, e, hn⟩ := hf
  exact hu d hd _ hn

namespace Session

/-- What happens in a session on a unit. -/
abbrev Happens (u : CompilationUnit) : Store → Moment → Prop := u.Happens u.Assigned 0

instance (u : CompilationUnit) : Stable (Happens u) (HasBlanks u) where
  stays _ _ hs h d hd x hx hstatic := h.isSome_static (hs d hd x hx hstatic)

section Record

variable (u : CompilationUnit) (budget : Nat)

/-- The record of the calls of a session. -/
def calls : (callsWithin u budget).Recorded u u.Assigned 0 :=
  recordCalls u.writesOnly_assigned budget

/-- The record of static initializers. -/
def recordStatics : (ds : List TypeDecl) → (∀ d ∈ ds, d ∈ u.types) →
    Recorded (Happens u) (HasBlanks u) id (initStatics u (callsWithin u budget) ds)
  | [], _ => .pure _
  | d :: ds, hds =>
    ((recordInitDecl (calls u budget) (fun _ _ => Nat.zero_le _) true
      (u.writesOnly_assigned d (hds d List.mem_cons_self))
      fun x hx hstatic _ v => .one (fun _ => .change)
        (fun c hc => .static c.store x.1 v (hc d (hds d List.mem_cons_self) x hx hstatic))
        fun _ => rfl).within _).bind fun _ =>
    recordStatics ds fun d hd => hds d (List.mem_cons_of_mem _ hd)

mutual

def Operand.record (results : List (Option Value)) :
    (o : Operand) → (o.read results).Recorded u u.Assigned 0
  | .literal _ | .result _ => .pure _
  | .box _ content => (Operand.record results content).bind fun _ => recordBox _ _
  | .array _ os => (Operand.recordAll results os).bind fun _ => recordArray _ _

def Operand.recordAll (results : List (Option Value)) :
    (os : List Operand) → (Operand.readAll results os).Recorded u u.Assigned 0
  | [] => .pure _
  | o :: os => (Operand.record results o).bind fun _ =>
    (Operand.recordAll results os).bind fun _ => .pure _

end

def Operand.recordObject (results : List (Option Value)) :
    (o : Option Operand) → (Operand.readObject results o).Recorded u u.Assigned 0
  | none => .pure _
  | some o => (o.record u results).bind fun _ => .pure _

def recordRun (type method : String) (args : List Value) :
    (runBy u (callsWithin u budget) type method args).Recorded u u.Assigned 0 :=
  show Action.Recorded u u.Assigned 0
      (match (u.findType? type).bind fun c => u.declaredMethod? c method with
        | some id => (callsWithin u budget).invoke id none args
        | none => Action.fault (.noSuchMethod type method)) from
    match (u.findType? type).bind fun c => u.declaredMethod? c method with
    | some _ => (calls u budget).invoke _ _ _
    | none => .halt _

def recordCallBy (receiver : Value) (name : String) (args : List Value) :
    (callBy u (callsWithin u budget) receiver name args).Recorded u u.Assigned 0 :=
  Recorded.read.bind fun _ => (Recorded.ofExcept _).bind fun _ =>
    (Recorded.ofExcept _).bind fun type =>
      match u.findByArity? type name args.length with
      | some _ => (calls u budget).invoke _ _ _
      | none => .halt _

/-- The record of a step. -/
def Step.record (results : List (Option Value)) :
    (step : Step) → (step.perform u (callsWithin u budget) results).Recorded u u.Assigned 0
  | .run type method args => (Operand.recordAll u results args).bind fun vs =>
    (recordRun u budget type method vs).bind fun _ => .pure _
  | .call receiver name args => (receiver.record u results).bind fun v =>
    (Operand.recordAll u results args).bind fun vs =>
    (recordCallBy u budget v name vs).bind fun _ => .pure _
  | .invoke _ this args => (Operand.recordObject u results this).bind fun _ =>
    (Operand.recordAll u results args).bind fun _ =>
    ((calls u budget).invoke _ _ _).bind fun _ => .pure _
  | .staticField type name => Recorded.read.bind fun s =>
    match staticField? u s type name with
    | some _ => .pure _
    | none => .pure _
  | .same left right => (left.record u results).bind fun _ =>
    (right.record u results).bind fun _ => Recorded.read.bind fun _ => .pure _

/-- The moments of steps, each from the store at its start on. -/
def recordSteps : List Step → List (Option Value) → Store → List (List Moment)
  | [], _, _ => []
  | step :: rest, results, s =>
    let end_ := step.perform u (callsWithin u budget) results s
    (⟨.turn, s⟩ :: (step.record u budget results).log s) ::
      recordSteps rest (results ++ [end_.1.toOption.bind Reply.value?]) end_.2

/-- The moments of a session: those of its start, then those of each step. -/
def record (script : List Step) : List (List Moment) :=
  let start := startBy u (callsWithin u budget) Store.empty
  (⟨.turn, prepared u Store.empty⟩ ::
      (recordStatics u budget u.types fun _ h => h).log (prepared u Store.empty)) ::
    match start.1 with
    | .ok _ => recordSteps u budget script [] start.2
    | .error _ => []

/-- All moments of a session, in order. -/
def moments (script : List Step) : List Moment := (record u budget script).flatten

end Record

/-! ## What the moments are -/

section Moments

variable (u : CompilationUnit) (budget : Nat)

theorem ends_recordSteps : ∀ (script : List Step) (results : List (Option Value)) (s : Store),
    (recordSteps u budget script results s).map (fun part => part.getLast?.map Moment.store) =
      (play id u (callsWithin u budget) script results s).map fun r => some r.2
  | [], _, _ => rfl
  | step :: rest, results, s => by
    have hpath : Path (Happens u) s ((step.record u budget results).log s)
        (step.perform u (callsWithin u budget) results s).2 :=
      (step.record u budget results).path s (Nat.zero_le _)
    rw [recordSteps, play, List.map_cons, List.map_cons, ends_recordSteps rest,
      List.getLast?_eq_some_getLast (List.cons_ne_nil _ _), Option.map_some, hpath.getLast]
    rfl

theorem path_start (script : List Step) :
    Path (Happens u) (prepared u Store.empty)
      ((recordStatics u budget u.types fun _ h => h).log (prepared u Store.empty))
      (history u (callsWithin u budget) script).start.2 := by
  have hpath := (recordStatics u budget u.types fun _ h => h).path (prepared u Store.empty)
    (hasBlanks_prepared u Store.empty)
  rw [history, transcriptWith, startBy_apply]
  exact hpath

/-- **Each part of the record ends where the history says**: the start of the
session, and every step. -/
theorem ends_record (script : List Step) :
    (record u budget script).map (fun part => part.getLast?.map Moment.store) =
      some (history u (callsWithin u budget) script).start.2 ::
        (history u (callsWithin u budget) script).steps.map fun r => some r.2 := by
  have hpath := path_start u budget script
  rw [record, List.map_cons, List.getLast?_eq_some_getLast (List.cons_ne_nil _ _),
    Option.map_some, hpath.getLast, history, transcriptWith]
  refine congrArg _ ?_
  dsimp only
  cases (startBy u (callsWithin u budget) Store.empty).1 with
  | error e => rfl
  | ok a => exact ends_recordSteps u budget script [] _

variable {u} {budget} in
/-- The start of a session and its steps end at moments of it. -/
theorem exists_moment {script : List Step} {s : Store}
    (hs : s ∈ (history u (callsWithin u budget) script).start.2 ::
      (history u (callsWithin u budget) script).steps.map Prod.snd) :
    ∃ m ∈ moments u budget script, m.store = s := by
  have hmem := List.mem_map_of_mem (f := some) hs
  rw [List.map_cons, List.map_map] at hmem
  have hends := ends_record u budget script ▸ hmem
  obtain ⟨part, hpart, hlast⟩ := List.mem_map.mp hends
  obtain ⟨m, hm, hstore⟩ := Option.map_eq_some_iff.mp hlast
  exact ⟨m, List.mem_flatten_of_mem hpart (List.mem_of_getLast? hm), hstore⟩

theorem path_recordSteps : ∀ (script : List Step) (results : List (Option Value)) (s : Store),
    ∃ t, Path (Happens u) s (recordSteps u budget script results s).flatten t
  | [], _, s => ⟨s, .nil s⟩
  | step :: rest, results, s => by
    have hpath := (step.record u budget results).path s (Nat.zero_le _)
    obtain ⟨t, hrest⟩ := path_recordSteps rest _ (step.perform u (callsWithin u budget) results s).2
    exact ⟨t, .cons (.turn s) (hpath.append hrest)⟩

/-- **The moments of a session lead from the prepared store to its end**, by
single changes. -/
theorem path_moments (script : List Step) :
    ∃ t, Path (Happens u) (prepared u Store.empty) (moments u budget script) t := by
  have hpath := path_start u budget script
  rw [moments, record, List.flatten_cons]
  rw [history, transcriptWith] at hpath
  dsimp only at hpath ⊢
  cases (startBy u (callsWithin u budget) Store.empty).1 with
  | error e =>
    rw [List.flatten_nil, List.append_nil]
    exact ⟨_, .cons (.turn _) hpath⟩
  | ok a =>
    obtain ⟨t, hrest⟩ := path_recordSteps u budget script []
      (startBy u (callsWithin u budget) Store.empty).2
    exact ⟨t, .cons (.turn _) (hpath.append hrest)⟩

/-- **What the moments of a session are.** -/
structure Recounted (script : List Step) : Prop where
  /-- They are those of the start and of each step, which end where the session
  does. -/
  ends : (record u budget script).map (fun part => part.getLast?.map Moment.store) =
    some (history u (callsWithin u budget) script).start.2 ::
      (history u (callsWithin u budget) script).steps.map fun r => some r.2
  /-- From each to the next there is a single change. -/
  changes : ∃ t, Path (Happens u) (prepared u Store.empty) (moments u budget script) t
  /-- What happens within a call stands between entering the call and leaving
  it. -/
  call : ∀ n id this args s body frame hbody, activation u id this args s = .ok (body, frame) →
    ((calls u (n + 1)).invoke id this args).log s =
      ⟨.enter, { s with depth := s.depth + 1 }⟩ ::
        ((recordStmts (calls u n) body hbody).log ⟨frame, { s with depth := s.depth + 1 }⟩ ++
          [⟨.leave, (invoke u (n + 1) id this args s).2⟩])
  /-- Wherever a closure is made of operands that have values, that is a
  moment. -/
  closure : ∀ n a es he hes c vs c₁, evalExprs u (callsWithin u n) es c = (.ok vs, c₁) →
    ∃ o c₂, evalExpr u (callsWithin u n) (.newClosure a es) c = (.ok (.ref o), c₂) ∧
      (recordExpr (calls u n) (.newClosure a es) he).log c =
        (recordExprs (calls u n) es hes).log c ++ [⟨.closure a vs o, c₂.store⟩]
  /-- Wherever the shared instance of an adapter is asked for, it is had, and
  that is a moment. -/
  singleton : ∀ n a he c, ∃ v c', evalExpr u (callsWithin u n) (.singleton a) c = (.ok v, c') ∧
    (recordExpr (calls u n) (.singleton a) he).log c = [⟨.shared a v, c'.store⟩]

theorem recounted (script : List Step) : Recounted u budget script where
  ends := ends_record u budget script
  changes := path_moments u budget script
  call n _ _ _ _ _ _ hbody h := log_method (calls u n) u.writesOnly_assigned h hbody
  closure _ _ _ he hes _ _ _ hoperands := log_newClosure _ he hes hoperands
  singleton _ _ he c := log_singleton _ he c

/-- A step ends at the call depth from which it starts. -/
theorem Step.depth_perform (results : List (Option Value)) (step : Step) (s : Store) :
    (step.perform u (callsWithin u budget) results s).2.depth = s.depth :=
  (step.record u budget results).level s

/-- So does the start of a session. -/
theorem depth_start (s : Store) :
    (start u budget s).2.depth = (prepared u s).depth := by
  rw [start_apply]
  exact (recordStatics u budget u.types fun _ h => h).level (prepared u s)

end Moments

end Session

end Closures
