import Closures.Command.Explain
import Closures.Command.Help
import Closures.Command.Input
import Closures.Lowering.Program
import Closures.Machine.Session
import Closures.Tree.Encode

/-!
# Commands

What the commands do, on any host:

* `lower` reads a unit, lowers it and writes the result;
* `run` reads a unit, lowers it and evaluates one of its static methods;
* `explain` explains a diagnostic code.

Diagnostics for people go to the error channel, those for tools to the output. A
command that fails says why on the error channel, last, and has the exit code 1;
misuse of the command line has the exit code 2.
-/

set_option autoImplicit false

namespace Closures

namespace Perform

variable {m : Type → Type} [Monad m] [Host m]

/-! ## Lowering -/

/-- Read a unit and lower it. A site that cannot be lowered is reported. -/
def lowered (show_ : Display) (input : String) (options : Options) :
    ExceptT Complaint m (CompilationUnit × Lowering.Summary) := do
  let u ← readUnit show_ input
  match u.lower options.singleton with
  | .ok result => return result
  | .error e =>
    let d := e.toDiagnostic u
    report (m := m) show_ (← sourceFiles (m := m) u) [d]
    throw { message := s!"Lowering {u.name} failed ({d.code.text})" }

/-- What was lowered, for tools. -/
def summaryJson (name : String) (s : Lowering.Summary) : Json :=
  .obj
    [("adapters", .list (fun (id, name) => .obj [("id", .u32 id), ("name", .str name)]) s.adapters),
      ("capturing", .nat s.capturing), ("singletons", .nat s.singletons), ("sites", .nat s.sites),
      ("type", .str "summary"), ("unit", .str name)]

/-- What was lowered, for people. -/
def summaryLine (colored : Bool) (name : String) (s : Lowering.Summary) : String :=
  let counts := s!"{s.capturing} capturing, {s.singletons} singleton"
  Explanation.styled colored "\x1b[32m\x1b[1m"
    s!"Lowered {s.sites} closure site(s) in {name}: {counts}"

/-- Lower a unit. Without an output file the unit is printed, and the summary
stays off the output. -/
def lower (show_ : Display) (quiet : Bool) (input : String) (output : Option String)
    (flags : LoweringFlags) : ExceptT Complaint m Unit := do
  let options ← resolve flags
  let (u, summary) ← lowered show_ input options
  let text := u.toJson.pretty
  match output with
  | none => Host.print (m := m) .out text
  | some path =>
    match ← (Host.write path (text ++ "\n") : m (Except FileError Unit)) with
    | .ok () => pure ()
    | .error e => throw { message := s!"Failed to write {path}", cause := some e.text }
  if show_.format = .json && output.isSome then
    Host.print (m := m) .out (summaryJson u.name summary).compact
  else if !quiet then
    Host.print (m := m) .err (summaryLine show_.colored u.name summary)

/-! ## Running -/

/-- The names of the type and the method of an entry point. -/
def entry? (entry : String) : Option (String × String) :=
  match (split '.' entry.toList).reverse with
  | method :: first :: more =>
    let type := ['.'].intercalate (first :: more).reverse
    if type.isEmpty || method.isEmpty then none
    else some (String.ofList type, String.ofList method)
  | _ => none

/-- Why a computation stopped, in words. -/
def haltText (u : CompilationUnit) (h : Heap) : Halt → String
  | .fault f => f.message u h
  | .exhausted => "evaluation budget used up"

/-- The text of a result, unless it is none or void. -/
def resultText? (h : Heap) : Except Halt Value → Option String
  | .ok .void => none
  | .ok v => some (v.text h)
  | .error _ => none

/-- Why there is no result, in words. -/
def failureText? (u : CompilationUnit) (h : Heap) : Except Halt Value → Option String
  | .ok _ => none
  | .error halt => some (haltText u h halt)

/-- What a run gave, for tools. -/
def runJson (entry : String) (output : List String) (result failure : Option String) : Json :=
  .obj [("entry", .str entry), ("error", .option .str failure), ("output", .list .str output),
    ("result", .option .str result)]

/-- Run a static method without arguments. -/
def run (show_ : Display) (input entry : String) (flags : LoweringFlags) :
    ExceptT Complaint m Unit := do
  match entry? entry with
  | none => throw { message := s!"Entry point must be CLASS.METHOD, got `{entry}`" }
  | some (type, method) => do
    let options ← resolve flags
    let (u, _) ← lowered show_ input options
    let (started, store) := Session.start u Session.ample Store.empty
    match started with
    | .error halt =>
      throw { message := s!"Static initialization failed: {haltText u store.heap halt}" }
    | .ok () => do
      let (result, store) := Session.run u Session.ample type method [] store
      let output := Session.output store
      let failure := failureText? u store.heap result
      match show_.format with
      | .text => printAll (m := m) .out output
      | .json =>
        Host.print (m := m) .out
          (runJson entry output (resultText? store.heap result) failure).pretty
      match failure with
      | some why => throw { message := s!"{entry} failed: {why}" }
      | none => return ()

/-! ## Explaining -/

/-- Explain a code, in letters of either case. -/
def explain (show_ : Display) (code : String) : ExceptT Complaint m Unit := do
  let code := upperCase code
  match Explanation.find? code with
  | none => throw { message := s!"Unknown error code: {code}" }
  | some e =>
    match show_.format with
    | .text => printAll (m := m) .out (e.lines show_.colored)
    | .json => Host.print (m := m) .out e.toJson.pretty

/-! ## The command line -/

/-- Carry out a command. -/
def command (i : Invocation) (c : Command) : ExceptT Complaint m Unit := do
  let colored (channel : Channel) : m Bool := do
    return !i.noColor && !i.quiet && (← Host.isTerminal channel)
  match c with
  | .lower input output flags =>
    lower ⟨i.format, ← colored .err⟩ i.quiet input output flags
  | .run input entry flags => run ⟨i.format, ← colored .err⟩ input entry flags
  | .explain code => explain ⟨i.format, ← colored .out⟩ code

/-- Carry out a command line, and give the exit code. -/
def execute (words : List String) : m UInt32 := do
  match Arguments.read words with
  | .error (.help scope) =>
    printAll .out (Help.lines scope)
    return 0
  | .error (.version scope) =>
    Host.print .out (Help.versionLine scope)
    return 0
  | .error (.misuse why) =>
    printAll .err why.lines
    return 2
  | .ok i =>
    match i.command with
    | none =>
      printAll .out (Help.lines none ++ [""])
      return 0
    | some c =>
      match ← command i c with
      | .ok () => return 0
      | .error complaint =>
        printAll .err complaint.lines
        return 1

end Perform

end Closures
