import Closures.Command.Misuse

/-!
# Command-line arguments

A command line has options that hold for every command, a command, and the
command's own options and arguments. An option is written `--name value`,
`--name=value`, and with its letter `-n value`, `-nvalue` or `-n=value`; letters
of options without a value can be written together. After `--` everything is an
argument.

Options for every command can stand before the command and after it; what stands
after it wins. Reading stops at the first misuse, or at the first request for
help or the version, whichever comes first. A value is looked at only when the
next word is taken.
-/

set_option autoImplicit false

namespace Closures

/-- Why reading a command line stops early. Help and the version are about the
program or a command. -/
inductive Stop where
  | misuse (why : Misuse)
  | help (scope : Option CommandName)
  | version (scope : Option CommandName)
deriving DecidableEq, Repr

/-- What was read of the options and arguments before or after the command. -/
structure Given where
  /-- The command, or none before it. -/
  scope : Option CommandName := none
  /-- Options and arguments with their values, last first. -/
  values : List (Operand × String) := []
  /-- An option or argument whose value is due, or has not been looked at yet. -/
  pending : Option (Operand × Option String) := none
  /-- Whether only arguments follow. -/
  trailing : Bool := false
deriving Inhabited

namespace Given

/-- The value of an option or argument. -/
def value? (g : Given) (operand : Operand) : Option String := g.values.lookup operand

/-- Whether an option or argument is given. -/
def has (g : Given) (operand : Operand) : Bool := (g.value? operand).isSome

/-- Whether the value of an option is due. -/
def isAwaiting (g : Given) : Bool :=
  match g.pending with
  | some (_, none) => true
  | _ => false

/-- What has been given, in order, with the value that has not been looked at yet. -/
def operands (g : Given) : List Operand :=
  let last :=
    match g.pending with
    | some (operand, some _) => [operand]
    | _ => []
  (last ++ g.values.map Prod.fst).eraseDups.reverse

/-- Stop for a misuse. -/
def fail {α : Type} (g : Given) (cause : Misuse.Cause) : Except Stop α :=
  .error (.misuse ⟨g.scope, cause, g.operands⟩)

/-- Take an option or argument. Help and version end everything, and only
verbosity is given more than once. -/
def take (g : Given) (operand : Operand) (value : String) : Except Stop Given :=
  match operand with
  | .flag .help => .error (.help g.scope)
  | .flag .version => .error (.version g.scope)
  | operand =>
    if operand != .flag .verbose && g.has operand then g.fail (.repeated operand)
    else if operand.accepts value then .ok { g with values := (operand, value) :: g.values }
    else if value = "" then g.fail (.missingValue operand)
    else g.fail (.badValue operand value)

/-- Look at the last value before the next thing is taken. -/
def settle (g : Given) : Except Stop Given :=
  match g.pending with
  | none => .ok g
  | some (operand, none) => g.fail (.missingValue operand)
  | some (operand, some value) => { g with pending := none }.take operand value

/-- Take an option that is written with a value, or without. -/
def flag (g : Given) (f : Flag) (attached : Option String) : Except Stop Given := do
  match f.takesValue, attached with
  | false, none => (← g.settle).take (.flag f) ""
  | false, some value => g.fail (.needlessValue f value)
  | true, some value => (← g.settle).take (.flag f) value
  | true, none => return { ← g.settle with pending := some (.flag f, none) }

/-- Take options written as letters. -/
def letters (g : Given) : List Char → Except Stop Given
  | [] => .ok g
  | c :: cs =>
    match (Flag.known g.scope).find? fun f => f.letter? = some c with
    | none => g.fail (.unknownLetter c)
    | some f =>
      match f.takesValue, cs with
      | false, _ => do letters (← g.flag f none) cs
      | true, [] => g.flag f none
      | true, '=' :: value => g.flag f (some (String.ofList value))
      | true, value => g.flag f (some (String.ofList value))

/-- Take an option written by its name. -/
def long (g : Given) (text : List Char) : Except Stop Given :=
  let name := text.takeWhile (· != '=')
  let attached := if name.length < text.length then some (text.drop (name.length + 1)) else none
  match (Flag.known g.scope).find? fun f => f.name.toList = name with
  | none => g.fail (.unknownName (String.ofList name))
  | some f => g.flag f (attached.map String.ofList)

/-- Take the argument of a command. There is one, and none before the command. -/
def takeArgument (g : Given) (text : String) : Except Stop Given :=
  match g.scope with
  | none =>
    g.fail (if g.trailing && Misuse.commandWords.contains text then .unseenCommand text
      else .unknownCommand text)
  | some name =>
    if g.operands.contains (.argument name) then g.fail (.surplus text)
    else do return { ← g.settle with pending := some (.argument name, some text) }

/-- Take the next word. -/
def word (g : Given) (text : String) : Except Stop Given :=
  if g.trailing then g.takeArgument text
  else
    match text.toList with
    | ['-', '-'] => .ok { g with trailing := true }
    | '-' :: '-' :: cs => g.long cs
    | '-' :: c :: cs => g.letters (c :: cs)
    | _ =>
      match g.pending with
      | some (operand, none) => .ok { g with pending := some (operand, some text) }
      | _ => g.takeArgument text

/-- Take all words. -/
def words (g : Given) : List String → Except Stop Given
  | [] => g.settle
  | w :: ws => do words (← g.word w) ws

end Given

/-- A word in the place of a command. -/
inductive Arguments.Named where
  | command (name : CommandName)
  | help

/-- The command that a word stands for. -/
def Arguments.named? (word : String) : Option Arguments.Named :=
  if word = "help" then some .help else (CommandName.ofText? word).map .command

/-- Take words up to a command. The value in front of it is not looked at yet. -/
def Arguments.upToCommand (g : Given) :
    List String → Except Stop (Given × Option (Arguments.Named × List String))
  | [] => .ok (g, none)
  | w :: ws =>
    let command := if g.trailing || g.isAwaiting then none else Arguments.named? w
    match command with
    | some name => .ok (g, some (name, ws))
    | none => do Arguments.upToCommand (← g.word w) ws

/-- Options that `lower` and `run` share. -/
structure LoweringFlags where
  config : Option String
  singleton : Option SingletonInit
  sequential : Bool
deriving DecidableEq, Repr, Inhabited

/-- A command with what it is about. -/
inductive Command where
  | lower (input : String) (output : Option String) (flags : LoweringFlags)
  | run (input entry : String) (flags : LoweringFlags)
  | explain (code : String)
deriving DecidableEq, Repr, Inhabited

/-- A command line. -/
structure Invocation where
  format : OutputFormat
  quiet : Bool
  noColor : Bool
  /-- None asks for help. -/
  command : Option Command
deriving DecidableEq, Repr, Inhabited

namespace Arguments

/-- The options of lowering that are given. -/
def loweringFlags (g : Given) : LoweringFlags where
  config := g.value? (.flag .config)
  singleton := (g.value? (.flag .singleton)).bind Options.policy?
  sequential := g.has (.flag .sequential)

/-- What must be given with a command. -/
def required (name : CommandName) : List Operand := name.required.map Operand.flag ++ [.argument name]

/-- The command for what is given after it. -/
def command (name : CommandName) (g : Given) : Except Stop Command :=
  let value (operand : Operand) : String := (g.value? operand).getD ""
  match (required name).filter fun operand => !g.has operand with
  | [] =>
    let argument := value (.argument name)
    match name with
    | .lower => .ok (.lower argument (g.value? (.flag .output)) (loweringFlags g))
    | .run => .ok (.run argument (value (.flag .entry)) (loweringFlags g))
    | .explain => .ok (.explain argument)
  | missing => g.fail (.missing missing)

/-- A command line from what is given before the command and after it. -/
def invocation (before after : Given) (command : Option Command) : Invocation where
  format :=
    (((after.value? (.flag .format)).or (before.value? (.flag .format))).bind
      OutputFormat.ofText?).getD .text
  quiet := after.has (.flag .quiet) || before.has (.flag .quiet)
  noColor := after.has (.flag .noColor) || before.has (.flag .noColor)
  command := command

/-- What is asked for by `help` and the words after it, of which the first names
a command and others do not count as names. -/
def helpAbout (words : List String) : Stop :=
  let unknown (scope : Option CommandName) (word : String) : Stop :=
    .misuse ⟨scope, .unknownTopic word, []⟩
  match words with
  | [] => .help none
  | first :: others =>
    match named? first, others with
    | none, _ => unknown none first
    | some .help, [] => .help none
    | some .help, second :: _ => unknown none second
    | some (.command name), [] => .help name
    | some (.command name), second :: _ => unknown name second

/-- Read a command line. -/
def read (words : List String) : Except Stop Invocation := do
  match ← upToCommand {} words with
  | (before, none) => return invocation (← before.settle) {} none
  | (_, some (.help, rest)) => .error (helpAbout rest)
  | (before, some (.command name, rest)) => do
    let after ← Given.words { scope := name } rest
    let command ← command name after
    return invocation (← before.settle) after (some command)

end Arguments

end Closures
