import Closures.Config.Options

/-!
# Options and commands

What can be written on a command line: the options with their names, letters and
values, and the commands with their options and arguments.
-/

set_option autoImplicit false

namespace Closures

/-- The forms of output. -/
inductive OutputFormat where
  | text
  | json
deriving DecidableEq, Repr, Inhabited

/-- The format that a word names. -/
def OutputFormat.ofText? (word : String) : Option OutputFormat :=
  if word = "text" then some .text
  else if word = "json" then some .json
  else none

/-- The options of the command line. -/
inductive Flag where
  | format
  | verbose
  | quiet
  | noColor
  | output
  | config
  | singleton
  | sequential
  | entry
  | help
  | version
deriving DecidableEq, Repr, Inhabited

namespace Flag

/-- The name. -/
def name : Flag → String
  | format => "format"
  | verbose => "verbose"
  | quiet => "quiet"
  | noColor => "no-color"
  | output => "output"
  | config => "config"
  | singleton => "singleton"
  | sequential => "sequential"
  | entry => "entry"
  | help => "help"
  | version => "version"

/-- The letter. -/
def letter? : Flag → Option Char
  | verbose => some 'v'
  | quiet => some 'q'
  | output => some 'o'
  | help => some 'h'
  | version => some 'V'
  | format | noColor | config | singleton | sequential | entry => none

/-- What stands for the value in a description. None for an option without a value. -/
def placeholder? : Flag → Option String
  | format => some "FORMAT"
  | output | config => some "FILE"
  | singleton => some "SINGLETON"
  | entry => some "CLASS.METHOD"
  | verbose | quiet | noColor | sequential | help | version => none

/-- Whether the option has a value. -/
def takesValue (flag : Flag) : Bool := flag.placeholder?.isSome

/-- The values to choose from, if there is such a choice. -/
def choices : Flag → List String
  | format => ["text", "json"]
  | singleton => ["lazy", "eager"]
  | verbose | quiet | noColor | output | config | sequential | entry | help | version => []

/-- Whether a value can be given. A path is never empty. -/
def accepts : Flag → String → Bool
  | format, value => (OutputFormat.ofText? value).isSome
  | singleton, value => (Options.policy? value).isSome
  | output, value | config, value => value != ""
  | _, _ => true

/-- The option as it is described. Dots say that it may be given more than once. -/
def shown (flag : Flag) : String :=
  match flag, flag.placeholder? with
  | .verbose, _ => s!"--{flag.name}..."
  | _, some value => s!"--{flag.name} <{value}>"
  | _, none => s!"--{flag.name}"

/-- Options for every command. -/
def everywhere : List Flag := [format, verbose, quiet, noColor, help, version]

end Flag

/-- The commands. -/
inductive CommandName where
  | lower
  | run
  | explain
deriving DecidableEq, Repr, Inhabited

namespace CommandName

/-- All commands. -/
def all : List CommandName := [lower, run, explain]

/-- The word for a command. -/
def text : CommandName → String
  | lower => "lower"
  | run => "run"
  | explain => "explain"

/-- The command that a word names. -/
def ofText? (word : String) : Option CommandName := all.find? fun c => c.text = word

/-- The options of a command. -/
def flags : CommandName → List Flag
  | lower => [.output, .config, .singleton, .sequential]
  | run => [.entry, .config, .singleton, .sequential]
  | explain => []

/-- The options that must be given. -/
def required : CommandName → List Flag
  | run => [.entry]
  | lower | explain => []

/-- The argument as it is described. -/
def argument : CommandName → String
  | lower | run => "<INPUT>"
  | explain => "<CODE>"

/-- Whether the argument of a command is a path, which is never empty. -/
def takesPath : CommandName → Bool
  | lower | run => true
  | explain => false

end CommandName

/-- The options that are known before a command, or after it. -/
def Flag.known : Option CommandName → List Flag
  | none => Flag.everywhere
  | some name => name.flags ++ Flag.everywhere

/-- What values are given for: an option, or the argument of a command. -/
inductive Operand where
  | flag (flag : Flag)
  | argument (name : CommandName)
deriving DecidableEq, Repr, Inhabited

namespace Operand

/-- The option or argument as it is described. -/
def shown : Operand → String
  | flag f => f.shown
  | argument name => name.argument

/-- The values to choose from, if there is such a choice. -/
def choices : Operand → List String
  | flag f => f.choices
  | argument _ => []

/-- Whether a value can be given. -/
def accepts : Operand → String → Bool
  | flag f, value => f.accepts value
  | argument name, value => !(name.takesPath && value = "")

/-- The option, unless it is an argument. -/
def flag? : Operand → Option Flag
  | flag f => some f
  | argument _ => none

end Operand

/-- How a command is written. The options given, or to be given, are listed; if
there are none, it is only said that there are options. -/
def usage (scope : Option CommandName) (given : List Operand) : String :=
  let required := (scope.map CommandName.required).getD []
  let listed := (required ++ given.filterMap Operand.flag?).eraseDups
  let options := if given.isEmpty then "[OPTIONS]" :: required.map Flag.shown else listed.map Flag.shown
  let words :=
    match scope with
    | some name => "kestrel" :: name.text :: options ++ [name.argument]
    | none => "kestrel" :: options ++ (if given.isEmpty then ["[COMMAND]"] else [])
  " ".intercalate words

end Closures
