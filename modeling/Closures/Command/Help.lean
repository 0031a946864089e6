import Closures.Command.Flag

/-!
# Help

What is printed for people who ask for help: the purpose of the program or of
one of its commands, how it is written, and what each part of that means.
-/

set_option autoImplicit false

namespace Closures

namespace Help

/-- What an option does. -/
def purpose : Flag → String
  | .format => "Output format"
  | .verbose => "Increase verbosity (-v, -vv, -vvv)"
  | .quiet => "Suppress non-error output"
  | .noColor => "Disable colored output"
  | .output => "Write the lowered unit here instead of stdout"
  | .config => "Configuration file (defaults to ./kestrel.toml when present)"
  | .singleton => "When shared instances of non-capturing closures are created"
  | .sequential => "Lower top-level types one after another instead of in parallel"
  | .entry => "Static no-argument method to evaluate"
  | .help => "Print help"
  | .version => "Print version"

/-- What is said about an option: its purpose, its default, and the values to choose from. -/
def about (flag : Flag) : String :=
  let standing := if flag = .format then " [default: text]" else ""
  let choices := ", ".intercalate flag.choices
  let list := if flag.choices.isEmpty then "" else s!" [possible values: {choices}]"
  purpose flag ++ standing ++ list

/-- What a command does. -/
def commandPurpose : CommandName → String
  | .lower => "Lower every closure site of a compilation unit"
  | .run => "Lower a compilation unit and evaluate a static method"
  | .explain => "Explain an error code"

/-- What the argument of a command is. -/
def argumentPurpose : CommandName → String
  | .lower | .run => "Resolved compilation unit (JSON)"
  | .explain => "Error code to explain (e.g., L002)"

/-- The options in the order in which help lists them. -/
def listed : Option CommandName → List Flag
  | none | some .explain => [.format, .verbose, .quiet, .noColor, .help, .version]
  | some .lower =>
    [.format, .output, .config, .verbose, .quiet, .singleton, .noColor, .sequential, .help, .version]
  | some .run =>
    [.entry, .format, .config, .verbose, .quiet, .singleton, .noColor, .sequential, .help, .version]

/-- An option with its letter; names stand in one column. -/
def row (flag : Flag) : String :=
  match flag.letter? with
  | some c => s!"-{c}, {flag.shown}"
  | none => s!"    {flag.shown}"

/-- Rows of two columns. -/
def table (rows : List (String × String)) : List String :=
  let width := (rows.map fun (left, _) => left.length).foldl max 0
  rows.map fun (left, right) =>
    "  " ++ left ++ String.ofList (List.replicate (width + 2 - left.length) ' ') ++ right

/-- The commands, with their purposes. -/
def commands : List (String × String) :=
  (CommandName.all.map fun c => (c.text, commandPurpose c))
    ++ [("help", "Print this message or the help of the given subcommand(s)")]

/-- The lines of help about the program, or about a command. -/
def lines (scope : Option CommandName) : List String :=
  let options := "Options:" :: table ((listed scope).map fun f => (row f, about f))
  match scope with
  | none =>
    ["Lower Kestrel lambdas and method references to adapter types", "", "Usage: " ++ usage none [], "",
      "Commands:"] ++ table commands ++ "" :: options
  | some name =>
    [commandPurpose name, "", "Usage: " ++ usage scope [], "", "Arguments:"]
      ++ table [(name.argument, argumentPurpose name)] ++ "" :: options

/-- The line that names the version. -/
def versionLine (scope : Option CommandName) : String :=
  match scope with
  | none => "kestrel 0.1.0"
  | some name => s!"kestrel-{name.text} 0.1.0"

end Help

end Closures
