import Closures.Command.Flag
import Closures.Text.Similar

/-!
# Misuse of the command line

What can be wrong with a command line, and how it is said: the cause, what may
have been meant, how the command is written, and where there is more to read.
-/

set_option autoImplicit false

namespace Closures

namespace Misuse

/-- What is wrong. -/
inductive Cause where
  | unknownLetter (letter : Char)
  | unknownName (name : String)
  | unknownCommand (word : String)
  /-- There is no help about a word. -/
  | unknownTopic (word : String)
  /-- A command after `--`, where it is not looked for. -/
  | unseenCommand (word : String)
  | repeated (operand : Operand)
  | missingValue (operand : Operand)
  | badValue (operand : Operand) (value : String)
  | needlessValue (flag : Flag) (value : String)
  | surplus (argument : String)
  | missing (operands : List Operand)
deriving DecidableEq, Repr

/-- The options that a wrong name may be meant for. -/
def similarFlag? (scope : Option CommandName) (name : String) : Option Flag := do
  let best ← (Similar.among name ((Flag.known scope).map Flag.name)).getLast?
  (Flag.known scope).find? fun f => f.name = best

/-- The words in the place of a command. -/
def commandWords : List String := CommandName.all.map CommandName.text ++ ["help"]

namespace Cause

/-- The cause in words. -/
def message : Cause → String
  | unknownLetter c => s!"unexpected argument '-{c}' found"
  | unknownName name => s!"unexpected argument '--{name}' found"
  | unknownCommand word | unknownTopic word => s!"unrecognized subcommand '{word}'"
  | unseenCommand word => s!"unexpected argument '{word}' found"
  | repeated operand => s!"the argument '{operand.shown}' cannot be used multiple times"
  | missingValue operand => s!"a value is required for '{operand.shown}' but none was supplied"
  | badValue operand value => s!"invalid value '{value}' for '{operand.shown}'"
  | needlessValue flag value => s!"unexpected value '{value}' for '{flag.shown}' found; no more were expected"
  | surplus argument => s!"unexpected argument '{argument}' found"
  | missing _ => "the following required arguments were not provided:"

/-- What belongs to the message, one a line. -/
def details : Cause → List String
  | missingValue operand | badValue operand _ =>
    if operand.choices.isEmpty then []
    else
      let choices := ", ".intercalate operand.choices
      [s!"[possible values: {choices}]"]
  | missing operands => operands.map Operand.shown
  | _ => []

/-- Words in quotes that are like a wrong one. -/
def likeness (kind : String) (words : List String) : List String :=
  let list := ", ".intercalate (words.map fun w => s!"'{w}'")
  match words with
  | [] => []
  | [_] => [s!"a similar {kind} exists: {list}"]
  | _ => [s!"some similar {kind}s exist: {list}"]

/-- How to write a wrong option where it is meant as an argument; before a
command there are none. -/
def asArgument (scope : Option CommandName) (text : String) : List String :=
  if scope.isSome then [s!"to pass '{text}' as a value, use '-- {text}'"] else []

/-- What may have been meant. -/
def tips (scope : Option CommandName) : Cause → List String
  | unknownLetter c => asArgument scope s!"-{c}"
  | unknownName name =>
    match similarFlag? scope name with
    | some flag => likeness "argument" [s!"--{flag.name}"]
    | none => asArgument scope s!"--{name}"
  | unknownCommand word => likeness "subcommand" (Similar.among word commandWords)
  | unseenCommand word => [s!"subcommand '{word}' exists; to use it, remove the '--' before it"]
  | badValue operand value =>
    likeness "value" ((Similar.among value operand.choices).getLast?.toList)
  | unknownTopic _ | repeated _ | missingValue _ | needlessValue _ _ | surplus _ | missing _ => []

/-- How the command is written, where that helps. `given` is what was given before. -/
def usage? (scope : Option CommandName) (given : List Operand) : Cause → Option String
  | missingValue _ | badValue _ _ => none
  | unknownName name =>
    some ("Usage: " ++ usage scope (given ++ ((similarFlag? scope name).map Operand.flag).toList))
  | needlessValue flag _ => some (usage scope (given ++ [.flag flag]))
  | missing operands => some ("Usage: " ++ usage scope (given ++ operands))
  | unknownLetter _ | unknownCommand _ | unknownTopic _ | unseenCommand _ | repeated _ | surplus _ =>
    some ("Usage: " ++ usage scope [])

end Cause

end Misuse

/-- A misuse of the command line. -/
structure Misuse where
  /-- The command after whose word it is, if any. -/
  scope : Option CommandName
  cause : Misuse.Cause
  /-- What was given after that word, or before any command. -/
  given : List Operand
deriving DecidableEq, Repr

namespace Misuse

/-- What is printed. -/
def lines (misuse : Misuse) : List String :=
  let paragraph (ls : List String) : List String := if ls.isEmpty then [] else "" :: ls
  ("error: " ++ misuse.cause.message) :: misuse.cause.details.map ("  " ++ ·)
    ++ paragraph ((misuse.cause.tips misuse.scope).map ("  tip: " ++ ·))
    ++ paragraph (misuse.cause.usage? misuse.scope misuse.given).toList
    ++ paragraph ["For more information, try '--help'."]

end Misuse

end Closures
