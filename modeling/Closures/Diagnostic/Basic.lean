import Closures.Lowering.Cause

/-!
# Diagnostics

What is reported to the user: a stable code, a message, the place, and what to
do about it. Every diagnostic is an error. The codes are those of the kinds of
failure of lowering, and one for input that is no unit at all.
-/

set_option autoImplicit false

namespace Closures

/-- What a diagnostic is about. -/
inductive DiagnosticCode where
  | lowering (kind : Failure)
  | invalidInput
deriving DecidableEq, Inhabited, Repr

namespace DiagnosticCode

/-- All codes. -/
def all : List DiagnosticCode :=
  [.lowering .ambiguousOrMissingSam, .lowering .invalidCapture, .lowering .unresolvableReference,
    .lowering .incompatibleArity, .invalidInput]

/-- The code as it is written. -/
def text : DiagnosticCode → String
  | .lowering .ambiguousOrMissingSam => "L001"
  | .lowering .invalidCapture => "L002"
  | .lowering .unresolvableReference => "L003"
  | .lowering .incompatibleArity => "L004"
  | .invalidInput => "E001"

/-- The code that a text names, in letters of either case. -/
def ofText? (s : String) : Option DiagnosticCode :=
  all.find? fun c => c.text.map Char.toLower == s.map Char.toLower

end DiagnosticCode

/-- A reported problem. -/
structure Diagnostic where
  code : DiagnosticCode
  message : String
  span : Span := .dummy
  help : Option String := none
deriving DecidableEq, Repr, Inhabited

/-- The report of a site that cannot be lowered. -/
def LoweringError.toDiagnostic (u : CompilationUnit) (e : LoweringError) : Diagnostic where
  code := .lowering e.kind
  message := e.message u
  span := e.span
  help := some e.kind.help

end Closures
