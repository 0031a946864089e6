import Closures.Diagnostic.Basic
import Closures.Json.Value
import Closures.Source.Files

/-!
# Writing diagnostics

Two forms: for people, with an excerpt of the source text and a row of carets
under the place, in colours or plain; and for tools, one JSON object per line.
In both the diagnostics are followed by their number.
-/

set_option autoImplicit false

namespace Closures

/-- The colours of a report: codes that switch them on, and back. -/
structure Palette where
  bold : String
  red : String
  cyan : String
  reset : String
deriving DecidableEq, Repr, Inhabited

namespace Palette

/-- No colours. -/
def plain : Palette := ⟨"", "", "", ""⟩

/-- The colours of a terminal. -/
def ansi : Palette := ⟨"\x1b[1m", "\x1b[31m", "\x1b[36m", "\x1b[0m"⟩

end Palette

namespace Diagnostic

/-- A character, several times. -/
def fill (n : Nat) (c : Char) : String := String.ofList (List.replicate n c)

/-- The length of the row of carets: that of the span, at least one, and not beyond the line. -/
def caretCount (span : Span) (lineSize indent : Nat) : Nat :=
  min (max span.length.toNat 1) (max (lineSize - indent) 1)

/-- The line of a place, and carets under the place. -/
def excerpt (p : Palette) (span : Span) (l : Location) (line : String) : List String :=
  let number := l.line.toNat.repr
  let padding := fill number.utf8ByteSize ' '
  let indent := (SourceFile.pred l.column).toNat
  let margin := fill indent ' '
  let carets := fill (caretCount span line.utf8ByteSize indent) '^'
  [s!"{padding} {p.cyan}|{p.reset}",
    s!"{p.cyan}{number} |{p.reset} {line}",
    s!"{padding} {p.cyan}|{p.reset} {margin}{p.red}{carets}{p.reset}"]

/-- The lines that say where a diagnostic is. -/
def whereLines (p : Palette) (files : SourceFiles) (d : Diagnostic) : List String :=
  match files.location? d.span with
  | none => []
  | some l =>
    s!"  {p.cyan}-->{p.reset} {l.text}" ::
      match (files.file? d.span.file).bind fun f => f.lineText? l.line with
      | some line => excerpt p d.span l line
      | none => []

/-- The lines of a diagnostic, for people; the last is empty. -/
def lines (p : Palette) (files : SourceFiles) (d : Diagnostic) : List String :=
  [s!"{p.bold}{p.red}error[{d.code.text}]{p.reset}: {d.message}"]
    ++ d.whereLines p files
    ++ (match d.help with
      | some help => [s!"  {p.cyan}= help:{p.reset} {help}"]
      | none => [])
    ++ [""]

/-- The line that counts the diagnostics; there is none for none. -/
def countLine (p : Palette) : Nat → List String
  | 0 => []
  | 1 => [s!"{p.red}1 error emitted{p.reset}"]
  | n => [s!"{p.red}{n} errors emitted{p.reset}"]

/-- Diagnostics for people, as lines. -/
def report (p : Palette) (files : SourceFiles) (ds : List Diagnostic) : List String :=
  ds.flatMap (lines p files) ++ countLine p ds.length

/-- A place for tools. -/
def locationJson (l : Location) : Json :=
  .obj [("column", .u32 l.column), ("file", .str l.path), ("line", .u32 l.line)]

/-- A span for tools. -/
def spanJson (s : Span) : Json :=
  if s.isDummy then .null else .obj [("end", .u32 s.stop), ("start", .u32 s.start)]

/-- A diagnostic for tools. -/
def toJson (files : SourceFiles) (d : Diagnostic) : Json :=
  .obj [("code", .str d.code.text), ("help", .option .str d.help),
    ("location", .option locationJson (files.location? d.span)), ("message", .str d.message),
    ("severity", .str "error"), ("span", spanJson d.span)]

/-- The number of diagnostics for tools. -/
def countJson (n : Nat) : Json := .obj [("errors", .nat n), ("type", .str "summary")]

/-- Diagnostics for tools, an object per line. -/
def reportJson (files : SourceFiles) (ds : List Diagnostic) : List Json :=
  ds.map (toJson files) ++ [countJson ds.length]

end Diagnostic

end Closures
