import Closures.Command.Arguments
import Closures.Command.Host
import Closures.Diagnostic.Render
import Closures.Tree.Decode

/-!
# What commands read

Units and options come from files. A text that is no unit is reported at the
place where reading stops; every other trouble with a file is a `Complaint`.
-/

set_option autoImplicit false

namespace Closures

/-- Why a command fails. -/
structure Complaint where
  message : String
  /-- What is behind it. -/
  cause : Option String := none
deriving DecidableEq, Repr, Inhabited

/-- The complaint in lines. -/
def Complaint.lines (c : Complaint) : List String :=
  match c.cause with
  | none => ["Error: " ++ c.message]
  | some cause => ["Error: " ++ c.message, "", "Caused by:", "    " ++ cause]

/-! ## Units from files -/

/-- The help for a text that is no unit. -/
def Flaw.Kind.help : Flaw.Kind → String
  | ended => "the file ends before the unit is complete"
  | malformed => "the file is not well-formed JSON"
  | unfit => "the input must be a resolved compilation unit as written by the front end"

/-- What is wrong with a text, in words. -/
def Flaw.Kind.text : Flaw.Kind → String
  | ended => "the text ends early"
  | malformed => "the text is not JSON"
  | unfit => "the value is not a unit"

/-- The number of bytes of a text up to where a flaw was met, the first byte there included. -/
def Flaw.bytesRead (flaw : Flaw) (text : String) : Nat :=
  min text.utf8ByteSize ((String.ofList (text.toList.take flaw.pos)).utf8ByteSize + 1)

/-- The line and column at which reading stops at a flaw. A newline that was met
has ended its line. -/
def Flaw.lineColumn (flaw : Flaw) (text : String) : UInt32 × UInt32 :=
  let bytes := text.toUTF8.toList.take (flaw.bytesRead text)
  let line := bytes.reverse.takeWhile (· != SourceFile.newline)
  ((bytes.count SourceFile.newline + 1).toUInt32, line.length.toUInt32)

/-- The report of a text that is no unit, at the place where reading stops. -/
def Flaw.toDiagnostic (flaw : Flaw) (file : SourceFile) : Diagnostic :=
  let (line, column) := flaw.lineColumn file.text
  let start := file.offset line column
  { code := .invalidInput
    message := s!"malformed compilation unit: {flaw.kind.text} at line {line} column {column}"
    span := ⟨0, start, start + 1⟩
    help := some flaw.kind.help }

/-- How deep the text of a unit may be nested. -/
def CompilationUnit.nestingLimit : Nat := 127

/-- Read a unit from its text. -/
def CompilationUnit.ofText (text : String) : Reading CompilationUnit :=
  Doc.readText (some nestingLimit) Doc.compilationUnit text

namespace Perform

variable {m : Type → Type} [Monad m] [Host m]

/-- How diagnostics are shown. -/
structure Display where
  format : OutputFormat
  colored : Bool

/-- Print lines. -/
def printAll (channel : Channel) (lines : List String) : m Unit :=
  lines.forM (Host.print channel)

/-- Report diagnostics. -/
def report (show_ : Display) (files : SourceFiles) (ds : List Diagnostic) : m Unit :=
  match show_.format with
  | .text =>
    printAll .err (Diagnostic.report (if show_.colored then .ansi else .plain) files ds)
  | .json => printAll .out ((Diagnostic.reportJson files ds).map Json.compact)

/-- Read a file, or complain. -/
def readFile (what path : String) : ExceptT Complaint m String := do
  match ← (Host.read path : m (Except FileError String)) with
  | .ok text => return text
  | .error e => throw { message := s!"Failed to read {what}{path}", cause := some e.text }

/-- Read a unit from a file. One that cannot be read is reported. -/
def readUnit (show_ : Display) (path : String) : ExceptT Complaint m CompilationUnit := do
  let text ← readFile "" path
  match CompilationUnit.ofText text with
  | .ok u => return u
  | .flawed flaw =>
    let file : SourceFile := ⟨path, text⟩
    report (m := m) show_ [file] [flaw.toDiagnostic file]
    throw { message := s!"{path} is not a valid compilation unit" }

/-- The source text of a unit, if it can be read. -/
def sourceFiles (u : CompilationUnit) : m SourceFiles := do
  match u.sourcePath with
  | none => return []
  | some path =>
    match ← Host.read path with
    | .ok text => return [⟨path, text⟩]
    | .error _ => return []

/-! ## Options -/

/-- The configuration file that is used when none is named. -/
def defaultConfig : String := "kestrel.toml"

/-- The options of a configuration file. The default file may be missing. -/
def readOptions (config : Option String) : ExceptT Complaint m Options := do
  let path ←
    match config with
    | some path => pure (some path)
    | none => pure (if ← (Host.isThere defaultConfig : m Bool) then some defaultConfig else none)
  match path with
  | none => return {}
  | some path =>
    match Options.read? (← readFile "config " path) with
    | some options => return options
    | none =>
      throw { message := s!"Invalid config {path}", cause := some "not a valid configuration" }

/-- Options of the command line on top of those of the configuration file. -/
def LoweringFlags.apply (flags : LoweringFlags) (options : Options) : Options where
  singleton := flags.singleton.getD options.singleton
  parallel := options.parallel && !flags.sequential

/-- The options that hold. -/
def resolve (flags : LoweringFlags) : ExceptT Complaint m Options := do
  return LoweringFlags.apply flags (← readOptions flags.config)

end Perform

end Closures
