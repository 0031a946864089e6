import Closures.Source.Lines
import Closures.Span

/-!
# Source files

The texts that spans point into, numbered in the order in which they were
registered. A path that is registered again keeps its first number, spelling and
text. Two spellings of a path are the same when they have the same parts.
-/

set_option autoImplicit false

namespace Closures

namespace Path

/-- The parts of a path. Empty parts and dots do not count, except that an empty
part in front stands for the root and a dot in front for the current
directory. -/
def parts (path : String) : List (List Char) :=
  let pieces := split '/' path.toList
  let named := pieces.filter fun p => p != [] && p != ['.']
  match pieces with
  | [] :: _ :: _ => [] :: named
  | ['.'] :: _ => ['.'] :: named
  | _ => named

/-- Whether two spellings name the same path. -/
def same (a b : String) : Bool := parts a == parts b

end Path

/-- A place in a source text. -/
structure Location where
  path : String
  line : UInt32
  column : UInt32
deriving DecidableEq, Repr, Inhabited

/-- A place in words. -/
def Location.text (l : Location) : String := s!"{l.path}:{l.line}:{l.column}"

/-- The registered files. -/
abbrev SourceFiles := List SourceFile

namespace SourceFiles

/-- The number of a path. -/
def number? (files : SourceFiles) (path : String) : Option UInt32 :=
  (files.findIdx? fun f => Path.same f.path path).map Nat.toUInt32

/-- Register a file, and give its number. -/
def add (files : SourceFiles) (path text : String) : SourceFiles × UInt32 :=
  match files.number? path with
  | some n => (files, n)
  | none => (files ++ [⟨path, text⟩], files.length.toUInt32)

/-- The file with a number. -/
def file? (files : SourceFiles) (n : UInt32) : Option SourceFile := files[n.toNat]?

/-- Where a span starts. -/
def location? (files : SourceFiles) (span : Span) : Option Location :=
  if span.isDummy then none
  else
    (files.file? span.file).map fun f =>
      let (line, column) := f.lineColumn span.start
      ⟨f.path, line, column⟩

end SourceFiles

end Closures
