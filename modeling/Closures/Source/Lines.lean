import Closures.Text.Split

/-!
# Lines of a source text

A text is cut into lines at its newlines, and the offset after each newline
starts a line. Lines and columns are counted from 1, offsets from 0; offsets and
columns count bytes. A place beyond the text is moved back to its end.
-/

set_option autoImplicit false

namespace Closures

/-- A source text and the path it is known by. -/
structure SourceFile where
  path : String
  text : String
deriving DecidableEq, Repr, Inhabited

namespace SourceFile

/-- The byte that ends a line. -/
def newline : UInt8 := 10

/-- The bytes of the text. -/
def bytes (f : SourceFile) : List UInt8 := f.text.toUTF8.toList

/-- The length of the text in bytes. -/
def size (f : SourceFile) : UInt32 := f.bytes.length.toUInt32

/-- The offsets at which lines start: that of the text, and those after newlines. -/
def lineStarts (f : SourceFile) : List UInt32 :=
  0 :: f.bytes.zipIdx.filterMap fun (b, i) => if b = newline then some (i + 1).toUInt32 else none

/-- The line and column of an offset. The line is the last that starts no later. -/
def lineColumn (f : SourceFile) (offset : UInt32) : UInt32 × UInt32 :=
  let offset := min offset f.size
  let started := f.lineStarts.takeWhile (· ≤ offset)
  (started.length.toUInt32, offset - started.getLastD 0 + 1)

/-- The number before, or zero. -/
def pred (n : UInt32) : UInt32 := if n = 0 then 0 else n - 1

/-- The offset of a line and column. Line 0 stands for the first, and a line that is not there for
the last. -/
def offset (f : SourceFile) (line column : UInt32) : UInt32 :=
  let starts := f.lineStarts
  let index := min (pred line).toNat (starts.length - 1)
  min (starts.getD index 0 + pred column) f.size

/-- Take away the carriage returns at the end of a line. -/
def trimReturns (line : List Char) : List Char := (line.reverse.dropWhile (· = '\r')).reverse

/-- The text of a line, without what ends it. -/
def lineText? (f : SourceFile) (line : UInt32) : Option String :=
  if line = 0 then none
  else ((split '\n' f.text.toList)[(pred line).toNat]?).map fun l => String.ofList (trimReturns l)

end SourceFile

end Closures
