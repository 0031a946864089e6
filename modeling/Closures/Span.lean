/-!
# Source spans

A closure site and everything made from it carry the half-open byte range of the source text they
came from. Trees that were built without a text carry the `Span.dummy` range.
-/

set_option autoImplicit false

namespace Closures

/-- Half-open byte range `start..stop` in the file with number `file`. -/
structure Span where
  /-- Number of the file, in the order in which files were registered. -/
  file : UInt32
  /-- Offset of the first byte. -/
  start : UInt32
  /-- Offset after the last byte. -/
  stop : UInt32
deriving DecidableEq, Repr, Inhabited

namespace Span

/-- The file number of trees without a source text. -/
def noFile : UInt32 := 0xFFFFFFFF

/-- The range of a node without a source text. -/
def dummy : Span := ⟨noFile, 0, 0⟩

/-- A range is a dummy when its file is; the offsets do not matter. -/
def isDummy (s : Span) : Bool := s.file == noFile

/-- Width in bytes. A range that ends before it starts is empty. -/
def length (s : Span) : UInt32 := if s.start ≤ s.stop then s.stop - s.start else 0

end Span

end Closures
