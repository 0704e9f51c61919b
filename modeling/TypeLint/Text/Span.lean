import TypeLint.Text.Bytes

namespace TypeLint.Text

/-- A half-open byte range `[pos, stop)`. -/
structure Span where
  pos : Nat
  stop : Nat
  deriving DecidableEq, Repr, Inhabited

namespace Span

/-- The empty range at an offset, where an insertion goes. -/
def empty (pos : Nat) : Span := ⟨pos, pos⟩

/-- The number of bytes in the range. -/
def length (r : Span) : Nat := r.stop - r.pos

/-- The range holds no byte. -/
def isEmpty (r : Span) : Bool := r.stop ≤ r.pos

/-- The byte at an offset belongs to the range. -/
def contains (r : Span) (offset : Nat) : Bool := r.pos ≤ offset && offset < r.stop

/-- The ends of each range lie on the far side of the start of the other, so that two ranges
    that are not empty share a byte. -/
def overlaps (r other : Span) : Bool := r.pos < other.stop && other.pos < r.stop

/-- The part of a text that the range covers, empty when it lies outside the text. -/
def slice (r : Span) (text : String) : String := Text.slice text r.pos r.stop

end Span

end TypeLint.Text
