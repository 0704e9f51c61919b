import TypeLint.Text.Bytes

namespace TypeLint.Text

/-- The byte of a line feed. -/
def lineFeed : UInt8 := 0x0A

/-- The byte of a carriage return. -/
def carriageReturn : UInt8 := 0x0D

/-- The byte ends a line. -/
def isLineBreak (b : UInt8) : Bool := b == lineFeed || b == carriageReturn

/-- A 0-based line and byte column. -/
structure Position where
  line : Nat
  column : Nat
  deriving DecidableEq, Repr, Inhabited

/-- The start of each line of a text, and the length of the text. -/
structure LineMap where
  starts : List Nat
  length : Nat
  deriving DecidableEq, Repr, Inhabited

/-- What a search for a number in an ascending list gives: the index at which the number stands, or
    the one at which it would have to be put. -/
inductive Search where
  | found (index : Nat)
  | missing (index : Nat)
  deriving DecidableEq, Repr

/-- Looks for a number in an ascending list, where it stands behind all smaller ones. -/
def search (ascending : List Nat) (x : Nat) : Search :=
  let index := ascending.countP (· < x)
  if ascending[index]? = some x then .found index else .missing index

namespace LineMap

/-- The line starts behind the line breaks of a byte string that begins at `pos`. A carriage
    return and the line feed behind it are one break. -/
def startsAfter : Nat → List UInt8 → List Nat
  | _, [] => []
  | pos, b :: rest =>
    if b == lineFeed then (pos + 1) :: startsAfter (pos + 1) rest
    else if b == carriageReturn then
      match rest with
      | [] => [pos + 1]
      | next :: rest' =>
        if next == lineFeed then (pos + 2) :: startsAfter (pos + 2) rest'
        else (pos + 1) :: startsAfter (pos + 1) (next :: rest')
    else startsAfter (pos + 1) rest

/-- The line map of a text. The first line starts at 0, also in an empty text. -/
def ofText (text : String) : LineMap :=
  ⟨0 :: startsAfter 0 (bytes text), byteLength text⟩

/-- The number of lines. -/
def lineCount (m : LineMap) : Nat := m.starts.length

/-- The offset at which a line starts. -/
def lineStart? (m : LineMap) (line : Nat) : Option Nat := m.starts[line]?

/-- The position of an offset; an offset behind the text counts as its end. An offset at which no
    line starts lies in the line in front of the place where it would have to start one. -/
def position (m : LineMap) (offset : Nat) : Position :=
  let offset := min offset m.length
  let line :=
    match search m.starts offset with
    | .found line => line
    | .missing next => next - 1
  ⟨line, offset - m.starts.getD line 0⟩

/-- The offset of a position, if it lies in the text. The column may run past the line. -/
def offset? (m : LineMap) (p : Position) : Option Nat := do
  let start ← m.lineStart? p.line
  if start + p.column ≤ m.length then some (start + p.column) else none

end LineMap

end TypeLint.Text
