import TypeLint.Result
import TypeLint.Text.LineMap
import TypeLint.Text.Span

namespace TypeLint.Text

/-- A comment of a text, delimiters included. -/
structure Comment where
  pos : Nat
  stop : Nat
  /-- Written with block delimiters. -/
  isMultiLine : Bool
  /-- A line break follows within the scanned gap. -/
  hasTrailingNewLine : Bool
  deriving DecidableEq, Repr, Inhabited

/-- Takes the delimiter off the front of a text, if it is there. -/
def dropDelimiter (delimiter text : List Char) : List Char :=
  if delimiter.isPrefixOf text then text.drop delimiter.length else text

/-- Takes the delimiter off the end of a text, if it is there. -/
def dropEndDelimiter (delimiter text : List Char) : List Char :=
  if delimiter.isSuffixOf text then text.take (text.length - delimiter.length) else text

namespace Comment

/-- The range of the comment. -/
def span (c : Comment) : Span := ⟨c.pos, c.stop⟩

/-- The comment as written. Bounds outside of the text give nothing, but bounds inside of a
    character are no bounds to cut at. -/
def text (c : Comment) (source : String) : Result String :=
  if c.stop ≤ byteLength source ∧ c.pos < c.stop then
    match slice? source c.pos c.stop with
    | some written => .ok written
    | none => .error .panic
  else .ok ""

/-- A written comment without its delimiters. A block comment that is not closed has none to lose
    at its end. -/
def strip (c : Comment) (written : String) : String :=
  String.ofList <|
    if c.isMultiLine then dropEndDelimiter ['*', '/'] (dropDelimiter ['/', '*'] written.toList)
    else dropDelimiter ['/', '/'] written.toList

/-- The comment without its delimiters. -/
def body (c : Comment) (source : String) : Result String := (c.text source).map c.strip

/-- What the scanner is reading: a gap between comments, or a comment that began at an offset. -/
inductive Scan where
  | gap
  | line (start : Nat)
  | block (start : Nat)
  deriving DecidableEq, Repr

/-- The byte of `/`. -/
def slash : UInt8 := 0x2F

/-- The byte of `*`. -/
def star : UInt8 := 0x2A

/-- The first of the bytes, if there is one, is a line break. -/
def startsWithLineBreak : List UInt8 → Bool
  | [] => false
  | b :: _ => isLineBreak b

/-- The comments in a byte string that begins at an offset. The end of the string ends a comment
    that is still open. -/
def scan : Scan → Nat → List UInt8 → List Comment
  | .gap, pos, a :: b :: rest =>
    if a == slash && b == slash then scan (.line pos) (pos + 2) rest
    else if a == slash && b == star then scan (.block pos) (pos + 2) rest
    else scan .gap (pos + 1) (b :: rest)
  | .gap, _, _ => []
  | .line start, pos, [] => [⟨start, pos, false, false⟩]
  | .line start, pos, a :: rest =>
    if isLineBreak a then ⟨start, pos, false, true⟩ :: scan .gap (pos + 1) rest
    else scan (.line start) (pos + 1) rest
  | .block start, pos, a :: b :: rest =>
    if a == star && b == slash then
      ⟨start, pos + 2, true, startsWithLineBreak rest⟩ :: scan .gap (pos + 2) rest
    else scan (.block start) (pos + 1) (b :: rest)
  | .block start, pos, rest => [⟨start, pos + rest.length, true, false⟩]

/-- The comments of the gap `[pos, stop)` of a text. -/
def scanGap (source : String) (pos stop : Nat) : List Comment :=
  scan .gap pos (((bytes source).take stop).drop pos)

/-- Halves a range of `size` candidates from `base` on until one is left: the last candidate that
    satisfies `p`, if those that do come first. `fuel` bounds the number of halvings. -/
def lastCandidate (p : Nat → Bool) : Nat → Nat → Nat → Nat
  | 0, base, _ => base
  | fuel + 1, base, size =>
    if size ≤ 1 then base
    else
      let half := size / 2
      lastCandidate p fuel (if p (base + half) then base + half else base) (size - half)

/-- The number of leading entries that satisfy `p`, found by binary search; the entries that do
    are expected in front. -/
def leadingCount (p : Comment → Bool) (comments : Array Comment) : Nat :=
  if comments.size = 0 then 0
  else
    let test (i : Nat) : Bool := (comments[i]?.map p).getD false
    let base := lastCandidate test comments.size 0 comments.size
    if test base then base + 1 else base

/-- The comments of a sorted table that lie inside `[pos, stop)`. -/
def inRange (comments : Array Comment) (pos stop : Nat) : List Comment :=
  let first := leadingCount (fun c => decide (c.pos < pos)) comments
  let last := leadingCount (fun c => decide (c.stop ≤ stop)) comments
  if first ≥ last then [] else (comments.extract first last).toList

end Comment

end TypeLint.Text
