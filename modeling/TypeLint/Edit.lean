import TypeLint.Text.Bytes

namespace TypeLint

/-- The replacement of the bytes `[start, stop)` of a file. -/
structure TextEdit where
  file : String
  start : Nat
  stop : Nat
  newText : String
  deriving DecidableEq, Repr, Inhabited

/-- A named set of edits that resolves a finding. -/
structure Fix where
  description : String
  edits : List TextEdit
  deriving DecidableEq, Repr, Inhabited

/-- Why a fix cannot be applied. -/
inductive EditError where
  /-- The range ends before it starts or lies outside a text of `length` bytes. -/
  | outOfBounds (start stop length : Nat)
  /-- Two ranges share a byte, or one begins inside the other. -/
  | overlapping (first second : Nat × Nat)
  /-- The offset lies inside a character. -/
  | notCharBoundary (offset : Nat)
  deriving DecidableEq, Repr

/-- The wording of an error. -/
def EditError.message : EditError → String
  | .outOfBounds start stop length =>
    s!"edit [{start}, {stop}) is outside the text (length {length})"
  | .overlapping first second =>
    s!"edits [{first.1}, {first.2}) and [{second.1}, {second.2}) overlap"
  | .notCharBoundary offset => s!"offset {offset} is not a character boundary"

/-- The range that an edit replaces. -/
def TextEdit.range (e : TextEdit) : Nat × Nat := (e.start, e.stop)

/-- Ranges are ordered by their start and then by their end. -/
def rangeLE (a b : Nat × Nat) : Bool := a.1 < b.1 || (a.1 == b.1 && a.2 ≤ b.2)

namespace Fix

/-- The first range that is not one of a text of `length` bytes. -/
def misplaced? (length : Nat) (ranges : List (Nat × Nat)) : Option (Nat × Nat) :=
  ranges.find? fun r => r.1 > r.2 || r.2 > length

/-- The first two neighbours of a sorted list of ranges that overlap. -/
def overlap? : List (Nat × Nat) → Option ((Nat × Nat) × (Nat × Nat))
  | first :: second :: rest =>
    if second.1 < first.2 then some (first, second) else overlap? (second :: rest)
  | _ => none

/-- Checks that every edit lies within a text of `length` bytes and that no two overlap. Two
    insertions at the same offset are allowed. -/
def validate (f : Fix) (length : Nat) : Except EditError Unit :=
  let ranges := f.edits.map TextEdit.range
  match misplaced? length ranges with
  | some r => .error (.outOfBounds r.1 r.2 length)
  | none =>
    match overlap? (ranges.mergeSort rangeLE) with
    | some (first, second) => .error (.overlapping first second)
    | none => .ok ()

/-- The edits in the order of their ranges; edits of the same range keep their order. -/
def sortedEdits (f : Fix) : List TextEdit :=
  f.edits.mergeSort fun a b => rangeLE a.range b.range

/-- Edits the rest of a text, of which everything before `cursor` has been written, by edits
    whose ranges come in order. -/
def applyFrom (text : String) : Nat → List TextEdit → Except EditError (List Char)
  | cursor, [] => .ok ((Text.sliceChars? text.toList cursor (Text.byteLength text)).getD [])
  | cursor, e :: rest => do
    if !Text.isBoundary text e.start then throw (.notCharBoundary e.start)
    if !Text.isBoundary text e.stop then throw (.notCharBoundary e.stop)
    let kept := (Text.sliceChars? text.toList cursor e.start).getD []
    let after ← applyFrom text e.stop rest
    return kept ++ e.newText.toList ++ after

/-- The text after all edits of the fix. -/
def apply (f : Fix) (text : String) : Except EditError String := do
  f.validate (Text.byteLength text)
  let written ← applyFrom text 0 f.sortedEdits
  return String.ofList written

end Fix

end TypeLint
