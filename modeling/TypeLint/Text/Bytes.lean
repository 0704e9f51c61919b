namespace TypeLint.Text

/-- The number of bytes the characters take in UTF-8. -/
def byteCount : List Char → Nat
  | [] => 0
  | c :: rest => c.utf8Size + byteCount rest

/-- The length of a text in bytes. -/
def byteLength (s : String) : Nat := s.utf8ByteSize

/-- The bytes of a text in order. -/
def bytes (s : String) : List UInt8 := s.toList.flatMap String.utf8EncodeChar

/-- The characters before and after a byte offset, if the offset lies between two of them. -/
def splitAt? : List Char → Nat → Option (List Char × List Char)
  | cs, 0 => some ([], cs)
  | [], _ + 1 => none
  | c :: rest, n + 1 =>
    if c.utf8Size ≤ n + 1 then
      (splitAt? rest (n + 1 - c.utf8Size)).map fun (before, after) => (c :: before, after)
    else none

/-- The offset lies between two characters, or at either end of the text. -/
def isBoundary (s : String) (offset : Nat) : Bool := (splitAt? s.toList offset).isSome

/-- The characters from one byte offset to another. -/
def sliceChars? (cs : List Char) (start stop : Nat) : Option (List Char) :=
  if start ≤ stop then do
    let (front, _) ← splitAt? cs stop
    let (_, middle) ← splitAt? front start
    some middle
  else none

/-- The text from one byte offset to another; nothing when the offsets are out of order, outside
    the text or inside a character. -/
def slice? (s : String) (start stop : Nat) : Option String :=
  (sliceChars? s.toList start stop).map String.ofList

/-- The text between two byte offsets, empty when there is no such text. -/
def slice (s : String) (start stop : Nat) : String := (slice? s start stop).getD ""

end TypeLint.Text
