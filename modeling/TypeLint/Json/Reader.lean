import TypeLint.Json.Basic
import TypeLint.Decimal.Reader

namespace TypeLint.Json

/-- The characters that may stand between the parts of a text. -/
def isBlank (c : Char) : Bool := c == ' ' || c == '\n' || c == '\t' || c == '\r'

/-- The text behind leading blanks. -/
def skipBlanks (cs : List Char) : List Char := cs.dropWhile isBlank

/-- The largest significand that is kept exactly. -/
def significandLimit : Nat := Nat.pow 2 64

/-- Takes digits into a significand as long as it stays below the limit; returns it and the number
    of digits taken. -/
def takeDigits : Nat → Nat → List Char → Nat × Nat
  | significand, taken, [] => (significand, taken)
  | significand, taken, c :: rest =>
    let next := 10 * significand + (c.toNat - 48)
    if next < significandLimit then takeDigits next (taken + 1) rest else (significand, taken)

/-- `10 ^ n` rounded to a double. -/
def powerOfTen (n : Nat) : Double := .ofRatio false (Nat.pow 10 n) 1

/-- Scales a number by a power of ten that may be far outside the range of doubles, by one rounded
    multiplication or by rounded divisions; nothing if the result is too large. `fuel` bounds the
    divisions: two of them already leave 0. -/
def scaleByTen : Nat → Double → Int → Option Double
  | 0, x, _ => some x
  | fuel + 1, x, exponent =>
    if exponent.natAbs ≤ 308 then
      if exponent ≥ 0 then
        let y := x.mul (powerOfTen exponent.natAbs)
        if y.isInfinite then none else some y
      else some (x.div (powerOfTen exponent.natAbs))
    else if x.isZero then some x
    else if exponent ≥ 0 then none
    else scaleByTen fuel (x.div (powerOfTen 308)) (exponent + 308)

/-- The double `significand * 10 ^ exponent`: the significand is rounded first and scaled then. -/
def scaledNumber (negative : Bool) (significand : Nat) (exponent : Int) : Option Number :=
  (scaleByTen 4 (.ofNat significand) exponent).map fun x =>
    .double (if negative then x.neg else x)

/-- The largest exponent that is read as a number; beyond it only zero remains finite. -/
def exponentLimit : Nat := Nat.pow 2 31

/-- The exponent part behind its mark, for a significand that already carries a power of ten. -/
def readPower (negative : Bool) (significand : Nat) (exponent : Int) (cs : List Char) :
    Option (Number × List Char) := do
  let (down, cs) := Decimal.readSign cs
  let digits := cs.takeWhile Char.isDigit
  let rest := cs.dropWhile Char.isDigit
  if digits.isEmpty then none
  let power := Decimal.digitsValue digits
  if power ≥ exponentLimit then
    if significand != 0 && !down then none
    else some (.double (.zero negative), rest)
  else
    let n ← scaledNumber negative significand (if down then exponent - power else exponent + power)
    some (n, rest)

/-- A number behind its whole digits, of which `significand * 10 ^ exponent` is kept. -/
def readFraction (negative : Bool) (significand : Nat) (exponent : Int) :
    List Char → Option (Number × List Char)
  | '.' :: cs => do
    let digits := cs.takeWhile Char.isDigit
    let rest := cs.dropWhile Char.isDigit
    if digits.isEmpty then none
    let (significand, taken) := takeDigits significand 0 digits
    let exponent := exponent - taken
    match rest with
    | 'e' :: rest | 'E' :: rest => readPower negative significand exponent rest
    | _ => (scaledNumber negative significand exponent).map (·, rest)
  | 'e' :: cs | 'E' :: cs => readPower negative significand exponent cs
  | rest => (scaledNumber negative significand exponent).map (·, rest)

/-- An integer that fits in 64 bits, a zero with a minus sign being a double. -/
def integer (negative : Bool) (n : Nat) : Number :=
  if !negative then .natural n
  else if 0 < n && n ≤ Nat.pow 2 63 then .negative n
  else .double (Double.ofNat n).neg

/-- A number, from its sign on. -/
def readNumber (cs : List Char) : Option (Number × List Char) := do
  let (negative, cs) :=
    match cs with
    | '-' :: cs => (true, cs)
    | cs => (false, cs)
  let digits := cs.takeWhile Char.isDigit
  let rest := cs.dropWhile Char.isDigit
  match digits with
  | [] => none
  | '0' :: _ :: _ => none
  | digits =>
    let (significand, taken) := takeDigits 0 0 digits
    let dropped := digits.length - taken
    match rest with
    | '.' :: _ | 'e' :: _ | 'E' :: _ => readFraction negative significand dropped rest
    | _ =>
      if dropped = 0 then some (integer negative significand, rest)
      else (scaledNumber negative significand dropped).map (·, rest)

/-- The value of a hexadecimal digit. -/
def hexValue? (c : Char) : Option Nat :=
  if c.isDigit then some (c.toNat - 48)
  else if 'a' ≤ c && c ≤ 'f' then some (c.toNat - 87)
  else if 'A' ≤ c && c ≤ 'F' then some (c.toNat - 55)
  else none

/-- Four hexadecimal digits. -/
def readHex : List Char → Option (Nat × List Char)
  | a :: b :: c :: d :: rest => do
    let a ← hexValue? a
    let b ← hexValue? b
    let c ← hexValue? c
    let d ← hexValue? d
    some (4096 * a + 256 * b + 16 * c + d, rest)
  | _ => none

/-- The character of an escape by number, in front of the digits. A character outside the basic
    plane takes two escapes; half of one spells nothing. -/
def readCodePoint (cs : List Char) : Option (Char × List Char) := do
  let (first, rest) ← readHex cs
  if 0xDC00 ≤ first && first ≤ 0xDFFF then none
  else if 0xD800 ≤ first && first ≤ 0xDBFF then
    match rest with
    | '\\' :: 'u' :: rest =>
      let (second, rest) ← readHex rest
      if 0xDC00 ≤ second && second ≤ 0xDFFF then
        some (Char.ofNat (0x10000 + 0x400 * (first - 0xD800) + (second - 0xDC00)), rest)
      else none
    | _ => none
  else some (Char.ofNat first, rest)

/-- The character of an escape, behind the backslash. -/
def readEscape : List Char → Option (Char × List Char)
  | '\x22' :: rest => some ('\x22', rest)
  | '\\' :: rest => some ('\\', rest)
  | '/' :: rest => some ('/', rest)
  | 'b' :: rest => some ('\x08', rest)
  | 'f' :: rest => some ('\x0c', rest)
  | 'n' :: rest => some ('\n', rest)
  | 'r' :: rest => some ('\r', rest)
  | 't' :: rest => some ('\t', rest)
  | 'u' :: rest => readCodePoint rest
  | _ => none

/-- The rest of a string behind its opening quote, onto the characters read so far in reverse.
    `fuel` bounds their number. -/
def readStringBody : Nat → List Char → List Char → Option (String × List Char)
  | 0, _, _ => none
  | _, _, [] => none
  | fuel + 1, read, c :: rest =>
    if c == '\x22' then some (String.ofList read.reverse, rest)
    else if c == '\\' then
      match readEscape rest with
      | some (c, rest) => readStringBody fuel (c :: read) rest
      | none => none
    else if c.toNat < 0x20 then none
    else readStringBody fuel (c :: read) rest

/-- A string, from its opening quote on. -/
def readString : List Char → Option (String × List Char)
  | '\x22' :: rest => readStringBody (rest.length + 1) [] rest
  | _ => none

/-- A fixed word in front of a text. -/
def readWord (word : List Char) (value : Json) (cs : List Char) : Option (Json × List Char) :=
  if word.isPrefixOf cs then some (value, cs.drop word.length) else none

/-- The key of a member and the colon behind it. -/
def readKey (cs : List Char) : Option (String × List Char) := do
  let (key, rest) ← readString (skipBlanks cs)
  match skipBlanks rest with
  | ':' :: rest => some (key, rest)
  | _ => none

mutual

/-- A value with blanks in front, in which containers nest at most `room` deep. `fuel` bounds the
    number of values along one branch and along one container. -/
def readValue : Nat → Nat → List Char → Option (Json × List Char)
  | 0, _, _ => none
  | fuel + 1, room, cs =>
    match skipBlanks cs with
    | 'n' :: rest => readWord ['u', 'l', 'l'] null rest
    | 't' :: rest => readWord ['r', 'u', 'e'] (bool true) rest
    | 'f' :: rest => readWord ['a', 'l', 's', 'e'] (bool false) rest
    | '\x22' :: rest => (readString ('\x22' :: rest)).map fun (s, rest) => (string s, rest)
    | '[' :: rest =>
      match room with
      | 0 => none
      | room + 1 =>
        match skipBlanks rest with
        | ']' :: rest => some (array [], rest)
        | rest => (readItems fuel room [] rest).map fun (items, rest) => (array items, rest)
    | '\x7b' :: rest =>
      match room with
      | 0 => none
      | room + 1 => (readObject fuel room rest).map fun (members, rest) => (object members, rest)
    | rest => (readNumber rest).map fun (n, rest) => (number n, rest)

/-- The items of an array up to its closing bracket, onto those read so far in reverse. -/
def readItems : Nat → Nat → List Json → List Char → Option (List Json × List Char)
  | 0, _, _, _ => none
  | fuel + 1, room, read, cs =>
    match readValue fuel room cs with
    | none => none
    | some (item, rest) =>
      match skipBlanks rest with
      | ',' :: rest => readItems fuel room (item :: read) rest
      | ']' :: rest => some ((item :: read).reverse, rest)
      | _ => none

/-- The members of an object behind its opening brace. -/
def readObject : Nat → Nat → List Char → Option (List (String × Json) × List Char)
  | 0, _, _ => none
  | fuel + 1, room, cs =>
    match skipBlanks cs with
    | '\x7d' :: rest => some ([], rest)
    | rest => readMembers fuel room [] rest

/-- The members of an object up to its closing brace, onto those read so far. -/
def readMembers : Nat → Nat → List (String × Json) → List Char →
    Option (List (String × Json) × List Char)
  | 0, _, _, _ => none
  | fuel + 1, room, read, cs =>
    match readKey cs with
    | none => none
    | some (key, rest) =>
      match readValue fuel room rest with
      | none => none
      | some (value, rest) =>
        match skipBlanks rest with
        | ',' :: rest => readMembers fuel room (insert key value read) rest
        | '\x7d' :: rest => some (insert key value read, rest)
        | _ => none

end

/-- How deep the containers of a text may nest. -/
def maxDepth : Nat := 127

/-- The fuel that reading a text needs: every value along a branch or a container takes a
    character. -/
def fuelFor (cs : List Char) : Nat := 2 * cs.length + 2

/-- What remains behind a value is blank. -/
def complete {α : Type} : α × List Char → Option α
  | (value, rest) => if (skipBlanks rest).isEmpty then some value else none

/-- The value that a whole text spells. -/
def read? (text : String) : Option Json :=
  (readValue (fuelFor text.toList) maxDepth text.toList).bind complete

/-- Passes over a number. -/
def skipNumber (cs : List Char) : Option (List Char) := do
  let cs :=
    match cs with
    | '-' :: cs => cs
    | cs => cs
  let digits := cs.takeWhile Char.isDigit
  let rest := cs.dropWhile Char.isDigit
  let rest ←
    match digits with
    | [] => none
    | '0' :: _ :: _ => none
    | _ =>
      match rest with
      | '.' :: cs =>
        if (cs.takeWhile Char.isDigit).isEmpty then none else some (cs.dropWhile Char.isDigit)
      | _ => some rest
  match rest with
  | 'e' :: cs | 'E' :: cs =>
    let (_, cs) := Decimal.readSign cs
    if (cs.takeWhile Char.isDigit).isEmpty then none else some (cs.dropWhile Char.isDigit)
  | _ => some rest

/-- Passes over the rest of a string behind its opening quote. -/
def skipStringBody : Nat → List Char → Option (List Char)
  | 0, _ => none
  | _, [] => none
  | fuel + 1, c :: rest =>
    if c == '\x22' then some rest
    else if c == '\\' then
      match rest with
      | 'u' :: rest =>
        match readHex rest with
        | some (_, rest) => skipStringBody fuel rest
        | none => none
      | c :: rest =>
        if "\x22\\/bfnrt".toList.contains c then skipStringBody fuel rest else none
      | [] => none
    else if c.toNat < 0x20 then none
    else skipStringBody fuel rest

/-- Passes over a key and the colon behind it. -/
def skipKey (cs : List Char) : Option (List Char) := do
  match skipBlanks cs with
  | '\x22' :: rest =>
    let rest ← skipStringBody (rest.length + 1) rest
    match skipBlanks rest with
    | ':' :: rest => some rest
    | _ => none
  | _ => none

mutual

/-- Passes over a value. -/
def skipValue : Nat → List Char → Option (List Char)
  | 0, _ => none
  | fuel + 1, cs =>
    match skipBlanks cs with
    | 'n' :: rest => (readWord ['u', 'l', 'l'] null rest).map (·.2)
    | 't' :: rest => (readWord ['r', 'u', 'e'] null rest).map (·.2)
    | 'f' :: rest => (readWord ['a', 'l', 's', 'e'] null rest).map (·.2)
    | '\x22' :: rest => skipStringBody (rest.length + 1) rest
    | '[' :: rest =>
      match skipBlanks rest with
      | ']' :: rest => some rest
      | rest => skipItems fuel rest
    | '\x7b' :: rest =>
      match skipBlanks rest with
      | '\x7d' :: rest => some rest
      | rest => skipMembers fuel rest
    | rest => skipNumber rest

/-- Passes over the items of an array and its closing bracket. -/
def skipItems : Nat → List Char → Option (List Char)
  | 0, _ => none
  | fuel + 1, cs =>
    match skipValue fuel cs with
    | none => none
    | some rest =>
      match skipBlanks rest with
      | ',' :: rest => skipItems fuel rest
      | ']' :: rest => some rest
      | _ => none

/-- Passes over the members of an object and its closing brace. -/
def skipMembers : Nat → List Char → Option (List Char)
  | 0, _ => none
  | fuel + 1, cs =>
    match skipKey cs with
    | none => none
    | some rest =>
      match skipValue fuel rest with
      | none => none
      | some rest =>
        match skipBlanks rest with
        | ',' :: rest => skipMembers fuel rest
        | '\x7d' :: rest => some rest
        | _ => none

end

end TypeLint.Json
