import TypeLint.Decimal.Double

namespace TypeLint.Decimal

/-- The value of a list of digits. -/
def digitsValue (digits : List Char) : Nat :=
  digits.foldl (fun n c => 10 * n + (c.toNat - 48)) 0

/-- A leading sign and the rest; no sign counts as plus. -/
def readSign : List Char → Bool × List Char
  | '-' :: rest => (true, rest)
  | '+' :: rest => (false, rest)
  | rest => (false, rest)

/-- The exponent part of a number: nothing, or a mark, an optional sign and digits. -/
def readExponent? : List Char → Option Int
  | [] => some 0
  | mark :: rest =>
    if mark == 'e' || mark == 'E' then
      let (negative, digits) := readSign rest
      if !digits.isEmpty && digits.all Char.isDigit then
        let n : Int := digitsValue digits
        some (if negative then -n else n)
      else none
    else none

/-- The words for infinity and not-a-number. -/
def readWord? (negative : Bool) (cs : List Char) : Option Double :=
  let lower := String.ofList (cs.map Char.toLower)
  if lower == "inf" || lower == "infinity" then some (.infinity negative)
  else if lower == "nan" then some (.nan negative)
  else none

/-- Digits with an optional point and exponent. -/
def readDigits? (negative : Bool) (cs : List Char) : Option Double :=
  let whole := cs.takeWhile Char.isDigit
  let rest := cs.dropWhile Char.isDigit
  let (fraction, rest) :=
    match rest with
    | '.' :: rest => (rest.takeWhile Char.isDigit, rest.dropWhile Char.isDigit)
    | rest => ([], rest)
  if whole.isEmpty && fraction.isEmpty then none
  else (readExponent? rest).map fun exponent =>
    .ofDecimal negative (digitsValue (whole ++ fraction)) (exponent - fraction.length)

/-- The number that a text spells. -/
def read? (text : String) : Option Double :=
  let (negative, cs) := readSign text.toList
  match readWord? negative cs with
  | some x => some x
  | none => readDigits? negative cs

/-- An integer spelled by digits behind an optional sign. -/
def readInt? (text : String) : Option Int :=
  let (negative, digits) := readSign text.toList
  if !digits.isEmpty && digits.all Char.isDigit then
    let n : Int := digitsValue digits
    some (if negative then -n else n)
  else none

/-- A natural number below `2 ^ 64` spelled by digits, with or without a plus sign. -/
def readIndex? (text : String) : Option Nat :=
  let digits :=
    match text.toList with
    | '+' :: rest => rest
    | cs => cs
  if !digits.isEmpty && digits.all Char.isDigit && digitsValue digits < Nat.pow 2 64 then
    some (digitsValue digits)
  else none

end TypeLint.Decimal
