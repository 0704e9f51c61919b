import TypeLint.Syntax.Kind
import TypeLint.Text.Search
import TypeLint.Text.Bytes

namespace TypeLint.Program

open Syntax Text

/-- A type as it is written. -/
inductive TypeText where
  | keyword (kind : Kind) (text : String)
  /-- A literal with its contents. A quoted text loses its quotes by bytes, and has no contents
      when that cuts a character apart. -/
  | literal (kind : Kind) (text : String) (value : Option String)
  | name (text : String)
  | array (element : TypeText)
  | union (parts : List TypeText)
  | intersection (parts : List TypeText)
  deriving Inhabited

namespace TypeText

/-- The separator of union parts. -/
def bar : List Char := [' ', '|', ' ']

/-- The separator of intersection parts. -/
def ampersand : List Char := [' ', '&', ' ']

/-- What stands between the first and the last byte of a quoted text. -/
def quotedValue? (text : String) : Option String :=
  slice? text 1 (max (byteLength text - 1) 1)

/-- A quotation mark. -/
def isQuote (c : Char) : Bool := c == '\x27' || c == '\x22'

/-- The first character satisfies a condition. -/
def startsWith (p : Char → Bool) : List Char → Bool
  | [] => false
  | c :: _ => p c

/-- A literal, keyword or name. -/
def ofAtom (cs : List Char) : TypeText :=
  let text := String.ofList cs
  if text == "null" then .literal .nullKeyword text (some text)
  else if text == "true" then .literal .trueKeyword text (some text)
  else if text == "false" then .literal .falseKeyword text (some text)
  else if startsWith isQuote cs then .literal .stringLiteral text (quotedValue? text)
  else if startsWith Char.isDigit cs then .literal .numericLiteral text (some text)
  else
    match Kind.typeKeyword? text with
    | some kind => .keyword kind text
    | none => .name text

/-- The type that a text in reverse spells without separators: each `[]` at the end makes an
    array. -/
def ofReversed : List Char → TypeText
  | ']' :: '[' :: rest => .array (ofReversed rest)
  | cs => ofAtom cs.reverse

/-- The one part of a list, or the composite of several. -/
def composite (make : List TypeText → TypeText) : List TypeText → TypeText
  | [only] => only
  | parts => make parts

/-- The type that a text without union separators spells. -/
def ofIntersection (cs : List Char) : TypeText :=
  composite .intersection <|
    (splitAround ampersand cs).map fun part => ofReversed part.reverse

/-- The type that a text spells. -/
def ofText (text : String) : TypeText :=
  composite .union ((splitAround bar text.toList).map ofIntersection)

end TypeText

end TypeLint.Program
