import TypeLint.Text.Extender
import TypeLint.Text.Unprintable

namespace TypeLint.Text

/-- The number of a character in lower-case hexadecimal digits. -/
def hexText (c : Char) : List Char := Nat.toDigits 16 c.toNat

/-- The character cannot be seen on its own: it prints nothing, has no shape, or would be drawn onto
    the character before it. -/
def isInvisible (c : Char) : Bool := isUnprintable c || isFiller c || isExtender c

/-- A character inside quotes. -/
def quoteChar (c : Char) : List Char :=
  if c == '\x22' then ['\\', '\x22']
  else if c == '\\' then ['\\', '\\']
  else if c == '\x00' then ['\\', '0']
  else if c == '\t' then ['\\', 't']
  else if c == '\r' then ['\\', 'r']
  else if c == '\n' then ['\\', 'n']
  else if isInvisible c then ['\\', 'u', '\x7b'] ++ hexText c ++ ['\x7d']
  else [c]

/-- A name in quotes. -/
def quoted (name : String) : String :=
  String.ofList ('\x22' :: name.toList.flatMap quoteChar ++ ['\x22'])

end TypeLint.Text
