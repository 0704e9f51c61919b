import TypeLint.Json.Basic
import TypeLint.Decimal.Layout

namespace TypeLint.Json

/-- A lower-case hexadecimal digit. -/
def hexDigit (n : Nat) : Char := Nat.digitChar n

/-- A character inside a string. -/
def escapeChar (c : Char) : List Char :=
  if c == '\x22' then ['\\', '\x22']
  else if c == '\\' then ['\\', '\\']
  else if c == '\x08' then ['\\', 'b']
  else if c == '\x0c' then ['\\', 'f']
  else if c == '\n' then ['\\', 'n']
  else if c == '\r' then ['\\', 'r']
  else if c == '\t' then ['\\', 't']
  else if c.toNat < 0x20 then
    ['\\', 'u', '0', '0', hexDigit (c.toNat / 16), hexDigit (c.toNat % 16)]
  else [c]

/-- A string in quotes. -/
def quote (s : String) : String :=
  String.ofList ('\x22' :: s.toList.flatMap escapeChar ++ ['\x22'])

/-- A number. -/
def Number.text : Number → String
  | .natural n => String.ofList (Decimal.digitText n)
  | .negative n => String.ofList ('-' :: Decimal.digitText n)
  | .double x => String.ofList (Decimal.dataText x)

mutual

/-- Writes a value behind a text. -/
def write : Json → String → String
  | null, out => out ++ "null"
  | bool b, out => out ++ if b then "true" else "false"
  | number n, out => out ++ n.text
  | string s, out => out ++ quote s
  | array items, out => writeItems items (out ++ "[") ++ "]"
  | object members, out => writeMembers members (out ++ "\x7b") ++ "\x7d"

/-- Writes the items of an array with commas between them. -/
def writeItems : List Json → String → String
  | [], out => out
  | [item], out => write item out
  | item :: rest, out => writeItems rest (write item out ++ ",")

/-- Writes the members of an object with commas between them. -/
def writeMembers : List (String × Json) → String → String
  | [], out => out
  | [(key, value)], out => write value (out ++ quote key ++ ":")
  | (key, value) :: rest, out => writeMembers rest (write value (out ++ quote key ++ ":") ++ ",")

end

/-- The value as compact text. -/
def compact (v : Json) : String := v.write ""

end TypeLint.Json
