import TypeLint.ScriptTarget
import TypeLint.Text.Letters

namespace TypeLint.Text

/-- The target has no identifiers with this character because of its code point. -/
def isBeyondTarget (target : ScriptTarget) (c : Char) : Bool :=
  !target.supportsAstralIdentifiers && c.toNat > 0xFFFF

/-- The character may begin an identifier. -/
def isIdentifierStart (target : ScriptTarget) (c : Char) : Bool :=
  if c.toNat < 0x80 then c.isAlpha || c == '$' || c == '_'
  else !isBeyondTarget target c && isLetter c

/-- The character may stand inside an identifier. -/
def isIdentifierPart (target : ScriptTarget) (c : Char) : Bool :=
  if c.toNat < 0x80 then c.isAlphanum || c == '$' || c == '_'
  else
    !isBeyondTarget target c && (isLetterOrNumber c || c == '\u200C' || c == '\u200D')

/-- The name is no identifier, so that a property of this name is written in brackets and
    quotes. -/
def needsQuoting (target : ScriptTarget) (name : String) : Bool :=
  match name.toList with
  | [] => true
  | first :: rest => !isIdentifierStart target first || !rest.all (isIdentifierPart target)

end TypeLint.Text
