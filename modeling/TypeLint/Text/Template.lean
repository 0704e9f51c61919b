import TypeLint.Text.Search

namespace TypeLint.Text

/-- The spelling of the argument number `i` in a template. -/
def placeholder (i : Nat) : List Char := '\x7b' :: (toString i).toList ++ ['\x7d']

/-- Fills in the arguments one after the other, beginning with number `i`. Each one replaces its
    placeholder wherever it stands by then, also in an argument filled in before. -/
def fillFrom : Nat → List String → List Char → List Char
  | _, [], text => text
  | i, arg :: args, text => fillFrom (i + 1) args (replaceAll (placeholder i) arg.toList text)

/-- The template with its placeholders replaced by the arguments. -/
def fill (template : String) (args : List String) : String :=
  String.ofList (fillFrom 0 args template.toList)

end TypeLint.Text
