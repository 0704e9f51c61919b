namespace TypeLint

/-- How the log is shown. -/
inductive LogFormat where
  | text
  | tree
  | json
  deriving DecidableEq, Repr, Inhabited

/-- The format of a name in any case of ASCII letters; any other name stands for text. -/
def LogFormat.ofName (name : String) : LogFormat :=
  let lower := String.ofList (name.toList.map Char.toLower)
  if lower == "tree" then .tree else if lower == "json" then .json else .text

end TypeLint
