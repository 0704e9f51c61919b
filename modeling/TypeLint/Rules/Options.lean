import TypeLint.Json.Record
import TypeLint.Rule.Check

namespace TypeLint.Rules

/-- The options of a rule: its defaults when none are given, and otherwise what is read from the
    record with these field names. -/
def optionsOf? {α : Type} (names : List String) (default : α)
    (read : List (String × Json) → Option α) : Json → Option α
  | .null => some default
  | options => (options.record? names).bind read

/-- Nothing is given where a rule has no options. -/
def noOptions : Json → Bool
  | .null | .object [] | .array [] => true
  | _ => false

/-- A list of strings. -/
def strings? : Json → Option (List String)
  | .array items => items.mapM Json.string?
  | _ => none

/-- The message of the rules that mean nothing without strict null checks. -/
def noStrictNullCheck : String × String :=
  ("noStrictNullCheck", "This rule requires the \x60strictNullChecks\x60 compiler option to be " ++
    "turned on to function correctly.")

/-- The report at the start of a file without strict null checks. -/
def requireStrictNullChecks (allowed : Bool) : Check (List Report) := do
  let options ← Check.options
  if options.strictNullChecks || allowed then return []
  else return [.new noStrictNullCheck.1 (0, 0)]

end TypeLint.Rules
