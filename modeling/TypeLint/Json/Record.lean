import TypeLint.Json.Basic

namespace TypeLint.Json

/-- The given fields of a record with these field names. -/
def record? (names : List String) : Json → Option (List (String × Json))
  | object members => some members
  | array items => if items.length ≤ names.length then some (names.zip items) else none
  | _ => none

/-- The value of a field of a record, its default when it is not given. -/
def field {α : Type} (members : List (String × Json)) (name : String) (default : α)
    (read : Json → Option α) : Option α :=
  match members.lookup name with
  | none => some default
  | some value => read value

/-- The one of some names that a value gives, as a string or as an object with that one key and
    no value. -/
def choice? : Json → Option String
  | string name => some name
  | object [(name, null)] => some name
  | _ => none

end TypeLint.Json
