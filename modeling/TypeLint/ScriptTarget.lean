namespace TypeLint

/-- An edition of the language. -/
inductive ScriptTarget where
  | es3 | es5 | es2015 | es2016 | es2017 | es2018 | es2019 | es2020 | es2021 | es2022 | es2023
  | esNext
  deriving DecidableEq, Repr, Inhabited

namespace ScriptTarget

/-- Every target, oldest first. -/
def all : List ScriptTarget :=
  [.es3, .es5, .es2015, .es2016, .es2017, .es2018, .es2019, .es2020, .es2021, .es2022, .es2023,
   .esNext]

/-- The published name of a target. -/
def name : ScriptTarget → String
  | .es3 => "ES3"
  | .es5 => "ES5"
  | .es2015 => "ES2015"
  | .es2016 => "ES2016"
  | .es2017 => "ES2017"
  | .es2018 => "ES2018"
  | .es2019 => "ES2019"
  | .es2020 => "ES2020"
  | .es2021 => "ES2021"
  | .es2022 => "ES2022"
  | .es2023 => "ES2023"
  | .esNext => "ESNext"

/-- The target with a published name, letter case included. -/
def ofName? (name : String) : Option ScriptTarget := all.find? (·.name == name)

/-- A text with its ASCII letters in lower case. -/
def lowerCase (s : String) : String := String.ofList (s.toList.map Char.toLower)

/-- The target that a project file names, in any letter case. The edition of 2015 has a second
    name. -/
def parse? (name : String) : Option ScriptTarget :=
  let lower := lowerCase name
  if lower == "es6" then some .es2015 else all.find? fun t => lowerCase t.name == lower

/-- From the edition of 2015 on identifiers may hold characters outside the basic plane. -/
def supportsAstralIdentifiers : ScriptTarget → Bool
  | .es3 | .es5 => false
  | _ => true

end ScriptTarget

end TypeLint
