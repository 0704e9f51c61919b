import TypeLint.Decimal.Double

namespace TypeLint

/-- A JSON number. -/
inductive Json.Number where
  /-- Below `2 ^ 64`. -/
  | natural (n : Nat)
  /-- The integer `-n`, for `0 < n ≤ 2 ^ 63`. -/
  | negative (n : Nat)
  | double (x : Double)
  deriving DecidableEq, Repr

/-- A JSON value. -/
inductive Json where
  | null
  | bool (b : Bool)
  | number (n : Json.Number)
  | string (s : String)
  | array (items : List Json)
  | object (members : List (String × Json))
  deriving Inhabited

namespace Json

/-- Sets a key: in place when it is there already, behind the others when it is new. -/
def insert {α : Type} (key : String) (value : α) : List (String × α) → List (String × α)
  | [] => [(key, value)]
  | (k, v) :: rest => if k == key then (k, value) :: rest else (k, v) :: insert key value rest

/-- The value of a member. -/
def get? (key : String) : Json → Option Json
  | object members => members.lookup key
  | _ => none

/-- The value is `null`. -/
def isNull : Json → Bool
  | null => true
  | _ => false

/-- The natural number of a value that holds one. -/
def natural? : Json → Option Nat
  | number (.natural n) => some n
  | _ => none

/-- The text of a string value. -/
def string? : Json → Option String
  | string s => some s
  | _ => none

/-- The truth value of a boolean. -/
def bool? : Json → Option Bool
  | bool b => some b
  | _ => none

/-- The items of an array. -/
def array? : Json → Option (List Json)
  | array items => some items
  | _ => none

end Json

end TypeLint
