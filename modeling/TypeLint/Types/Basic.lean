import TypeLint.Decimal.Layout

namespace TypeLint.Types

/-- The number of a type in its store. -/
abbrev TypeId := Nat

namespace TypeId

/-- The type `any`. -/
def any : TypeId := 0
/-- The type `unknown`. -/
def unknown : TypeId := 1
/-- The type `never`. -/
def never : TypeId := 2
/-- The type `void`. -/
def void : TypeId := 3
/-- The type `undefined`. -/
def undefined : TypeId := 4
/-- The type `null`. -/
def null : TypeId := 5
/-- The type `string`. -/
def string : TypeId := 6
/-- The type `number`. -/
def number : TypeId := 7
/-- The type `bigint`. -/
def bigint : TypeId := 8
/-- The type `symbol`. -/
def symbol : TypeId := 9
/-- The type `object`. -/
def object : TypeId := 10
/-- The type of the literal `true`. -/
def trueLiteral : TypeId := 11
/-- The type of the literal `false`. -/
def falseLiteral : TypeId := 12
/-- The type `boolean`, the union of `true` and `false`. -/
def boolean : TypeId := 13

/-- The types that every store begins with, by name. -/
def named : List (String × TypeId) :=
  [("any", any), ("unknown", unknown), ("never", never), ("void", void), ("undefined", undefined),
    ("null", null), ("string", string), ("number", number), ("bigint", bigint), ("symbol", symbol),
    ("object", object), ("true", trueLiteral), ("false", falseLiteral), ("boolean", boolean)]

/-- The number of types that every store begins with. -/
def builtinCount : Nat := 14

/-- The type is one of those that every store begins with. -/
def isBuiltin (id : TypeId) : Bool := id < builtinCount

end TypeId

/-- The types of the keywords. -/
inductive Intrinsic where
  | any | unknown | never | void | undefined | null | string | number | bigint | symbol | object
  deriving DecidableEq, Repr, Inhabited

/-- The keyword of an intrinsic type. -/
def Intrinsic.name : Intrinsic → String
  | any => "any"
  | unknown => "unknown"
  | never => "never"
  | void => "void"
  | undefined => "undefined"
  | null => "null"
  | string => "string"
  | number => "number"
  | bigint => "bigint"
  | symbol => "symbol"
  | object => "object"

/-- The value of a literal type. Numbers are told apart by their bits. -/
inductive LiteralValue where
  | string (value : String)
  | number (value : Double)
  /-- Digits behind an optional minus sign, without a suffix. -/
  | bigint (digits : String)
  | boolean (value : Bool)
  deriving DecidableEq, Repr, Inhabited

/-- The value counts as true in a condition. A big integer is false when nothing but minus signs
    and then zeros stands in front. -/
def LiteralValue.isTruthy : LiteralValue → Bool
  | string value => !value.isEmpty
  | number value => !value.isZero && !value.isNaN
  | bigint digits => !((digits.toList.dropWhile (· == '-')).dropWhile (· == '0')).isEmpty
  | boolean value => value

/-- A property of an object type. -/
structure Property where
  name : String
  type : TypeId
  optional : Bool
  readonly : Bool
  deriving DecidableEq, Repr, Inhabited

/-- An index signature of an object type. -/
structure IndexSignature where
  key : TypeId
  value : TypeId
  deriving DecidableEq, Repr, Inhabited

/-- The shape of an object or function type. A call signature is its return type. -/
structure ObjectShape where
  /-- A declared name, shown in place of the shape. -/
  name : Option String
  properties : List Property
  indexSignatures : List IndexSignature
  callReturns : List TypeId
  deriving DecidableEq, Repr, Inhabited

/-- The structure of a type. -/
inductive TypeData where
  | intrinsic (kind : Intrinsic)
  | literal (value : LiteralValue)
  /-- A member of an enumeration. -/
  | enumLiteral (enumName member : String) (value : LiteralValue)
  | uniqueSymbol (name : String)
  | parameter (name : String) (constraint : Option TypeId)
  | union (members : List TypeId)
  | intersection (members : List TypeId)
  | array (element : TypeId)
  | tuple (elements : List TypeId)
  | object (shape : ObjectShape)
  deriving DecidableEq, Repr, Inhabited

end TypeLint.Types
