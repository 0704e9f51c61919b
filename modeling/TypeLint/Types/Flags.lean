import TypeLint.Types.Basic

namespace TypeLint.Types

/-- A set of flags. -/
structure Flags where
  bits : Nat
  deriving DecidableEq, Repr, Inhabited

namespace Flags

/-- The set of one flag. -/
def flag (i : Nat) : Flags := ⟨Nat.pow 2 i⟩

/-- All flags of two sets. -/
def union (a b : Flags) : Flags := ⟨a.bits ||| b.bits⟩

instance : Union Flags := ⟨union⟩

/-- The set without flags. -/
def empty : Flags := ⟨0⟩

/-- The two sets share a flag. -/
def intersects (a b : Flags) : Bool := a.bits &&& b.bits != 0

/-- The set holds all flags of another. -/
def contains (a b : Flags) : Bool := a.bits &&& b.bits == b.bits

/-- The set has no flag. -/
def isEmpty (a : Flags) : Bool := a.bits == 0

/-- The flag of `any`. -/
def any : Flags := flag 0
/-- The flag of `unknown`. -/
def unknown : Flags := flag 1
/-- The flag of `string`. -/
def string : Flags := flag 2
/-- The flag of `number`. -/
def number : Flags := flag 3
/-- The flag of `boolean`. -/
def boolean : Flags := flag 4
/-- The flag of `bigint`. -/
def bigint : Flags := flag 5
/-- The flag of string literals. -/
def stringLiteral : Flags := flag 6
/-- The flag of number literals. -/
def numberLiteral : Flags := flag 7
/-- The flag of `true` and `false`. -/
def booleanLiteral : Flags := flag 8
/-- The flag of big integer literals. -/
def bigintLiteral : Flags := flag 9
/-- The flag of members of enumerations. -/
def enumLiteral : Flags := flag 10
/-- The flag of `symbol`. -/
def symbol : Flags := flag 11
/-- The flag of unique symbols. -/
def uniqueSymbol : Flags := flag 12
/-- The flag of `void`. -/
def void : Flags := flag 13
/-- The flag of `undefined`. -/
def undefined : Flags := flag 14
/-- The flag of `null`. -/
def null : Flags := flag 15
/-- The flag of `never`. -/
def never : Flags := flag 16
/-- The flag of type parameters. -/
def typeParameter : Flags := flag 17
/-- The flag of object, array and tuple types. -/
def object : Flags := flag 18
/-- The flag of unions. -/
def unionType : Flags := flag 19
/-- The flag of intersections. -/
def intersectionType : Flags := flag 20
/-- The flag of the keyword type `object`. -/
def nonPrimitive : Flags := flag 21

/-- `null` and `undefined`. -/
def nullable : Flags := null ∪ undefined
/-- The literal types. -/
def literal : Flags := stringLiteral ∪ numberLiteral ∪ bigintLiteral ∪ booleanLiteral
/-- Strings. -/
def stringLike : Flags := string ∪ stringLiteral
/-- Numbers. -/
def numberLike : Flags := number ∪ numberLiteral
/-- Big integers. -/
def bigintLike : Flags := bigint ∪ bigintLiteral
/-- Booleans. -/
def booleanLike : Flags := boolean ∪ booleanLiteral
/-- Symbols. -/
def symbolLike : Flags := symbol ∪ uniqueSymbol
/-- The types whose values are all false in a condition, and the literal types, of which only
    some are. -/
def definitelyFalsy : Flags := literal ∪ void ∪ undefined ∪ null
/-- The types that have a value that is false in a condition, and the literal types. -/
def possiblyFalsy : Flags := definitelyFalsy ∪ string ∪ number ∪ bigint ∪ boolean
/-- `any` and `unknown`. -/
def anyOrUnknown : Flags := any ∪ unknown

/-- The published names of the flags and of the sets that have one. -/
def named : List (String × Flags) :=
  [("ANY", .any), ("UNKNOWN", .unknown), ("STRING", .string), ("NUMBER", .number),
    ("BOOLEAN", .boolean), ("BIGINT", .bigint), ("STRING_LITERAL", .stringLiteral),
    ("NUMBER_LITERAL", .numberLiteral), ("BOOLEAN_LITERAL", .booleanLiteral),
    ("BIGINT_LITERAL", .bigintLiteral), ("ENUM_LITERAL", .enumLiteral), ("ES_SYMBOL", .symbol),
    ("UNIQUE_ES_SYMBOL", .uniqueSymbol), ("VOID", .void), ("UNDEFINED", .undefined),
    ("NULL", .null), ("NEVER", .never), ("TYPE_PARAMETER", .typeParameter), ("OBJECT", .object),
    ("UNION", .unionType), ("INTERSECTION", .intersectionType), ("NON_PRIMITIVE", .nonPrimitive),
    ("NULLABLE", .nullable), ("LITERAL", .literal), ("STRING_LIKE", .stringLike),
    ("NUMBER_LIKE", .numberLike), ("BIGINT_LIKE", .bigintLike), ("BOOLEAN_LIKE", .booleanLike),
    ("ES_SYMBOL_LIKE", .symbolLike), ("DEFINITELY_FALSY", .definitelyFalsy),
    ("POSSIBLY_FALSY", .possiblyFalsy), ("ANY_OR_UNKNOWN", .anyOrUnknown)]

end Flags

/-- The flag of an intrinsic type. -/
def Intrinsic.flags : Intrinsic → Flags
  | any => .any
  | unknown => .unknown
  | never => .never
  | void => .void
  | undefined => .undefined
  | null => .null
  | string => .string
  | number => .number
  | bigint => .bigint
  | symbol => .symbol
  | object => .nonPrimitive

/-- The flag of a literal type by its value. -/
def LiteralValue.flags : LiteralValue → Flags
  | string _ => .stringLiteral
  | number _ => .numberLiteral
  | bigint _ => .bigintLiteral
  | boolean _ => .booleanLiteral

/-- The flags of a type by its structure. -/
def TypeData.flags : TypeData → Flags
  | intrinsic kind => kind.flags
  | literal value => value.flags
  | enumLiteral _ _ value => .enumLiteral ∪ value.flags
  | uniqueSymbol _ => .uniqueSymbol
  | parameter _ _ => .typeParameter
  | union _ => .unionType
  | intersection _ => .intersectionType
  | array _ | tuple _ | object _ => .object

end TypeLint.Types
