import TypeLint.Syntax.Kind
import TypeLint.Text.Units
import TypeLint.Types.Query

namespace TypeLint.Rules.Comparison

open Syntax TypeLint.Types

/-- A value that is known from its type. -/
inductive Operand where
  | null
  | undefined
  | value (v : LiteralValue)
  deriving DecidableEq, Repr

/-- The value of a type that has only one. -/
def operand? (s : Store) (id : TypeId) : Option Operand :=
  if id = TypeId.null then some .null
  else if id = TypeId.undefined then some .undefined
  else (s.literalValue? id).map .value

/-- The two values are the same. Numbers are compared as numbers, so that the two zeros are the
    same and a value that is no number differs from itself. -/
def strictlyEqual : Operand → Operand → Bool
  | .null, .null | .undefined, .undefined => true
  | .value (.number a), .value (.number b) => a.numericEq b
  | .value a, .value b => a == b
  | _, _ => false

/-- The two values are of one kind. -/
def sameKind : LiteralValue → LiteralValue → Bool
  | .string _, .string _ | .number _, .number _ | .bigint _, .bigint _
  | .boolean _, .boolean _ => true
  | _, _ => false

/-- The two values are equal by loose equality, for which `null` and `undefined` are the same and
    differ from everything else. -/
def looselyEqual? (left right : Operand) : Option Bool :=
  match left, right with
  | .value a, .value b => if sameKind a b then some (strictlyEqual left right) else none
  | .value _, _ | _, .value _ => some false
  | _, _ => some true

/-- An integer of 128 bits with its sign. -/
def wideInteger? (digits : String) : Option Int :=
  (Decimal.readInt? digits).filter fun n => -(Nat.pow 2 127 : Int) ≤ n && n < Nat.pow 2 127

/-- The order of two values: nothing if they are of different kinds or of a kind without an order,
    and no ordering if one of them is not a number. -/
def order? : Operand → Operand → Option (Option Ordering)
  | .value (.number a), .value (.number b) => some (a.compare? b)
  | .value (.string a), .value (.string b) => some (some (Text.compareUnits a b))
  | .value (.bigint a), .value (.bigint b) => do
    let a ← wideInteger? a
    let b ← wideInteger? b
    some (some (compare a b))
  | _, _ => none

/-- The result of comparing two values. -/
def compareOperands? (operator : Kind) (left right : Operand) : Option Bool :=
  match operator with
  | .equalsEqualsEqualsToken => some (strictlyEqual left right)
  | .exclamationEqualsEqualsToken => some (!strictlyEqual left right)
  | .equalsEqualsToken => looselyEqual? left right
  | .exclamationEqualsToken => (looselyEqual? left right).map fun equal => !equal
  | .lessThanToken => (order? left right).map (· == some .lt)
  | .greaterThanToken => (order? left right).map (· == some .gt)
  | .lessThanEqualsToken => (order? left right).map fun o => o == some .lt || o == some .eq
  | .greaterThanEqualsToken => (order? left right).map fun o => o == some .gt || o == some .eq
  | _ => none

/-- The result of comparing the values of two types. -/
def evaluate? (s : Store) (operator : Kind) (left right : TypeId) : Option Bool := do
  let left ← operand? s left
  let right ← operand? s right
  compareOperands? operator left right

end TypeLint.Rules.Comparison
