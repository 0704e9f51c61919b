import TypeLint.Proofs.Types.Made

namespace TypeLint.Values

/-- A value at run time. Arrays and functions are objects. Of an object and of a symbol nothing is
    told but which one it is. -/
inductive Value where
  | undefined
  | null
  | boolean (value : Bool)
  | number (value : Double)
  | bigint (value : Int)
  | string (value : String)
  | symbol (name : String)
  | object (address : Nat)
  deriving DecidableEq, Repr

namespace Value

/-- The value is `undefined` or `null`. -/
def isNullish : Value → Bool
  | undefined | null => true
  | _ => false

/-- The value counts as true in a condition. -/
def isTruthy : Value → Bool
  | undefined | null => false
  | boolean value => value
  | number value => !value.isZero && !value.isNaN
  | bigint value => value != 0
  | string value => !value.isEmpty
  | symbol _ | object _ => true

theorem isNullish_iff {v : Value} : v.isNullish = true ↔ v = undefined ∨ v = null := by
  cases v <;> simp [isNullish]

theorem isTruthy_of_isNullish {v : Value} (h : v.isNullish = true) : v.isTruthy = false := by
  rcases isNullish_iff.mp h with rfl | rfl <;> rfl

end Value

/-- What the properties of the values are at a moment. -/
structure World where
  /-- The value of a property by its name. -/
  read : Value → String → Value

/-- The value of a digit in a radix. -/
def digitIn? (radix : Nat) (c : Char) : Option Nat :=
  let value := if c.isDigit then c.toNat - 48 else c.toLower.toNat - 87
  if c.isAlphanum && value < radix then some value else none

/-- Reads further digits behind what has been read. -/
def readFrom? (radix n : Nat) : List Char → Option Nat
  | [] => some n
  | c :: rest => (digitIn? radix c).bind fun value => readFrom? radix (radix * n + value) rest

/-- The natural number that digits in a radix spell; there must be one. -/
def readIn? (radix : Nat) (digits : List Char) : Option Nat :=
  if digits.isEmpty then none else readFrom? radix 0 digits

/-- The natural number that the digits of a big integer literal spell. A mark in front tells the
    radix if it is not ten. -/
def magnitude? : List Char → Option Nat
  | '0' :: 'x' :: digits | '0' :: 'X' :: digits => readIn? 16 digits
  | '0' :: 'o' :: digits | '0' :: 'O' :: digits => readIn? 8 digits
  | '0' :: 'b' :: digits | '0' :: 'B' :: digits => readIn? 2 digits
  | digits => readIn? 10 digits

/-- The integer that the digits of a big integer literal spell behind an optional minus sign. -/
def bigintValue? (digits : String) : Option Int :=
  match digits.toList with
  | '-' :: rest => (magnitude? rest).map fun n : Nat => -(n : Int)
  | rest => (magnitude? rest).map fun n : Nat => (n : Int)

end TypeLint.Values

namespace TypeLint.Types

open Values

/-- The value of a literal type. -/
def LiteralValue.Denotes : LiteralValue → Value → Prop
  | string value, v => v = .string value
  | number value, v => v = .number value
  | bigint digits, v => ∃ n, bigintValue? digits = some n ∧ v = .bigint n
  | boolean value, v => v = .boolean value

/-- The values of the types of the keywords. -/
def Intrinsic.Holds : Intrinsic → Value → Prop
  | any, _ | unknown, _ => True
  | never, _ => False
  | void, v | undefined, v => v = .undefined
  | null, v => v = .null
  | string, v => ∃ value, v = .string value
  | number, v => ∃ value, v = .number value
  | bigint, v => ∃ value, v = .bigint value
  | symbol, v => ∃ name, v = .symbol name
  | object, v => ∃ address, v = .object address

end TypeLint.Types

namespace TypeLint.Values

open TypeLint.Types

/-- The value is one of a type. An optional property may have the value `undefined` besides those
    of its type. -/
inductive Inhabits (w : World) (s : Store) : Value → TypeId → Prop where
  | intrinsic {id : TypeId} {v : Value} {kind : Intrinsic}
      (h : s.lookup id = some (.intrinsic kind)) (hv : kind.Holds v) : Inhabits w s v id
  | literal {id : TypeId} {v : Value} {value : LiteralValue}
      (h : s.lookup id = some (.literal value)) (hv : value.Denotes v) : Inhabits w s v id
  | enumLiteral {id : TypeId} {v : Value} {enumName member : String} {value : LiteralValue}
      (h : s.lookup id = some (.enumLiteral enumName member value)) (hv : value.Denotes v) :
      Inhabits w s v id
  | uniqueSymbol {id : TypeId} {name : String}
      (h : s.lookup id = some (.uniqueSymbol name)) : Inhabits w s (.symbol name) id
  | free {id : TypeId} {v : Value} {name : String}
      (h : s.lookup id = some (.parameter name none)) : Inhabits w s v id
  | bounded {id : TypeId} {v : Value} {name : String} {bound : TypeId}
      (h : s.lookup id = some (.parameter name (some bound))) (hv : Inhabits w s v bound) :
      Inhabits w s v id
  | union {id : TypeId} {v : Value} {members : List TypeId} {m : TypeId}
      (h : s.lookup id = some (.union members)) (hm : m ∈ members) (hv : Inhabits w s v m) :
      Inhabits w s v id
  | intersection {id : TypeId} {v : Value} {members : List TypeId}
      (h : s.lookup id = some (.intersection members)) (hv : ∀ m ∈ members, Inhabits w s v m) :
      Inhabits w s v id
  | array {id : TypeId} {address : Nat} {element : TypeId}
      (h : s.lookup id = some (.array element)) : Inhabits w s (.object address) id
  | tuple {id : TypeId} {address : Nat} {elements : List TypeId}
      (h : s.lookup id = some (.tuple elements))
      (hv : ∀ (i : Nat) (element : TypeId), elements[i]? = some element →
        Inhabits w s (w.read (.object address) (toString i)) element) :
      Inhabits w s (.object address) id
  | object {id : TypeId} {address : Nat} {shape : ObjectShape}
      (h : s.lookup id = some (.object shape))
      (hv : ∀ name p, s.ownProperty? id name = some p →
        (p.optional = true → w.read (.object address) name ≠ .undefined) →
          Inhabits w s (w.read (.object address) name) p.type) :
      Inhabits w s (.object address) id

variable {w : World} {s s' : Store} {v : Value} {id : TypeId}

theorem Inhabits.known (h : Inhabits w s v id) : s.Known id := by
  cases h <;> exact Store.known_of_lookup ‹_›

theorem inhabits_intrinsic_iff {kind : Intrinsic} (h : s.lookup id = some (.intrinsic kind)) :
    Inhabits w s v id ↔ kind.Holds v := by
  refine ⟨fun hv => ?_, .intrinsic h⟩
  cases hv <;> simp_all

theorem inhabits_literal_iff {value : LiteralValue} (h : s.lookup id = some (.literal value)) :
    Inhabits w s v id ↔ value.Denotes v := by
  refine ⟨fun hv => ?_, .literal h⟩
  cases hv <;> simp_all

theorem inhabits_enumLiteral_iff {enumName member : String} {value : LiteralValue}
    (h : s.lookup id = some (.enumLiteral enumName member value)) :
    Inhabits w s v id ↔ value.Denotes v := by
  refine ⟨fun hv => ?_, .enumLiteral h⟩
  cases hv <;> simp_all

theorem inhabits_bounded_iff {name : String} {bound : TypeId}
    (h : s.lookup id = some (.parameter name (some bound))) :
    Inhabits w s v id ↔ Inhabits w s v bound := by
  refine ⟨fun hv => ?_, .bounded h⟩
  cases hv <;> simp_all

theorem inhabits_union_iff {members : List TypeId} (h : s.lookup id = some (.union members)) :
    Inhabits w s v id ↔ ∃ m ∈ members, Inhabits w s v m := by
  refine ⟨fun hv => ?_, fun ⟨_, hm, hv⟩ => .union h hm hv⟩
  cases hv with
  | union h' hm hv =>
    cases h.symm.trans h'
    exact ⟨_, hm, hv⟩
  | _ => simp_all

theorem inhabits_intersection_iff {members : List TypeId}
    (h : s.lookup id = some (.intersection members)) :
    Inhabits w s v id ↔ ∀ m ∈ members, Inhabits w s v m := by
  refine ⟨fun hv => ?_, .intersection h⟩
  cases hv <;> simp_all

theorem inhabits_iff_unionMembers :
    Inhabits w s v id ↔ ∃ part ∈ s.unionMembers id, Inhabits w s v part := by
  rw [Store.unionMembers]
  split
  · next members hdata => exact inhabits_union_iff hdata
  · simp

theorem inhabits_iff_intersectionMembers :
    Inhabits w s v id ↔ ∀ part ∈ s.intersectionMembers id, Inhabits w s v part := by
  rw [Store.intersectionMembers]
  split
  · next members hdata => exact inhabits_intersection_iff hdata
  · simp

/-- A type parameter has the values of its constraint. -/
theorem inhabits_constraintAfter_iff (steps : Nat) :
    Inhabits w s v (s.constraintAfter steps id) ↔ Inhabits w s v id := by
  induction steps generalizing id with
  | zero => exact Iff.rfl
  | succ steps ih =>
    rw [Store.constraintAfter]
    split
    · next bound hbound =>
      split_ifs
      · exact Iff.rfl
      · rw [Store.constraint?] at hbound
        split at hbound
        · next hdata => exact ih.trans (inhabits_bounded_iff (hbound ▸ hdata)).symm
        · cases hbound
    · exact Iff.rfl

theorem inhabits_baseConstraint_iff :
    Inhabits w s v (s.baseConstraint id) ↔ Inhabits w s v id :=
  inhabits_constraintAfter_iff _

theorem Inhabits.baseConstraint (h : Inhabits w s v id) :
    Inhabits w s v (s.baseConstraint id) :=
  inhabits_baseConstraint_iff.mpr h

end TypeLint.Values
