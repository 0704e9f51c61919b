import TypeLint.Proofs.Values.Basic
import TypeLint.Syntax.Query

namespace TypeLint.Values

open Syntax

namespace Value

/-- The two values are of one kind, within which loose equality converts nothing. -/
def sameKind : Value → Value → Bool
  | boolean _, boolean _ | number _, number _ | bigint _, bigint _ | string _, string _
  | symbol _, symbol _ | object _, object _ => true
  | _, _ => false

/-- The values are the same. Numbers are compared as numbers. -/
def strictlyEqual : Value → Value → Bool
  | number a, number b => a.numericEq b
  | a, b => a == b

/-- Loose equality, for which `null` and `undefined` are the same and differ from everything else;
    nothing if one of the values would be converted. -/
def looselyEqual? (a b : Value) : Option Bool :=
  if a.isNullish || b.isNullish then some (a.isNullish && b.isNullish)
  else if sameKind a b then some (strictlyEqual a b)
  else none

/-- The outcome of a comparison for being equal or different. -/
def compare? (operator : Kind) (a b : Value) : Option Bool :=
  match operator with
  | .equalsEqualsEqualsToken => some (strictlyEqual a b)
  | .exclamationEqualsEqualsToken => some !strictlyEqual a b
  | .equalsEqualsToken => looselyEqual? a b
  | .exclamationEqualsToken => (looselyEqual? a b).map not
  | _ => none

/-- The nullish value is equal to another one as the operator understands it. -/
def equalsNullish (operator : Kind) (nullish v : Value) : Bool :=
  if operator = .equalsEqualsToken ∨ operator = .exclamationEqualsToken then v.isNullish
  else v == nullish

/-- The operator asks for being equal and not for being different. -/
def asksEqual (operator : Kind) : Bool :=
  decide (operator = .equalsEqualsToken ∨ operator = .equalsEqualsEqualsToken)

variable {v n : Value}

theorem strictlyEqual_nullish (hn : n.isNullish = true) :
    strictlyEqual v n = (v == n) ∧ strictlyEqual n v = (v == n) := by
  rcases isNullish_iff.mp hn with rfl | rfl <;> cases v <;> exact ⟨rfl, rfl⟩

theorem looselyEqual?_nullish (hn : n.isNullish = true) :
    looselyEqual? v n = some v.isNullish ∧ looselyEqual? n v = some v.isNullish := by
  simp [looselyEqual?, hn]

/-- A comparison with a nullish value asks whether the other one is equal to it. -/
theorem compare?_nullish {operator : Kind} (hoperator : operator.isEqualityOperator = true)
    (hn : n.isNullish = true) :
    compare? operator v n = some (asksEqual operator == equalsNullish operator n v) ∧
      compare? operator n v = some (asksEqual operator == equalsNullish operator n v) := by
  obtain ⟨hstrict, hstrict'⟩ := strictlyEqual_nullish (v := v) hn
  obtain ⟨hloose, hloose'⟩ := looselyEqual?_nullish (v := v) hn
  unfold Kind.isEqualityOperator at hoperator
  split at hoperator
  · simp [compare?, asksEqual, equalsNullish, hloose, hloose']
  · simp [compare?, asksEqual, equalsNullish, hloose, hloose']
  · simp [compare?, asksEqual, equalsNullish, hstrict, hstrict']
  · simp [compare?, asksEqual, equalsNullish, hstrict, hstrict']
  · cases hoperator

theorem isNullish_of_equalsNullish {operator : Kind} (hn : n.isNullish = true)
    (h : equalsNullish operator n v = true) : v.isNullish = true := by
  rw [equalsNullish] at h
  split_ifs at h
  · exact h
  · rwa [beq_iff_eq.mp h]

end Value

/-- The value of an operand where the tested expression has a value: that of `null`, that of
    `undefined`, or that of the expression itself. -/
def operandValue? (t : Tree) (tested : NodeRef) (v : Value) (operand : NodeRef) : Option Value :=
  (t.skipParentheses operand).toOption.bind fun operand =>
    if t.isNullLiteral operand then some .null
    else if t.isUndefinedIdentifier operand then some .undefined
    else if t.nodesEqual operand tested = .ok true then some v
    else none

/-- The outcome of a condition for a value of the expression that it tests. -/
inductive Decides (t : Tree) (tested : NodeRef) (v : Value) : NodeRef → Bool → Prop where
  | comparison {r inner : NodeRef} {b : Binary} {left right : Value} {outcome : Bool}
      (hinner : t.skipParentheses r = .ok inner) (hb : t.binary? inner = some b)
      (hleft : operandValue? t tested v b.left = some left)
      (hright : operandValue? t tested v b.right = some right)
      (houtcome : Value.compare? b.operator left right = some outcome) :
      Decides t tested v r outcome
  | or {r inner : NodeRef} {b : Binary} {left right : Bool}
      (hinner : t.skipParentheses r = .ok inner) (hb : t.binary? inner = some b)
      (hoperator : b.operator = .barBarToken)
      (hleft : Decides t tested v b.left left) (hright : Decides t tested v b.right right) :
      Decides t tested v r (left || right)
  | and {r inner : NodeRef} {b : Binary} {left right : Bool}
      (hinner : t.skipParentheses r = .ok inner) (hb : t.binary? inner = some b)
      (hoperator : b.operator = .ampersandAmpersandToken)
      (hleft : Decides t tested v b.left left) (hright : Decides t tested v b.right right) :
      Decides t tested v r (left && right)

variable {t : Tree} {tested r : NodeRef} {v : Value} {outcome outcome' : Bool}

/-- A condition has one outcome. -/
theorem Decides.unique (h : Decides t tested v r outcome) (h' : Decides t tested v r outcome') :
    outcome = outcome' := by
  induction h generalizing outcome' with
  | comparison hinner hb hleft hright houtcome =>
    cases h' with
    | comparison hinner' hb' hleft' hright' houtcome' =>
      cases hinner.symm.trans hinner'
      cases hb.symm.trans hb'
      cases hleft.symm.trans hleft'
      cases hright.symm.trans hright'
      exact Option.some.inj (houtcome.symm.trans houtcome')
    | or hinner' hb' hoperator | and hinner' hb' hoperator =>
      cases hinner.symm.trans hinner'
      cases hb.symm.trans hb'
      rw [hoperator] at houtcome
      cases houtcome
  | or hinner hb hoperator _ _ ihleft ihright =>
    cases h' with
    | comparison hinner' hb' _ _ houtcome =>
      cases hinner.symm.trans hinner'
      cases hb.symm.trans hb'
      rw [hoperator] at houtcome
      cases houtcome
    | or hinner' hb' _ hleft' hright' =>
      cases hinner.symm.trans hinner'
      cases hb.symm.trans hb'
      rw [ihleft hleft', ihright hright']
    | and hinner' hb' hoperator' =>
      cases hinner.symm.trans hinner'
      cases hb.symm.trans hb'
      cases hoperator.symm.trans hoperator'
  | and hinner hb hoperator _ _ ihleft ihright =>
    cases h' with
    | comparison hinner' hb' _ _ houtcome =>
      cases hinner.symm.trans hinner'
      cases hb.symm.trans hb'
      rw [hoperator] at houtcome
      cases houtcome
    | or hinner' hb' hoperator' =>
      cases hinner.symm.trans hinner'
      cases hb.symm.trans hb'
      cases hoperator.symm.trans hoperator'
    | and hinner' hb' _ hleft' hright' =>
      cases hinner.symm.trans hinner'
      cases hb.symm.trans hb'
      rw [ihleft hleft', ihright hright']

end TypeLint.Values
