import TypeLint.Rule.Check
import TypeLint.Rules.Options

namespace TypeLint.Rules.NullishCoalescing

open Syntax TypeLint.Types

/-- The description of the rule. -/
def info : RuleInfo where
  name := "prefer-nullish-coalescing"
  description :=
    "Enforce using the nullish coalescing operator instead of logical or and ternaries"
  requiresTypes := true
  messages := [
    ("preferNullishOverOr", "Prefer using nullish coalescing operator (\x60??\x60) instead of a " ++
      "logical or (\x60||\x60), as it is a safer operator."),
    ("preferNullishOverTernary", "Prefer using nullish coalescing operator (\x60??\x60) instead " ++
      "of a ternary expression, as it is simpler to read."),
    noStrictNullCheck]

/-- The description of the fixes. -/
def fixDescription : String := "Fix to nullish coalescing operator (\x60??\x60)."

/-- The primitive types whose falsy values `||` is meant to pass over. -/
structure PrimitiveKinds where
  bigint : Bool
  boolean : Bool
  number : Bool
  string : Bool
  deriving DecidableEq, Repr

namespace PrimitiveKinds

/-- All of them or none. -/
def all (value : Bool) : PrimitiveKinds := ⟨value, value, value, value⟩

/-- The names of the fields in the order of their declaration. -/
def fieldNames : List String := ["bigint", "boolean", "number", "string"]

/-- The kinds of a record without other fields, or one truth value for all of them. -/
def ofJson? (value : Json) : Option PrimitiveKinds :=
  match value with
  | .bool value => some (all value)
  | _ => do
    let fields ← value.record? fieldNames
    if !fields.all fun (name, _) => fieldNames.contains name then none
    let bigint ← Json.field fields "bigint" false Json.bool?
    let boolean ← Json.field fields "boolean" false Json.bool?
    let number ← Json.field fields "number" false Json.bool?
    let string ← Json.field fields "string" false Json.bool?
    some ⟨bigint, boolean, number, string⟩

/-- The flags of the types that a union may not have if it is to be reported. -/
def flags (k : PrimitiveKinds) : Flags :=
  (if k.bigint then .bigintLike else .empty) ∪
    (if k.boolean then .booleanLiteral else .empty) ∪
    (if k.number then .numberLike else .empty) ∪
    (if k.string then .stringLike else .empty)

end PrimitiveKinds

/-- The options of the rule. -/
structure Options where
  /-- Conditions of statements and of conditional expressions are left alone. -/
  ignoreConditionalTests : Bool
  /-- Conditional expressions are left alone. -/
  ignoreTernaryTests : Bool
  /-- Expressions that are mixed with `&&` are left alone. -/
  ignoreMixedLogicalExpressions : Bool
  ignorePrimitives : PrimitiveKinds
  allowWithoutStrictNullChecks : Bool
  deriving DecidableEq, Repr

namespace Options

/-- The defaults. -/
def default : Options := ⟨true, false, false, .all false, false⟩

/-- The names of the fields in the order of their declaration. -/
def fieldNames : List String :=
  ["ignoreConditionalTests", "ignoreTernaryTests", "ignoreMixedLogicalExpressions",
    "ignorePrimitives", "allowRuleToRunWithoutStrictNullChecksIKnowWhatIAmDoing"]

/-- The options of a record. -/
def ofJson? (options : Json) : Option Options :=
  optionsOf? fieldNames default (fun fields => do
    let ignoreConditionalTests ←
      Json.field fields "ignoreConditionalTests" default.ignoreConditionalTests Json.bool?
    let ignoreTernaryTests ←
      Json.field fields "ignoreTernaryTests" default.ignoreTernaryTests Json.bool?
    let ignoreMixedLogicalExpressions ←
      Json.field fields "ignoreMixedLogicalExpressions" default.ignoreMixedLogicalExpressions
        Json.bool?
    let ignorePrimitives ←
      Json.field fields "ignorePrimitives" default.ignorePrimitives PrimitiveKinds.ofJson?
    let allowWithoutStrictNullChecks ←
      Json.field fields "allowRuleToRunWithoutStrictNullChecksIKnowWhatIAmDoing"
        default.allowWithoutStrictNullChecks Json.bool?
    some ⟨ignoreConditionalTests, ignoreTernaryTests, ignoreMixedLogicalExpressions,
      ignorePrimitives, allowWithoutStrictNullChecks⟩) options

end Options

/-- An operand that would be grouped differently next to `??`, or could not stand there, without
    parentheses. -/
def needsParentheses (t : Tree) (operand : NodeRef) : Bool :=
  match t.kind? operand with
  | some .conditionalExpression | some .arrowFunction => true
  | _ =>
    match t.binaryOperator? operand with
    | some operator =>
      operator.isLogicalOperator || operator.isAssignmentOperator || operator == .commaToken
    | none => false

/-- The operator is `&&` or `||`. -/
def isAndOr (operator : Kind) : Bool :=
  operator == .ampersandAmpersandToken || operator == .barBarToken

/-- The condition that a statement or a conditional expression tests. -/
def condition? (n : Node) : Option NodeRef :=
  match n.kind with
  | .ifStatement => n.ifStatement?.map (·.expression)
  | .conditionalExpression => n.conditional?.map (·.condition)
  | .whileStatement | .doStatement | .forStatement => n.loop?.map (·.condition)
  | _ => none

/-- Going up from a node through its ancestors leads out of a condition before it leads out of a
    function. -/
def isInCondition (t : Tree) : NodeRef → List NodeRef → Bool
  | _, [] => false
  | child, ancestor :: rest =>
    match t.get? ancestor with
    | none => false
    | some n =>
      if n.kind = .arrowFunction || n.kind = .functionExpression then false
      else condition? n == some child || isInCondition t ancestor rest

/-- The expression stands in a condition, at any depth but inside the same function. -/
def isConditionalTest (t : Tree) (r : NodeRef) : Bool := isInCondition t r (t.ancestors r)

/-- What a logical expression is connected with through parentheses: its operands and the
    expression around it, the one that is looked at first in front. -/
def neighbours (t : Tree) (r : NodeRef) : Result (List NodeRef) := do
  let operands ←
    match t.binary? r with
    | some b => [b.right, b.left].mapM t.skipParentheses
    | none => .ok []
  return operands ++ [t.parent (t.walkUpParentheses r)]

/-- An expression with `&&` can be reached from those on the list through expressions with `||`
    that have not been seen. `fuel` bounds the number of steps. -/
def reachesAnd (t : Tree) : Nat → List NodeRef → List NodeRef → Result Bool
  | 0, _, _ => .error .endless
  | _, _, [] => .ok false
  | fuel + 1, seen, r :: rest =>
    if seen.contains r then reachesAnd t fuel seen rest
    else
      match t.binaryOperator? r with
      | some .ampersandAmpersandToken => .ok true
      | some .barBarToken => do
        let next ← neighbours t r
        reachesAnd t fuel (r :: seen) (next ++ rest)
      | _ => reachesAnd t fuel (r :: seen) rest

/-- An expression with `&&` is connected with this one through expressions with `||`. Every node
    puts at most three others on the list, once. -/
def isMixedLogical (t : Tree) (r : NodeRef) : Result Bool := do
  let next ← neighbours t r
  reachesAnd t (3 * (t.size + 2)) [r] next

/-- The type has a union part of one of the kinds that are passed over. -/
def isIgnored (s : Store) (k : PrimitiveKinds) (id : TypeId) : Bool :=
  !k.flags.isEmpty && s.flagsOf id != .null && s.flagsOf id != .undefined &&
    (s.unionMembers id).any fun part => s.hasFlag part k.flags

/-- Parentheses around an operand that needs them: the edits in front of it and behind it. -/
def parenthesize (f : SourceFile) (operand : NodeRef) : List TextEdit :=
  if needsParentheses f.tree operand then
    [f.insertBefore operand "(", f.insertAfter operand ")"]
  else []

/-- The edits that turn `||` into `??`. The two do not mix without parentheses. -/
def coalesceEdits (f : SourceFile) (r operator : NodeRef) (b : Binary) : List TextEdit :=
  let inLogical :=
    match f.tree.binaryOperator? (f.tree.parent r) with
    | some operator => isAndOr operator
    | none => false
  (if inLogical then [f.insertBefore r "("] else []) ++ parenthesize f b.left ++
    [f.replace operator "??"] ++ parenthesize f b.right ++
    (if inLogical then [f.insertAfter r ")"] else [])

/-- The expression is left alone because of the options. -/
def isExempt (o : Options) (t : Tree) (s : Store) (r : NodeRef) (leftType : TypeId) :
    Result Bool :=
  if o.ignoreConditionalTests && isConditionalTest t r then .ok true
  else do
    let mixed ← if o.ignoreMixedLogicalExpressions then isMixedLogical t r else .ok false
    return mixed || isIgnored s o.ignorePrimitives leftType

/-- Judges an expression `a || b`. -/
def checkLogicalOr (o : Options) (r : NodeRef) : Check (List Report) := do
  let f ← Check.file
  match (f.tree.binary? r).filter (·.operator == .barBarToken) with
  | none => return []
  | some b =>
    let s ← Check.store
    let leftType ← Check.typeAt b.left
    if !s.isNullable leftType then return []
    else
      let exempt ← Check.lift (isExempt o f.tree s r leftType)
      if exempt then return []
      else
        let operator ←
          Check.orFail (f.tree.tokenAfter? b.left fun n => n.kind == .barBarToken)
            (.missingToken "||" r)
        return [(Report.new "preferNullishOverOr" (f.range operator)).fix
          ⟨fixDescription, coalesceEdits f r operator b⟩]

/-- The comparison that two comparisons make that are joined by `||` or `&&`: those of the first
    must be for being equal and those of the second for being different. It is strict if both
    are. -/
def combined? (logical left right : Kind) : Option Kind :=
  let make (strict loose : Kind) : Option Kind :=
    if left == strict && right == strict then some strict
    else if (left == strict || left == loose) && (right == strict || right == loose) then
      some loose
    else none
  match logical with
  | .barBarToken => make .equalsEqualsEqualsToken .equalsEqualsToken
  | .ampersandAmpersandToken => make .exclamationEqualsEqualsToken .exclamationEqualsToken
  | _ => none

/-- The operands that a condition compares, and the comparison. -/
def comparison? (t : Tree) (b : Binary) : Option (List NodeRef × Kind) :=
  if b.operator.isEqualityOperator then some ([b.left, b.right], b.operator)
  else do
    let left ← t.binary? b.left
    let right ← t.binary? b.right
    let operator ← combined? b.operator left.operator right.operator
    some ([left.left, left.right, right.left, right.right], operator)

/-- The comparison is one for being equal. -/
def isPositive (operator : Kind) : Bool :=
  operator == .equalsEqualsToken || operator == .equalsEqualsEqualsToken

/-- The comparison does not tell `null` and `undefined` apart. -/
def isLoose (operator : Kind) : Bool :=
  operator == .equalsEqualsToken || operator == .exclamationEqualsToken

/-- What the operands of a condition are: the last of them that is the tested value, and whether
    `null` and `undefined` are among them. -/
structure Tested where
  value : Option NodeRef
  null : Bool
  undefined : Bool
  deriving DecidableEq, Repr

/-- Sorts the operands of a condition; nothing if one of them is neither `null` nor `undefined` nor
    equal to the expected value. -/
def tested? (t : Tree) (expected : NodeRef) : Tested → List NodeRef → Result (Option Tested)
  | found, [] => .ok (some found)
  | found, operand :: rest => do
    let operand ← t.skipParentheses operand
    if t.isNullLiteral operand then tested? t expected { found with null := true } rest
    else if t.isUndefinedIdentifier operand then
      tested? t expected { found with undefined := true } rest
    else
      let equal ← t.nodesEqual operand expected
      if equal then tested? t expected { found with value := some operand } rest else return none

/-- A strict comparison with only one of `null` and `undefined` is enough for a type that does not
    have the other one. -/
def strictTestSuffices (s : Store) (undefinedTested : Bool) (id : TypeId) : Bool :=
  !s.hasFlag id .anyOrUnknown && !s.hasFlag id (if undefinedTested then .null else .undefined)

/-- The condition tests for being nullish. -/
def testsNullish (operator : Kind) (found : Tested) (value : NodeRef) : Check Bool := do
  if found.undefined == found.null then return found.undefined
  else if isLoose operator then return true
  else
    let s ← Check.store
    let id ← Check.typeAt value
    return strictTestSuffices s found.undefined id

/-- The text of an operand of `??`, in parentheses if it needs them. -/
def operandText (f : SourceFile) (r : NodeRef) : String :=
  if needsParentheses f.tree r then "(" ++ f.nodeText r ++ ")" else f.nodeText r

/-- The finding at a conditional expression. -/
def ternaryReport (f : SourceFile) (r value fallback : NodeRef) : Report :=
  let text := operandText f value ++ " ?? " ++ operandText f fallback
  (Report.new "preferNullishOverTernary" (f.range r)).fix ⟨fixDescription, [f.replace r text]⟩

/-- Judges a conditional expression. -/
def checkTernary (r : NodeRef) : Check (List Report) := do
  let f ← Check.file
  let t := f.tree
  match (t.get? r).bind Node.conditional? with
  | none => return []
  | some c =>
    let test ← Check.lift (t.skipParentheses c.condition)
    match (t.binary? test).bind (comparison? t) with
    | none => return []
    | some (operands, operator) =>
      let whenTrue ← Check.lift (t.skipParentheses c.whenTrue)
      let whenFalse ← Check.lift (t.skipParentheses c.whenFalse)
      let (value, fallback) :=
        if isPositive operator then (c.whenFalse, c.whenTrue) else (c.whenTrue, c.whenFalse)
      let expected := if isPositive operator then whenFalse else whenTrue
      let tested ← Check.lift (tested? t expected ⟨none, false, false⟩ operands)
      match tested with
      | none => return []
      | some found =>
        match found.value with
        | none => return []
        | some identifier =>
          let fixable ← testsNullish operator found identifier
          if fixable then return [ternaryReport f r value fallback] else return []

/-- Judges a logical or conditional expression. -/
def check (o : Options) (r : NodeRef) : Check (List Report) := do
  let t ← Check.tree
  match t.kind? r with
  | some .binaryExpression => checkLogicalOr o r
  | some .conditionalExpression => if o.ignoreTernaryTests then return [] else checkTernary r
  | _ => return []

/-- The rule. -/
def rule (o : Options) : Rule where
  info := info
  subscription := .kinds [.binaryExpression, .conditionalExpression]
  checkFile := requireStrictNullChecks o.allowWithoutStrictNullChecks
  check := check o

/-- The rule with the given options, if it takes them. -/
def create (options : Json) : Option Rule := (Options.ofJson? options).map rule

end TypeLint.Rules.NullishCoalescing
