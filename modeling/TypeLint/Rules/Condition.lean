import TypeLint.Rules.Comparison
import TypeLint.Rules.MemberNullability
import TypeLint.Rules.Options

namespace TypeLint.Rules.Condition

open Syntax TypeLint.Types MemberNullability

/-- The description of the rule. -/
def info : RuleInfo where
  name := "no-unnecessary-condition"
  description := "Disallow conditionals whose type makes them always truthy or always falsy"
  requiresTypes := true
  messages := [
    ("alwaysTruthy", "Unnecessary conditional, value is always truthy."),
    ("alwaysFalsy", "Unnecessary conditional, value is always falsy."),
    ("alwaysTruthyFunc",
      "This callback should return a conditional, but return is always truthy."),
    ("alwaysFalsyFunc",
      "This callback should return a conditional, but return is always falsy."),
    ("neverNullish", "Unnecessary conditional, expected left-hand side of \x60??\x60 operator " ++
      "to be possibly null or undefined."),
    ("alwaysNullish", "Unnecessary conditional, left-hand side of \x60??\x60 operator is always " ++
      "\x60null\x60 or \x60undefined\x60."),
    ("literalBooleanExpression",
      "Unnecessary conditional, both sides of the expression are literal values."),
    ("literalComparisonResult", "Unnecessary conditional, both sides of the expression are " ++
      "literal values, so the comparison is always \x7b0\x7d."),
    ("noOverlapBooleanExpression", "Unnecessary conditional, the types have no overlap."),
    ("never", "Unnecessary conditional, value is \x60never\x60."),
    noStrictNullCheck]

/-- The options of the rule. -/
structure Options where
  /-- Loops over the condition `true` are fine. -/
  allowConstantLoopConditions : Bool
  allowWithoutStrictNullChecks : Bool
  deriving DecidableEq, Repr

namespace Options

/-- The defaults. -/
def default : Options := ⟨false, false⟩

/-- The name of the field that lets a rule run without strict null checks. -/
def withoutStrictField : String :=
  "allowRuleToRunWithoutStrictNullChecksIKnowWhatIAmDoing"

/-- The options of a record. -/
def ofJson? (options : Json) : Option Options :=
  optionsOf? ["allowConstantLoopConditions", withoutStrictField] default (fun fields => do
    let allowConstantLoopConditions ←
      Json.field fields "allowConstantLoopConditions" false Json.bool?
    let allowWithoutStrictNullChecks ← Json.field fields withoutStrictField false Json.bool?
    some ⟨allowConstantLoopConditions, allowWithoutStrictNullChecks⟩) options

end Options

/-- The types that are never judged: they may stand for any type. -/
def unjudged : Flags := Flags.anyOrUnknown ∪ Flags.typeParameter

/-- The message about a condition of a type, if its outcome follows. A condition under a negation
    has the opposite outcome. -/
def truthVerdict? (s : Store) (negated : Bool) (id : TypeId) : Option String :=
  if s.hasFlag id unjudged then none
  else if s.hasFlag id .never then some "never"
  else if !s.isPossiblyTruthy id then some (if negated then "alwaysTruthy" else "alwaysFalsy")
  else if !s.isPossiblyFalsy id then some (if negated then "alwaysFalsy" else "alwaysTruthy")
  else none

/-- The report of a message at a node, if there is a message. -/
def reportAt (f : SourceFile) (r : NodeRef) (messageId : Option String) : List Report :=
  match messageId with
  | some id => [.new id (f.range r)]
  | none => []

/-- The operand of a negation. -/
def negated? (n : Node) : Option NodeRef := do
  let u ← n.unary?
  if n.kind = .prefixUnaryExpression && u.operator = .exclamationToken then some u.operand
  else none

/-- The right operand of a logical expression with `&&` or `||`. -/
def logicalRight? (n : Node) : Option NodeRef := do
  let b ← n.binary?
  if b.operator = .ampersandAmpersandToken || b.operator = .barBarToken then some b.right
  else none

/-- Judges a condition, with at most a number of negations and logical expressions around what is
    judged in the end. -/
def checkConditionTo : Nat → NodeRef → Bool → Check (List Report)
  | 0, _, _ => Check.crash .endless
  | depth + 1, r, negated => do
    let f ← Check.file
    let r ← Check.lift (f.tree.skipParentheses r)
    match f.tree.get? r with
    | none => return []
    | some n =>
      match negated? n with
      | some operand => checkConditionTo depth operand true
      | none =>
        let options ← Check.options
        let skipped ← if options.noUncheckedIndexedAccess then pure false else readsIndex r
        if skipped then return []
        else
          match logicalRight? n with
          | some right => checkConditionTo depth right false
          | none =>
            let s ← Check.store
            let id ← Check.constrainedTypeAt r
            return reportAt f r (truthVerdict? s negated id)

/-- Judges a condition. More levels than there are nodes come by a node twice, and then there is no
    end to them. -/
def checkCondition (r : NodeRef) : Check (List Report) := do
  let t ← Check.tree
  checkConditionTo (t.size + 1) r false

/-- An expression may be nullish although its type does not say so. -/
def mayBeNullishAnyway (r : NodeRef) : Check Bool := do
  let t ← Check.tree
  let index ← readsIndex r
  if index then return true
  else
    let chain ←
      if t.satisfies Node.isOptionalChain r then optionalStepReadsIndex r else pure false
    if chain then return true else memberMayBeMissing r

/-- Judges the left operand of `??` or `??=`. -/
def checkNullish (r : NodeRef) : Check (List Report) := do
  let f ← Check.file
  let r ← Check.lift (f.tree.skipParentheses r)
  let s ← Check.store
  let id ← Check.constrainedTypeAt r
  if s.hasFlag id unjudged then return []
  else if s.hasFlag id .never then return [.new "never" (f.range r)]
  else if !s.isPossiblyNullish id then
    let anyway ← mayBeNullishAnyway r
    if anyway then return [] else return [.new "neverNullish" (f.range r)]
  else if s.isAlwaysNullish id then return [.new "alwaysNullish" (f.range r)]
  else return []

/-- A type with only one value. -/
def isLiteralOperand (s : Store) (id : TypeId) : Bool :=
  [TypeId.trueLiteral, TypeId.falseLiteral, TypeId.undefined, TypeId.null, TypeId.void].contains id
    || (s.flagsOf id).intersects (Flags.stringLiteral ∪ Flags.numberLiteral ∪ Flags.bigintLiteral)

/-- A type has a part with one of the flags, or one that may stand for any type. Loose equality
    does not tell the nullish types apart. -/
def isComparable (s : Store) (operator : Kind) (flags : Flags) (id : TypeId) : Bool :=
  let loose := operator == .equalsEqualsToken || operator == .exclamationEqualsToken
  s.hasFlag id (flags ∪ unjudged ∪ if loose then Flags.nullable ∪ Flags.void else .empty)

/-- One side of a comparison is `undefined` or `null`, and the other one cannot be. -/
def hasNoOverlap (s : Store) (operator : Kind) (left right : TypeId) : Bool :=
  let undefinedOrVoid := Flags.undefined ∪ Flags.void
  (left == TypeId.undefined && !isComparable s operator undefinedOrVoid right) ||
    (right == TypeId.undefined && !isComparable s operator undefinedOrVoid left) ||
    (left == TypeId.null && !isComparable s operator .null right) ||
    (right == TypeId.null && !isComparable s operator .null left)

/-- The report on a comparison of two literal values, which tells the result if it is known. -/
def literalReport (f : SourceFile) (r : NodeRef) (result : Option Bool) : Report :=
  let report := Report.new "literalBooleanExpression" (f.range r)
  match result with
  | some value =>
    report.withText
      (info.message "literalComparisonResult" [if value then "true" else "false"])
  | none => report

/-- Judges a comparison. -/
def checkComparison (r : NodeRef) (b : Binary) : Check (List Report) := do
  let f ← Check.file
  let s ← Check.store
  let left ← Check.constrainedTypeAt b.left
  let right ← Check.constrainedTypeAt b.right
  if isLiteralOperand s left && isLiteralOperand s right then
    return [literalReport f r (Comparison.evaluate? s b.operator left right)]
  else
    let options ← Check.options
    if options.strictNullChecks && hasNoOverlap s b.operator left right then
      return [.new "noOverlapBooleanExpression" (f.range r)]
    else return []

/-- The methods of arrays whose callback returns a condition. -/
def arrayPredicates : List String :=
  ["filter", "find", "findIndex", "findLast", "findLastIndex", "some", "every"]

/-- The object of a property access by the name of an array predicate. -/
def predicateObject? (t : Tree) (r : NodeRef) : Option NodeRef := do
  let n ← t.get? r
  let access ← if n.kind = .propertyAccessExpression then n.access? else none
  let name ← t.identifierText? access.nameOrArgument
  if arrayPredicates.contains name then some access.expression else none

/-- The one thing that a function consists of. -/
inductive FunctionResult where
  /-- There is no function or nothing to be said about what it returns. -/
  | unknown
  /-- The function has no body. -/
  | missing
  /-- The function does nothing but return the value of an expression. -/
  | expression (r : NodeRef)

/-- What the only statement of a block returns. -/
def onlyReturn? (t : Tree) : List NodeRef → Option NodeRef
  | [statement] => do
    let n ← t.get? statement
    let e ← if n.kind = .returnStatement then n.jump? else none
    if e.isSome then some e else none
  | _ => none

/-- What a callback returns, read off its body. -/
def functionResult (t : Tree) (callback : NodeRef) : FunctionResult :=
  match (t.get? callback).bind Node.functionLike? with
  | none => .unknown
  | some function =>
    match t.get? function.body with
    | none => .missing
    | some body =>
      match body.block? with
      | none => .expression function.body
      | some statements =>
        match onlyReturn? t statements with
        | some e => .expression e
        | none => .unknown

/-- The message about a callback with these return types, if the outcome follows from them. -/
def callbackVerdict? (s : Store) (returns : List TypeId) : Option String :=
  if returns.isEmpty || returns.any s.isAnyOrUnknown then none
  else if !returns.any s.isPossiblyFalsy then some "alwaysTruthyFunc"
  else if !returns.any s.isPossiblyTruthy then some "alwaysFalsyFunc"
  else none

/-- Judges the callback of an array predicate. -/
def checkArrayPredicate (r : NodeRef) : Check (List Report) := do
  let f ← Check.file
  match (f.tree.get? r).bind Node.call? with
  | none => return []
  | some call =>
    match call.arguments.head?, predicateObject? f.tree call.expression with
    | some callback, some object =>
      let s ← Check.store
      let objectType ← Check.constrainedTypeAt object
      if !s.isArrayOrTuple objectType then return []
      else
        match functionResult f.tree callback with
        | .missing => return []
        | .expression e => checkCondition e
        | .unknown =>
          let callbackType ← Check.constrainedTypeAt callback
          return reportAt f callback (callbackVerdict? s (s.allCallReturns callbackType))
    | _, _ => return []

/-- Judges a binary expression by its operator. -/
def checkBinary (r : NodeRef) (b : Binary) : Check (List Report) :=
  match b.operator with
  | .questionQuestionToken | .questionQuestionEqualsToken => checkNullish b.left
  | .ampersandAmpersandToken | .barBarToken | .ampersandAmpersandEqualsToken
  | .barBarEqualsToken => checkCondition b.left
  | operator =>
    if operator.isEqualityOperator || operator.isRelationalOperator then checkComparison r b
    else pure []

/-- Judges the condition of a loop, if it has one. -/
def checkLoop (o : Options) (l : Loop) : Check (List Report) := do
  if l.condition.isNone then return []
  else
    let constant ←
      if o.allowConstantLoopConditions then do
        let id ← Check.constrainedTypeAt l.condition
        pure (id == TypeId.trueLiteral)
      else pure false
    if constant then return [] else checkCondition l.condition

/-- Applies a check to a payload, if there is one. -/
def onSome {α : Type} (value : Option α) (check : α → Check (List Report)) :
    Check (List Report) :=
  match value with
  | some a => check a
  | none => pure []

/-- Judges what is tested at a node. -/
def check (o : Options) (r : NodeRef) : Check (List Report) := do
  let t ← Check.tree
  match t.get? r with
  | none => return []
  | some n =>
    match n.kind with
    | .ifStatement => onSome n.ifStatement? fun s => checkCondition s.expression
    | .conditionalExpression => onSome n.conditional? fun c => checkCondition c.condition
    | .whileStatement | .doStatement | .forStatement => onSome n.loop? (checkLoop o)
    | .binaryExpression => onSome n.binary? (checkBinary r)
    | .callExpression => checkArrayPredicate r
    | _ => return []

/-- The rule. -/
def rule (o : Options) : Rule where
  info := info
  subscription :=
    .kinds [.ifStatement, .conditionalExpression, .whileStatement, .doStatement, .forStatement,
      .binaryExpression, .callExpression]
  checkFile := requireStrictNullChecks o.allowWithoutStrictNullChecks
  check := check o

/-- The rule with the given options, if it takes them. -/
def create (options : Json) : Option Rule := (Options.ofJson? options).map rule

end TypeLint.Rules.Condition
