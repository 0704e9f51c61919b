import TypeLint.Rules.ExtraNonNullAssertion

namespace TypeLint.Rules.NonNullAssertion

open Syntax TypeLint.Types

/-- The description of the rule. -/
def info : RuleInfo where
  name := "no-unnecessary-non-null-assertion"
  description :=
    "Disallow non-null assertions that do not change the type of an expression"
  requiresTypes := true
  messages := [
    ("unnecessaryAssertion", "This assertion is unnecessary since it does not change the type " ++
      "of the expression."),
    ("contextuallyUnnecessary", "This assertion is unnecessary since the receiver accepts the " ++
      "original type of the expression.")]

/-- The finding at an assertion. -/
def reports (f : SourceFile) (r : NodeRef) (messageId : String) : Result (List Report) :=
  ExtraNonNullAssertion.reports f r messageId "Remove unnecessary non-null assertion"

/-- The plain assignment that the node is a side of. -/
def assignment? (t : Tree) (r : NodeRef) : Option Binary :=
  (t.binary? (t.parent r)).filter (·.operator == .equalsToken)

/-- The variable is declared with a type alone, so that only an assertion claims that a value has
    been assigned before it is read. -/
def isUnassigned (d : VariableDeclaration) : Bool :=
  d.initializer.isNone && !d.exclamation && d.typeAnnotation.isSome

/-- An identifier of a type may be read before a value has been assigned. One whose declaration is
    not known may be. -/
def mayBeUnassigned (tree : Tree) (t : Oracle) (identifier : NodeRef) (type : TypeId) : Bool :=
  match t.declarationOf? identifier with
  | none => true
  | some declaration =>
    t.options.strictNullChecks &&
      match tree.variableDeclaration? declaration with
      | none => false
      | some d => isUnassigned d && t.typeOfTypeNode? d.typeAnnotation == some type

/-- A place that expects a type takes those of the flags that the operand has. -/
def accepts (s : Store) (operand expected : TypeId) (flags : Flags) : Bool :=
  !s.hasFlag operand flags || s.hasFlag expected flags

/-- A place that expects a type takes the operand without the assertion. -/
def isAccepted (s : Store) (operand expected : TypeId) : Bool :=
  accepts s operand expected .unknown && accepts s operand expected .undefined &&
    accepts s operand expected .null && accepts s operand expected .void

/-- Reports an unnecessary assertion. In a plain assignment only the target is judged. -/
def check (r : NodeRef) : Check (List Report) := do
  let f ← Check.file
  let expression ←
    Check.orFail ((f.tree.get? r).bind Node.nonNull?) (.unexpectedShape .nonNullExpression r)
  match assignment? f.tree r with
  | some assignment =>
    if assignment.left = r then Check.lift (reports f r "contextuallyUnnecessary") else return []
  | none =>
    let t ← Check.oracle
    let operand ← Check.constrainedTypeAt expression
    if !t.store.isNullableLike operand then
      if f.tree.kind? expression = some .identifier &&
          mayBeUnassigned f.tree t expression operand then
        return []
      else Check.lift (reports f r "unnecessaryAssertion")
    else
      match t.contextualType? r with
      | none => return []
      | some expected =>
        if isAccepted t.store operand expected then
          Check.lift (reports f r "contextuallyUnnecessary")
        else return []

/-- The rule. -/
def rule : Rule where
  info := info
  subscription := .kinds [.nonNullExpression]
  checkFile := pure []
  check := check

/-- The rule with the given options, if it takes them. -/
def create (options : Json) : Option Rule := if noOptions options then some rule else none

end TypeLint.Rules.NonNullAssertion
