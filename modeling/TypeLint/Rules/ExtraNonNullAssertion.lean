import TypeLint.Rule.Check
import TypeLint.Rules.Options

namespace TypeLint.Rules.ExtraNonNullAssertion

open Syntax

/-- The description of the rule. -/
def info : RuleInfo where
  name := "no-extra-non-null-assertion"
  description := "Disallow extra non-null assertions"
  requiresTypes := false
  messages := [("noExtraNonNullAssertion", "Forbidden extra non-null assertion.")]

/-- What stands around an assertion makes it superfluous. -/
def isRedundant (r : NodeRef) (parent : Node) : Bool :=
  match parent.kind with
  | .nonNullExpression => true
  | .propertyAccessExpression | .elementAccessExpression =>
    (parent.access?.map fun a => a.expression == r && a.questionDot.isSome).getD false
  | .callExpression =>
    (parent.call?.map fun c => c.expression == r && c.questionDot.isSome).getD false
  | _ => false

/-- The finding at an assertion and the fix that takes out its last byte, the exclamation mark. In
    front of the end of a node that ends at the start of the text there is no offset. -/
def reports (f : SourceFile) (r : NodeRef) (messageId description : String) :
    Result (List Report) :=
  match f.range r with
  | (_, 0) => .error .panic
  | (start, last + 1) =>
    .ok [(Report.new messageId (start, last + 1)).fix
      ⟨description, [f.removeRange last (last + 1)]⟩]

/-- Reports a superfluous assertion. -/
def check (r : NodeRef) : Check (List Report) := do
  let f ← Check.file
  match f.tree.get? (f.tree.parent r) with
  | none => return []
  | some parent =>
    if isRedundant r parent then
      Check.lift (reports f r "noExtraNonNullAssertion" "Remove the extra \x60!\x60")
    else return []

/-- The rule. -/
def rule : Rule where
  info := info
  subscription := .kinds [.nonNullExpression]
  checkFile := pure []
  check := check

/-- The rule with the given options, if it takes them. -/
def create (options : Json) : Option Rule := if noOptions options then some rule else none

end TypeLint.Rules.ExtraNonNullAssertion
