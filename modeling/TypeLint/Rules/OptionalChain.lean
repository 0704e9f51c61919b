import TypeLint.Rules.MemberNullability
import TypeLint.Rules.Options

namespace TypeLint.Rules.OptionalChain

open Syntax TypeLint.Types MemberNullability

/-- The description of the rule. -/
def info : RuleInfo where
  name := "no-unnecessary-optional-chain"
  description := "Disallow optional chains on values that are never nullish"
  requiresTypes := true
  messages := [("neverOptionalChain", "Unnecessary optional chain on a non-nullish value.")]

/-- The nullishness of an expression is its own and not that of what it reads from. -/
def isOwnNullish (r : NodeRef) : Check Bool := do
  let t ← Check.tree
  match t.kind? r with
  | some .propertyAccessExpression | some .elementAccessExpression => do
    let inherited ← memberInheritsNullish r
    return !inherited
  | some .callExpression => do
    let inherited ← callInheritsNullish r
    return !inherited
  | _ => return true

/-- A receiver may be nullish: it may have any value, or it is nullish on its own account. -/
def mayBeNullish (r : NodeRef) : Check Bool := do
  let s ← Check.store
  let id ← Check.constrainedTypeAt r
  if s.isAnyOrUnknown id then return true
  else
    let own ← isOwnNullish r
    return own && s.isNullableLike id

/-- What stands in place of the optional step: a point in a property access, and nothing in front
    of brackets and parentheses. -/
def plainStep (kind : Option Kind) : String :=
  if kind = some .propertyAccessExpression then "." else ""

/-- The finding at the token of an optional step. -/
def report (f : SourceFile) (r token : NodeRef) : Report :=
  (Report.new "neverOptionalChain" (f.range token)).fix
    ⟨"Remove unnecessary optional chain", [f.replace token (plainStep (f.tree.kind? r))]⟩

/-- Reports an unnecessary optional step. -/
def check (r : NodeRef) : Check (List Report) := do
  let f ← Check.file
  match chainLink? f.tree r with
  | none | some (_, false) => return []
  | some (receiver, true) =>
    let readsIndex ← optionalStepReadsIndex r
    if readsIndex then return []
    else
      let optionable ← mayBeNullish receiver
      if optionable then return []
      else
        let token ←
          Check.orFail (f.tree.tokenAfter? receiver fun n => n.kind == .questionDotToken)
            (.missingToken "?." r)
        return [report f r token]

/-- The rule. -/
def rule : Rule where
  info := info
  subscription :=
    .kinds [.propertyAccessExpression, .elementAccessExpression, .callExpression]
  checkFile := pure []
  check := check

/-- The rule with the given options, if it takes them. -/
def create (options : Json) : Option Rule := if noOptions options then some rule else none

end TypeLint.Rules.OptionalChain
