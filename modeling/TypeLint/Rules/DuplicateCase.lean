import TypeLint.Rule.Check
import TypeLint.Rules.Options

namespace TypeLint.Rules.DuplicateCase

open Syntax

/-- The description of the rule. -/
def info : RuleInfo where
  name := "no-duplicate-case"
  description := "Disallow duplicate case labels"
  requiresTypes := false
  messages := [("unexpected", "Duplicate case label.")]

/-- The clauses of a switch. -/
def clauses? (t : Tree) (r : NodeRef) : Option (List NodeRef) := do
  let switch ← (t.get? r).bind Node.switch?
  (t.get? switch.caseBlock).bind Node.block?

/-- The test of a case clause. -/
def test? (t : Tree) (clause : NodeRef) : Option NodeRef := do
  let data ← (t.get? clause).bind Node.caseClause?
  if data.expression.isSome then some data.expression else none

/-- The clauses among some whose test has the same tokens as one of the tests before, which are
    kept in order but for repeated ones. -/
def duplicates (f : SourceFile) : List NodeRef → List NodeRef → List NodeRef
  | _, [] => []
  | earlier, clause :: rest =>
    match test? f.tree clause with
    | none => duplicates f earlier rest
    | some test =>
      if earlier.any fun e => f.tokensEqual e test then clause :: duplicates f earlier rest
      else duplicates f (earlier ++ [test]) rest

/-- Reports the repeated cases of a switch. -/
def check (r : NodeRef) : Check (List Report) := do
  let f ← Check.file
  match clauses? f.tree r with
  | none => return []
  | some clauses =>
    return (duplicates f [] clauses).map fun clause => .new "unexpected" (f.range clause)

/-- The rule. -/
def rule : Rule where
  info := info
  subscription := .kinds [.switchStatement]
  checkFile := pure []
  check := check

/-- The rule with the given options, if it takes them. -/
def create (options : Json) : Option Rule := if noOptions options then some rule else none

end TypeLint.Rules.DuplicateCase
