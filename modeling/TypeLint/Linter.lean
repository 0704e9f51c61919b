import TypeLint.Rule.Check
import TypeLint.Text.Quoted

namespace TypeLint

open Syntax

/-- A rule and how serious its findings are. -/
structure ConfiguredRule where
  rule : Rule
  category : Category

/-- The rules that a file is held to. -/
structure Linter where
  rules : List ConfiguredRule

/-- Why a file cannot be linted. -/
inductive LintError where
  /-- These rules ask for types, and nothing is known about types. -/
  | oracleUnavailable (rules : List String)
  deriving DecidableEq, Repr

/-- The wording of an error. -/
def LintError.message : LintError → String
  | .oracleUnavailable rules =>
    "rules [" ++ ", ".intercalate (rules.map Text.quoted) ++
      "] need type information but no type oracle was provided"

/-- The range and the fixes of a finding lie in a text of `length` bytes. -/
def Diagnostic.fits (d : Diagnostic) (length : Nat) : Bool :=
  d.start ≤ d.stop && d.stop ≤ length &&
    d.fixes.all fun fix => (fix.validate length).isOk

/-- The findings that reports of the rule about a file become. Those that do not fit into the text
    are dropped. -/
def ConfiguredRule.findings (rule : ConfiguredRule) (file : SourceFile) (reports : List Report) :
    List Diagnostic :=
  (reports.map (rule.rule.info.diagnostic file.fileName rule.category)).filter
    fun d => d.fits (Text.byteLength file.text)

/-- A rule at work on a file, with the comments that it has looked at. -/
structure Visitor where
  rule : ConfiguredRule
  seen : List Nat

namespace Visitor

/-- Runs a check of the rule. What the check reports before it gives up does not count; a crash
    ends everything. -/
def run (v : Visitor) (check : Check (List Report)) (file : SourceFile)
    (oracle : Option Oracle) : Result (List Diagnostic × Visitor × Option Oracle) :=
  match check.run file ⟨oracle, v.seen⟩ with
  | (.ok reports, m) => .ok (v.rule.findings file reports, { v with seen := m.seen }, m.oracle)
  | (.error (.failure _), m) => .ok ([], { v with seen := m.seen }, m.oracle)
  | (.error (.crash c), _) => .error c

/-- How often the rule is called for a node of a kind because of this kind. -/
def kindCalls (v : Visitor) (kind : Kind) : Nat :=
  match v.rule.rule.subscription with
  | .kinds kinds => kinds.count kind
  | .allNodes => 0

/-- How often the rule is called for any node. -/
def nodeCalls (v : Visitor) : Nat :=
  match v.rule.rule.subscription with
  | .kinds _ => 0
  | .allNodes => 1

/-- Runs a check of the rule a number of times. -/
def repeatRun (check : Check (List Report)) (file : SourceFile) :
    Nat → Visitor → Option Oracle → Result (List Diagnostic × Visitor × Option Oracle)
  | 0, v, oracle => .ok ([], v, oracle)
  | times + 1, v, oracle => do
    let (first, v, oracle) ← v.run check file oracle
    let (rest, v, oracle) ← repeatRun check file times v oracle
    return (first ++ rest, v, oracle)

/-- Work of rules: what they find, how they are left, and the oracle with the types made on the
    way. -/
abbrev Work : Type :=
  List Visitor → Option Oracle → Result (List Diagnostic × List Visitor × Option Oracle)

namespace Work

/-- Nothing is done. -/
def nothing : Work := fun vs oracle => .ok ([], vs, oracle)

/-- What rules do together, and then what they do as they are left. -/
def andThen (work next : Work) : Work := fun vs oracle => do
  let (here, vs, oracle) ← work vs oracle
  let (behind, vs, oracle) ← next vs oracle
  return (here ++ behind, vs, oracle)

end Work

/-- Runs a check of each of the rules as often as `times` says. -/
def runAll (times : Visitor → Nat) (check : Rule → Check (List Report)) (file : SourceFile) : Work
  | [], oracle => .ok ([], [], oracle)
  | v :: vs, oracle => do
    let (first, v, oracle) ← repeatRun (check v.rule.rule) file (times v) v oracle
    let (rest, vs, oracle) ← runAll times check file vs oracle
    return (first ++ rest, v :: vs, oracle)

/-- Hands a node to the rules. -/
def visit (file : SourceFile) (r : NodeRef) : Work :=
  match file.tree.kind? r with
  | none => .nothing
  | some kind =>
    (runAll (·.kindCalls kind) (·.check r) file).andThen (runAll nodeCalls (·.check r) file)

/-- Hands nodes to the rules one after the other. -/
def walk (file : SourceFile) : List NodeRef → Work
  | [] => .nothing
  | r :: rest => (visit file r).andThen (walk file rest)

/-- Has the rules look at the file and then at its nodes. -/
def lookAt (file : SourceFile) : Work :=
  (runAll (fun _ => 1) Rule.checkFile file).andThen
    (walk file (file.tree.preorder file.root))

end Visitor

namespace Linter

/-- The names of the rules. -/
def ruleNames (l : Linter) : List String := l.rules.map (·.rule.info.name)

/-- The names of the rules that ask for types. -/
def typedRules (l : Linter) : List String :=
  (l.rules.filter (·.rule.info.requiresTypes)).map (·.rule.info.name)

/-- The rules before they have looked at anything. -/
def visitors (l : Linter) : List Visitor := l.rules.map fun rule => ⟨rule, []⟩

/-- Lints a file: the rules look at the file as a whole and at its nodes in document order, and the
    findings come in the order of their starts. The oracle comes back with the types made on the
    way. -/
def lint (l : Linter) (file : SourceFile) (oracle : Option Oracle) :
    Result (Except LintError (List Diagnostic × Option Oracle)) :=
  if oracle.isNone && !l.typedRules.isEmpty then
    return .error (.oracleUnavailable l.typedRules)
  else do
    let (found, _, oracle) ← Visitor.lookAt file l.visitors oracle
    return .ok (found.mergeSort fun a b => a.start ≤ b.start, oracle)

end Linter

end TypeLint
