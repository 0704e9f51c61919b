import TypeLint.Rule.Check
import TypeLint.Rules.Options
import TypeLint.Binding.Bind

namespace TypeLint.Rules.TypeAssertion

open Syntax TypeLint.Types Binding

/-- The description of the rule. -/
def info : RuleInfo where
  name := "no-unnecessary-type-assertion"
  description := "Disallow type assertions that do not change the type of an expression"
  requiresTypes := true
  messages := [("unnecessaryAssertion",
    "This assertion is unnecessary since it does not change the type of the expression.")]

/-- The options of the rule. -/
structure Options where
  /-- Type texts whose assertions are never reported. -/
  typesToIgnore : List String
  /-- Assertions to `const` are reported, too. -/
  checkLiteralConstAssertions : Bool
  deriving DecidableEq, Repr

namespace Options

/-- The defaults. -/
def default : Options := ⟨[], false⟩

/-- The options of a record. -/
def ofJson? (options : Json) : Option Options :=
  optionsOf? ["typesToIgnore", "checkLiteralConstAssertions"] default (fun fields => do
    let typesToIgnore ← Json.field fields "typesToIgnore" [] strings?
    let checkLiteralConstAssertions ←
      Json.field fields "checkLiteralConstAssertions" false Json.bool?
    some ⟨typesToIgnore, checkLiteralConstAssertions⟩) options

end Options

/-- A literal type of a string, number or big integer. -/
def isLiteral (s : Store) (id : TypeId) : Bool :=
  (s.flagsOf id).intersects (Flags.stringLiteral ∪ Flags.numberLiteral ∪ Flags.bigintLiteral)

/-- The union parts of a type that are not `undefined`. -/
def definedParts (s : Store) (id : TypeId) : List TypeId :=
  (s.unionMembers id).filter fun part => !(s.flagsOf part).contains .undefined

/-- The two types are the same. If optional properties are exact, `undefined` may be a part of both
    as long as the other parts agree. -/
def isUnchanged (s : Store) (options : CompilerOptions) (uncast cast : TypeId) : Bool :=
  uncast == cast ||
    (options.exactOptionalPropertyTypes && s.hasFlag uncast .undefined &&
      s.hasFlag cast .undefined &&
      (definedParts s uncast).length == (definedParts s cast).length &&
      (definedParts s cast).all fun part => (definedParts s uncast).contains part)

/-- The node is the initial value of a constant, which keeps the literal type of a value that is
    not a template with substitutions. -/
def keepsLiteralType (t : Tree) (r expression : NodeRef) : Bool :=
  let declaration := t.parent r
  t.kind? declaration == some .variableDeclaration &&
    TypeTable.isConstant t declaration && t.kind? expression != some .templateExpression

/-- Takes out the brackets in front of an operand and the type between them. -/
def removeBrackets (f : SourceFile) (typeNode : NodeRef) : Except RuleFailure TextEdit :=
  match f.tree.tokenBefore? typeNode fun n => n.kind == .lessThanToken with
  | none => .error (.missingToken "<" typeNode)
  | some opening =>
    match f.tree.tokenAfter? typeNode fun n => n.kind == .greaterThanToken with
    | none => .error (.missingToken ">" typeNode)
    | some closing => .ok (f.removeRange (f.range opening).1 (f.range closing).2)

/-- Takes out what follows an operand, but not a comment in front of the keyword. -/
def removeSuffix (f : SourceFile) (r expression : NodeRef) : Except RuleFailure TextEdit :=
  match f.tree.tokenAfter? expression fun n => n.kind == .asKeyword with
  | none => .error (.missingToken "as" r)
  | some keyword =>
    let operandEnd := (f.range expression).2
    let start :=
      match (f.leadingComments keyword).getLast? with
      | some comment => max comment.stop operandEnd
      | none => operandEnd
    .ok (f.removeRange start (f.range r).2)

/-- The edit that takes an assertion away from its operand. -/
def removal (f : SourceFile) (r : NodeRef) (kind : Kind) (a : Assertion) :
    Except RuleFailure TextEdit :=
  if kind = .typeAssertionExpression then removeBrackets f a.typeNode
  else removeSuffix f r a.expression

/-- The finding at an assertion. -/
def report (f : SourceFile) (r : NodeRef) (edit : TextEdit) : Report :=
  (Report.new "unnecessaryAssertion" (f.range r)).fix ⟨"Remove unnecessary type assertion", [edit]⟩

/-- The operand of an assertion has the asserted type and keeps it without the assertion. -/
def isUnnecessary (f : SourceFile) (t : Oracle) (r : NodeRef) (a : Assertion)
    (uncast cast : TypeId) : Bool :=
  isUnchanged t.store t.options uncast cast &&
    if isLiteral t.store cast then keepsLiteralType f.tree r a.expression
    else !TypeTable.isConstAssertion f.tree a

/-- Reports an unnecessary assertion. -/
def check (o : Options) (r : NodeRef) : Check (List Report) := do
  let f ← Check.file
  match f.tree.get? r with
  | none => return []
  | some n =>
    let a ← Check.orFail n.assertion? (.unexpectedShape n.kind r)
    if o.typesToIgnore.contains (f.nodeText a.typeNode) then return []
    else
      let t ← Check.oracle
      let cast ← Check.typeAt r
      if isLiteral t.store cast && TypeTable.isConstAssertion f.tree a &&
          !o.checkLiteralConstAssertions then
        return []
      else
        let uncast ← Check.typeAt a.expression
        if isUnnecessary f t r a uncast cast then
          match removal f r n.kind a with
          | .ok edit => return [report f r edit]
          | .error e => Check.fail e
        else return []

/-- The rule. -/
def rule (o : Options) : Rule where
  info := info
  subscription := .kinds [.asExpression, .typeAssertionExpression]
  checkFile := pure []
  check := check o

/-- The rule with the given options, if it takes them. -/
def create (options : Json) : Option Rule := (Options.ofJson? options).map rule

end TypeLint.Rules.TypeAssertion
