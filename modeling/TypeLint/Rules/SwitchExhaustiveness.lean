import TypeLint.Rule.Check
import TypeLint.Rules.Options
import TypeLint.Types.Printer

namespace TypeLint.Rules.SwitchExhaustiveness

open Syntax TypeLint.Types Text

/-- The description of the rule. -/
def info : RuleInfo where
  name := "switch-exhaustiveness-check"
  description := "Require switch statements over unions to be exhaustive"
  requiresTypes := true
  messages := [
    ("switchIsNotExhaustive", "Switch is not exhaustive. Cases not matched: \x7b0\x7d"),
    ("dangerousDefaultCase",
      "The switch statement is exhaustive, so the default case is unnecessary."),
    ("addMissingCases", "Add branches for missing cases.")]

/-- The options of the rule. -/
structure Options where
  /-- A switch that covers every member may have a default clause. -/
  allowDefaultCase : Bool
  /-- A switch over types with more than one value needs a default clause. -/
  requireDefault : Bool
  /-- A default clause covers the members that are missing. -/
  defaultIsExhaustive : Bool
  deriving DecidableEq, Repr

namespace Options

/-- The defaults. -/
def default : Options := ⟨true, false, true⟩

/-- The names of the fields in the order of their declaration. -/
def fieldNames : List String :=
  ["allowDefaultCaseForExhaustiveSwitch", "requireDefaultForNonUnion",
    "considerDefaultExhaustiveForUnions"]

/-- The options of a record. -/
def ofJson? (options : Json) : Option Options :=
  optionsOf? fieldNames default (fun fields => do
    let allowDefaultCase ←
      Json.field fields "allowDefaultCaseForExhaustiveSwitch" default.allowDefaultCase Json.bool?
    let requireDefault ←
      Json.field fields "requireDefaultForNonUnion" default.requireDefault Json.bool?
    let defaultIsExhaustive ←
      Json.field fields "considerDefaultExhaustiveForUnions" default.defaultIsExhaustive Json.bool?
    some ⟨allowDefaultCase, requireDefault, defaultIsExhaustive⟩) options

end Options

/-- What a switch covers and what it leaves out. -/
structure Coverage where
  discriminant : NodeRef
  caseBlock : NodeRef
  clauses : List NodeRef
  defaultClause : Option NodeRef
  /-- The enumeration that the discriminant's type belongs to. -/
  enumName : Option String
  /-- The parts with one value that no case has as its type. -/
  missing : List TypeId
  /-- A union part has no member with one value. -/
  hasOpenPart : Bool

/-- The clauses in a case block. -/
def clausesOf (t : Tree) (caseBlock : NodeRef) : List NodeRef :=
  ((t.get? caseBlock).bind Node.block?).getD []

/-- The types of the tests of some clauses and the last of those without a test, if there is
    one. -/
def caseTypes (t : Tree) : List NodeRef → Check (List TypeId × Option NodeRef)
  | [] => pure ([], none)
  | clause :: rest =>
    match (t.get? clause).bind Node.caseClause? with
    | none => caseTypes t rest
    | some data =>
      if data.expression.isNone then do
        let (types, default) ← caseTypes t rest
        return (types, default.or (some clause))
      else do
        let type ← Check.constrainedTypeAt data.expression
        let (types, default) ← caseTypes t rest
        return (type :: types, default)

/-- The parts of a type with one value that are not among the types of the cases. -/
def missingParts (s : Store) (type : TypeId) (cases : List TypeId) : List TypeId :=
  (s.atomicParts type).filter fun part => s.isLiteralLike part && !cases.contains part

/-- A union part of the type has no member with one value. -/
def hasOpenPart (s : Store) (type : TypeId) : Bool :=
  (s.unionMembers type).any fun part =>
    (s.intersectionMembers part).all fun member => !s.isLiteralLike member

/-- What a switch covers. -/
def coverage (r : NodeRef) : Check Coverage := do
  let t ← Check.tree
  let switch ← Check.orFail ((t.get? r).bind Node.switch?) (.unexpectedShape .switchStatement r)
  let s ← Check.store
  let type ← Check.constrainedTypeAt switch.expression
  let clauses := clausesOf t switch.caseBlock
  let (cases, default) ← caseTypes t clauses
  return {
    discriminant := switch.expression
    caseBlock := switch.caseBlock
    clauses := clauses
    defaultClause := default
    enumName := s.enumName? type
    missing := missingParts s type cases
    hasOpenPart := hasOpenPart s type }

/-- The type is a symbol. -/
def isSymbol (s : Store) (id : TypeId) : Bool := (s.flagsOf id).intersects .symbolLike

/-- A missing member in the message. -/
def shownMember (s : Store) (id : TypeId) : String :=
  match s.memberName? id with
  | some name => if isSymbol s id then "typeof " ++ name else s.text id
  | none => s.text id

/-- The name of a member between single quotes in brackets. -/
def escapeMember (name : String) : String :=
  String.ofList <|
    replaceAll ['\r'] ['\\', 'r'] <| replaceAll ['\n'] ['\\', 'n'] <|
      replaceAll ['\x27'] ['\\', '\x27'] name.toList

/-- A text between single quotes. -/
def escapeQuoted (text : String) : String :=
  String.ofList <|
    replaceAll ['\x27'] ['\\', '\x27'] <| replaceAll ['\\'] ['\\', '\\'] text.toList

/-- The expression whose value is the one of a symbol or of the printed type. -/
def plainTest (s : Store) (id : TypeId) : String :=
  match s.memberName? id with
  | some name => if isSymbol s id then name else s.text id
  | none => s.text id

/-- The test of a case for a missing member. A member of an enumeration whose name is no
    identifier is read by brackets. -/
def caseTest (s : Store) (target : ScriptTarget) (enumName : Option String) (id : TypeId) :
    String :=
  match enumName, s.memberName? id with
  | some enumName, some member =>
    if needsQuoting target member then enumName ++ "['" ++ escapeMember member ++ "']"
    else plainTest s id
  | _, _ => plainTest s id

/-- The clause for a missing member. -/
def caseCode (test : String) : String :=
  "case " ++ test ++ ": \x7b throw new Error('Not implemented yet: " ++ escapeQuoted test ++
    " case') \x7d"

/-- The default clause. -/
def defaultCode : String := "default: \x7b throw new Error('default case') \x7d"

/-- As many blanks as bytes stand in front of a node on its line. -/
def indentOf (f : SourceFile) (r : NodeRef) : String :=
  String.ofList (List.replicate (f.lineMap.position (f.range r).1).column ' ')

/-- Where a clause goes when there are others. -/
inductive Placement where
  | beforeLast
  | afterLast
  deriving DecidableEq, Repr

/-- The edit that puts a clause next to the last one, as far indented, or into an empty case
    block. -/
def insertClause (f : SourceFile) (r : NodeRef) (c : Coverage) (code : String)
    (placement : Placement) : TextEdit :=
  match c.clauses.getLast? with
  | some last =>
    let indent := indentOf f last
    match placement with
    | .beforeLast => f.insertBefore last (code ++ "\n" ++ indent)
    | .afterLast => f.insertAfter last ("\n" ++ indent ++ code)
  | none =>
    let indent := indentOf f r
    f.replace c.caseBlock ("\x7b\n" ++ indent ++ code ++ "\n" ++ indent ++ "\x7d")

/-- The fix that adds a case for a missing member. -/
def caseFix (f : SourceFile) (r : NodeRef) (c : Coverage) (test : String) : Fix :=
  ⟨"Add branch for \x60" ++ test ++ "\x60", [insertClause f r c (caseCode test) .beforeLast]⟩

/-- The fix that adds a default clause. -/
def defaultFix (f : SourceFile) (r : NodeRef) (c : Coverage) : Fix :=
  ⟨"Add a default clause", [insertClause f r c defaultCode .afterLast]⟩

/-- Reports the members that are missing, with a fix for each. -/
def missingReports (o : Options) (f : SourceFile) (s : Store) (target : ScriptTarget)
    (r : NodeRef) (c : Coverage) : List Report :=
  if c.missing.isEmpty || (c.defaultClause.isSome && o.defaultIsExhaustive) then []
  else
    let members := " | ".intercalate (c.missing.map (shownMember s))
    let report := (Report.new "switchIsNotExhaustive" (f.range c.discriminant)).arg members
    [{ report with
        fixes := c.missing.map fun id => caseFix f r c (caseTest s target c.enumName id) }]

/-- Reports a default clause that nothing is left for. -/
def defaultReports (o : Options) (f : SourceFile) (c : Coverage) : List Report :=
  match c.defaultClause with
  | some clause =>
    if !o.allowDefaultCase && c.missing.isEmpty && !c.hasOpenPart then
      [.new "dangerousDefaultCase" (f.range clause)]
    else []
  | none => []

/-- Reports that a default clause is missing. -/
def openReports (o : Options) (f : SourceFile) (r : NodeRef) (c : Coverage) : List Report :=
  if o.requireDefault && c.hasOpenPart && c.defaultClause.isNone then
    [((Report.new "switchIsNotExhaustive" (f.range c.discriminant)).arg "default").fix
      (defaultFix f r c)]
  else []

/-- Judges a switch. -/
def check (o : Options) (r : NodeRef) : Check (List Report) := do
  let f ← Check.file
  let c ← coverage r
  let s ← Check.store
  let options ← Check.options
  return missingReports o f s options.target r c ++ defaultReports o f c ++ openReports o f r c

/-- The rule. -/
def rule (o : Options) : Rule where
  info := info
  subscription := .kinds [.switchStatement]
  checkFile := pure []
  check := check o

/-- The rule with the given options, if it takes them. -/
def create (options : Json) : Option Rule := (Options.ofJson? options).map rule

end TypeLint.Rules.SwitchExhaustiveness
