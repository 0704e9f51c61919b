import TypeLint.Rule.Check
import TypeLint.Rules.Options
import TypeLint.Text.CharRange
import TypeLint.Text.Search

namespace TypeLint.Rules.SuppressionComment

open Syntax Text

/-- The description of the rule. -/
def info : RuleInfo where
  name := "prefer-ts-expect-error"
  description := "Enforce using \x60@ts-expect-error\x60 over \x60@ts-ignore\x60"
  requiresTypes := false
  messages := [("preferExpectErrorComment",
    "Use \"@ts-expect-error\" to ensure an error is actually being suppressed.")]

/-- The directive that ignores errors. -/
def ignoreDirective : List Char := "@ts-ignore".toList

/-- The directive that expects an error. -/
def expectDirective : List Char := "@ts-expect-error".toList

/-- The part of a text behind its last line feed. -/
def lastLine (text : List Char) : List Char :=
  (text.reverse.takeWhile (· != '\n')).reverse

/-- The body of a line comment begins with the directive, behind at most one more slash. -/
def lineHasDirective (body : List Char) : Bool :=
  let rest := body.dropWhile isBlank
  let rest :=
    match rest with
    | '/' :: rest => rest
    | rest => rest
  ignoreDirective.isPrefixOf (rest.dropWhile isBlank)

/-- The last line of a block comment begins with the directive, behind slashes and stars. -/
def blockHasDirective (line : List Char) : Bool :=
  let rest := (line.dropWhile isBlank).dropWhile fun c => c == '/' || c == '*'
  ignoreDirective.isPrefixOf (rest.dropWhile isBlank)

/-- A comment with this body tells the compiler to ignore errors. -/
def isIgnoring (c : Comment) (body : String) : Bool :=
  if c.isMultiLine then blockHasDirective (lastLine body.toList) else lineHasDirective body.toList

/-- The comment with the other directive in place of the first one that its body spells. -/
def corrected (c : Comment) (body : String) : String :=
  let rewritten := String.ofList (replaceFirst ignoreDirective expectDirective body.toList)
  if c.isMultiLine then "/*" ++ rewritten ++ "*/" else "//" ++ rewritten

/-- The finding for a comment with a body. -/
def report (f : SourceFile) (c : Comment) (body : String) : Report :=
  (Report.new "preferExpectErrorComment" (c.pos, c.stop)).fix
    ⟨"Replace \"@ts-ignore\" with \"@ts-expect-error\"",
      [f.replaceRange c.pos c.stop (corrected c body)]⟩

/-- What is reported about a comment. -/
def reports (f : SourceFile) (c : Comment) : Result (List Report) := do
  let body ← c.body f.text
  return if isIgnoring c body then [report f c body] else []

/-- Reports those of some comments that are looked at for the first time and ignore errors. -/
def checkComments (f : SourceFile) : List Comment → Check (List Report)
  | [] => pure []
  | c :: rest => do
    let first ← Check.firstSight c.pos
    let here ← if first then Check.lift (reports f c) else pure []
    let others ← checkComments f rest
    return here ++ others

/-- Reports the comments in front of a node. A statement shares them with its first token. -/
def check (r : NodeRef) : Check (List Report) := do
  let f ← Check.file
  checkComments f (f.leadingComments r)

/-- The rule. -/
def rule : Rule where
  info := info
  subscription := .allNodes
  checkFile := pure []
  check := check

/-- The rule with the given options, if it takes them. -/
def create (options : Json) : Option Rule := if noOptions options then some rule else none

end TypeLint.Rules.SuppressionComment
