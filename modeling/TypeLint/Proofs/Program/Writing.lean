import Mathlib
import TypeLint.Program.Build

namespace TypeLint.Program

open Syntax

/-- A token with its fixed spelling. -/
def mark (lead : String) (kind : Kind) : Green :=
  .token lead kind ((kind.text?).getD "") .empty []

namespace Layout

/-- Where the writing stands behind a token. -/
def behind (l : Layout) (text : String) : Layout :=
  { l with pending := "", last := Writer.lastOf text (Writer.lastOf l.pending l.last) }

/-- Where the writing stands behind trivia. -/
def withTrivia (l : Layout) (text : String) : Layout :=
  { l with pending := l.pending ++ text, last := Writer.lastOf text l.last }

/-- What begins a line. -/
def lineStart (l : Layout) : String :=
  "\n" ++ String.ofList (List.replicate (4 * l.indent) ' ')

/-- Where a statement begins. -/
def begun (l : Layout) : Layout :=
  if l.continues then { l with continues := false }
  else if l.last.isSome then l.withTrivia l.lineStart
  else l

/-- One level deeper. -/
def deeper (l : Layout) : Layout := { l with indent := l.indent + 1 }

/-- One level less deep. -/
def shallower (l : Layout) : Layout := { l with indent := l.indent - 1 }

/-- The next statement continues the line, or does not. -/
def continuing (l : Layout) (continues : Bool) : Layout := { l with continues := continues }

/-- Behind a word and an opening parenthesis. -/
def head (l : Layout) (word : String) : Layout := ((l.behind word).withTrivia " ").behind "("

/-- Where a statement continues the line. -/
def inline (l : Layout) : Layout := (l.withTrivia " ").continuing true

/-- A text has been cut where it cannot be. -/
def noted (l : Layout) (text : String) : Layout := { l with cutText := l.cutText.or (some text) }

theorem continues_begun (l : Layout) : l.begun.continues = false := by
  obtain ⟨pending, last, indent, continues, cutText⟩ := l
  cases continues <;> cases last <;> rfl

theorem indent_begun (l : Layout) : l.begun.indent = l.indent := by
  obtain ⟨pending, last, indent, continues, cutText⟩ := l
  cases continues <;> cases last <;> rfl

theorem cutText_begun (l : Layout) : l.begun.cutText = l.cutText := by
  obtain ⟨pending, last, indent, continues, cutText⟩ := l
  cases continues <;> cases last <;> rfl

end Layout

namespace Writer

variable {α β : Type} (l : Layout)

theorem run_pure (a : α) : (pure a : Writer α).run l = (a, l) := rfl

theorem run_bind (w : Writer α) (next : α → Writer β) :
    (w >>= next).run l = (next (w.run l).1).run (w.run l).2 := rfl

theorem run_space : space.run l = ((), l.withTrivia " ") := rfl

theorem run_token (kind : Kind) :
    (token kind).run l = (mark l.pending kind, l.behind ((kind.text?).getD "")) := rfl

theorem run_identifier (name : String) :
    (identifier name).run l =
      (.token l.pending .identifier name (.identifier name) [], l.behind name) := rfl

theorem run_literal (kind : Kind) (text value : String) :
    (literal kind text value).run l =
      (.token l.pending kind text (.literal value) [], l.behind text) := rfl

theorem run_beginStatement : beginStatement.run l = ((), l.begun) := by
  obtain ⟨pending, last, indent, continues, cutText⟩ := l
  cases continues <;> cases last <;> rfl

theorem run_comment (text : String) :
    (comment text).run l = ((), l.begun.withTrivia text) := by
  rw [comment, run_bind, run_beginStatement]
  rfl

theorem run_comma :
    comma.run l = (mark l.pending .commaToken, (l.behind ",").withTrivia " ") := rfl

theorem run_indented (w : Writer α) :
    (indented w).run l = ((w.run l.deeper).1, (w.run l.deeper).2.shallower) := rfl

theorem run_inlined (w : Writer α) :
    (inlined w).run l =
      ((w.run ((l.withTrivia " ").continuing true)).1,
        (w.run ((l.withTrivia " ").continuing true)).2.continuing false) := rfl

/-- The contents of the token of a literal type. -/
def literalPayload (kind : Kind) (value : Option String) : Payload :=
  match kind with
  | .stringLiteral | .numericLiteral => .literal (value.getD "")
  | _ => .empty

theorem run_literalType (kind : Kind) (text : String) (value : Option String) :
    (literalType kind text value).run l =
      (branch .literalType (.wrappedType (some 0))
          [.token l.pending kind text (literalPayload kind value) []],
        if value.isNone then (l.behind text).noted text else l.behind text) := by
  cases value <;> rfl

/-- Braces around contents: the closing one has a line of its own unless there are none. -/
theorem run_braced (isEmpty : Bool) (contents : Writer (List Green)) :
    (braced isEmpty contents).run l =
      let inside := contents.run (l.behind "\x7b").deeper
      let before := if isEmpty then inside.2.shallower
        else inside.2.shallower.withTrivia inside.2.shallower.lineStart
      (mark l.pending .openBraceToken :: inside.1 ++ [mark before.pending .closeBraceToken],
        before.behind "\x7d") := by
  cases isEmpty <;> rfl

end Writer

/-- A prefix operator: a blank stands behind it if it is a keyword. -/
theorem run_prefixed (l : Layout) (operator : Kind) (e : Expr) :
    (Expr.prefixed operator e).write.run l =
      let before := l.behind ((operator.text?).getD "")
      let operand := e.write.run (if operator.isKeyword then before.withTrivia " " else before)
      (branch (if operator = .typeOfKeyword then .typeOfExpression else .prefixUnaryExpression)
          (.unary ⟨operator, some 1⟩) [mark l.pending operator, operand.1], operand.2) := by
  rw [Expr.write]
  cases operator.isKeyword <;> rfl

open Writer

/-- Writes `declare`, if it is asked for. -/
def writeDeclare (isDeclare : Bool) : Writer (List Green) :=
  if isDeclare then do
    let g ← token .declareKeyword
    space
    return [g]
  else return []

/-- Writes the mark of a variable that is declared as assigned, if it is asked for. -/
def writeDefinite (definite : Bool) : Writer (List Green) :=
  if definite then do
    let g ← token .exclamationToken
    return [g]
  else return []

/-- Writes the type of a variable, if there is one. -/
def writeDeclaredType : Option String → Writer (List Green)
  | none => return []
  | some text => do
    let colon ← token .colonToken
    space
    let type ← writeType text
    return [colon, type]

/-- A variable statement over its parts. -/
def variableNode (isDeclare : Bool) (kind : VariableKind) (definite : Bool)
    (declareWord : List Green) (keyword ident : Green) (marks annotation value : List Green)
    (semicolon : Green) : Green :=
  let children := ident :: (marks ++ annotation ++ value)
  let typePlace : NodeRef := if annotation.isEmpty then none else some (marks.length + 2)
  let valuePlace : NodeRef := if value.isEmpty then none else some (children.length - 1)
  let declaration := branch .variableDeclaration
    (.variableDeclaration ⟨some 0, definite, typePlace, valuePlace⟩) children
  let list := branch .variableDeclarationList (.variableList ⟨kind, [some 1]⟩)
    [keyword, declaration]
  branch .variableStatement
    (.variableStatement ⟨isDeclare, some declareWord.length⟩) (declareWord ++ [list, semicolon])

/-- A variable statement is written part by part. -/
theorem writeVariable_eq (isDeclare : Bool) (kind : VariableKind) (name : String)
    (definite : Bool) (typeText : Option String) (initializer : Writer (List Green)) :
    writeVariable isDeclare kind name definite typeText initializer = (do
      beginStatement
      let declareWord ← writeDeclare isDeclare
      let keyword ← token kind.keyword
      space
      let ident ← identifier name
      let marks ← writeDefinite definite
      let annotation ← writeDeclaredType typeText
      let value ← initializer
      let semicolon ← token .semicolonToken
      return variableNode isDeclare kind definite declareWord keyword ident marks annotation value
        semicolon) := by
  cases isDeclare <;> cases definite <;> cases typeText <;> rfl

end TypeLint.Program
