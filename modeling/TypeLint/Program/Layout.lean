import TypeLint.Program.Basic
import TypeLint.Program.TypeText
import TypeLint.Syntax.Green

namespace TypeLint.Program

open Syntax

/-- Where the writing stands. -/
structure Layout where
  /-- What has been written since the last token. -/
  pending : String
  /-- The last character written. -/
  last : Option Char
  indent : Nat
  /-- The next statement continues the line. -/
  continues : Bool
  /-- A quoted type text whose contents could not be cut out. -/
  cutText : Option String

/-- The beginning of a file. -/
def Layout.start : Layout := ⟨"", none, 0, false, none⟩

/-- Writing from left to right. -/
abbrev Writer := StateM Layout

namespace Writer

/-- The last character of a text, or the one written before it. -/
def lastOf (text : String) (before : Option Char) : Option Char :=
  match text.toList.getLast? with
  | some c => some c
  | none => before

/-- Writes trivia. -/
def trivia (text : String) : Writer Unit :=
  modify fun l => { l with pending := l.pending ++ text, last := lastOf text l.last }

/-- Writes a blank. -/
def space : Writer Unit := trivia " "

/-- Begins a line at the current level. -/
def newline : Writer Unit := do
  let l ← get
  trivia ("\n" ++ String.ofList (List.replicate (4 * l.indent) ' '))

/-- Writes a token. -/
def spelled (kind : Kind) (text : String) (payload : Payload) : Writer Green := do
  let l ← get
  set { l with pending := "", last := lastOf text (lastOf l.pending l.last) }
  return .token l.pending kind text payload []

/-- Writes a token by its fixed spelling. -/
def token (kind : Kind) : Writer Green := spelled kind ((kind.text?).getD "") .empty

/-- Writes an identifier. -/
def identifier (name : String) : Writer Green := spelled .identifier name (.identifier name)

/-- Writes a literal with its contents. -/
def literal (kind : Kind) (text value : String) : Writer Green :=
  spelled kind text (.literal value)

/-- Goes to where a statement begins: behind the head that it continues, on a new line, or at the
    beginning of the file. -/
def beginStatement : Writer Unit := do
  let l ← get
  if l.continues then set { l with continues := false }
  else if l.last.isSome then newline

/-- Writes a comment where a statement would begin. -/
def comment (text : String) : Writer Unit := do
  beginStatement
  trivia text

/-- Writes a comma and a blank. -/
def comma : Writer Green := do
  let g ← token .commaToken
  space
  return g

/-- Writes with one more level of indentation. -/
def indented {α : Type} (w : Writer α) : Writer α := do
  modify fun l => { l with indent := l.indent + 1 }
  let a ← w
  modify fun l => { l with indent := l.indent - 1 }
  return a

/-- Writes a statement that continues the line. -/
def inlined {α : Type} (w : Writer α) : Writer α := do
  space
  modify fun l => { l with continues := true }
  let a ← w
  modify fun l => { l with continues := false }
  return a

/-- Writes braces around contents. Unless there are none, the closing brace has a line of its
    own. -/
def braced (isEmpty : Bool) (contents : Writer (List Green)) : Writer (List Green) := do
  let opening ← token .openBraceToken
  let items ← indented contents
  if !isEmpty then newline
  let closing ← token .closeBraceToken
  return opening :: items ++ [closing]

end Writer

open Writer

/-- A node over written children. -/
def branch (kind : Kind) (payload : Payload) (children : List Green) : Green :=
  .node kind 0 payload children []

/-- The places of a number of children from a first one on. -/
def places (first count : Nat) : List NodeRef := (List.range' first count).map some

/-- The places of a number of children with separators between them. -/
def evenPlaces (count : Nat) : List NodeRef := (List.range count).map fun i => some (2 * i)

/-- The places of the trees of a list that are not commas, when the first one has a given
    place. -/
def elementPlaces (offset : Nat) (items : List Green) : List NodeRef :=
  (items.zipIdx offset).filterMap fun (g, i) =>
    if g.kind == .commaToken then none else some (some i)

/-- The characters of a string literal: quotes, backslashes and line breaks are escaped. -/
def escapeStringChar (c : Char) : List Char :=
  if c == '\x27' then ['\\', '\x27']
  else if c == '\\' then ['\\', '\\']
  else if c == '\n' then ['\\', 'n']
  else if c == '\r' then ['\\', 'r']
  else [c]

/-- A string literal in single quotes. -/
def quoteString (value : String) : String :=
  String.ofList ('\x27' :: value.toList.flatMap escapeStringChar ++ ['\x27'])

/-- Writes a literal type; what cannot be cut out of its quotes is noted. -/
def literalType (kind : Kind) (text : String) (value : Option String) : Writer Green := do
  let payload : Payload :=
    match kind with
    | .stringLiteral | .numericLiteral => .literal (value.getD "")
    | _ => .empty
  let g ← spelled kind text payload
  if value.isNone then modify fun l => { l with cutText := l.cutText.or (some text) }
  return branch .literalType (.wrappedType (some 0)) [g]

mutual

/-- Writes a type. -/
def TypeText.write : TypeText → Writer Green
  | .keyword kind text => spelled kind text .empty
  | .literal kind text value => literalType kind text value
  | .name text => do
    let name ← identifier text
    return branch .typeReference (.typeName (some 0)) [name]
  | .array element => do
    let inner ← element.write
    let opening ← token .openBracketToken
    let closing ← token .closeBracketToken
    return branch .arrayType (.wrappedType (some 0)) [inner, opening, closing]
  | .union parts => do
    let items ← TypeText.writeParts .barToken parts
    return branch .unionType (.compositeType (evenPlaces parts.length)) items
  | .intersection parts => do
    let items ← TypeText.writeParts .ampersandToken parts
    return branch .intersectionType (.compositeType (evenPlaces parts.length)) items

/-- Writes the parts of a composite type with a separator between blanks in between. -/
def TypeText.writeParts (separator : Kind) : List TypeText → Writer (List Green)
  | [] => return []
  | [part] => do
    let g ← part.write
    return [g]
  | part :: rest => do
    let g ← part.write
    space
    let mark ← token separator
    space
    let gs ← TypeText.writeParts separator rest
    return g :: mark :: gs

end

/-- Writes the type that a text spells. -/
def writeType (text : String) : Writer Green := (TypeText.ofText text).write

/-- Writes the substitutions of a template behind its head. -/
def writeSpans : List (String × String) → Writer (List Green)
  | [] => return []
  | (name, text) :: rest => do
    let expression ← identifier name
    let tail ←
      if rest.isEmpty then literal .templateTail ("\x7d" ++ text ++ "\x60") text
      else literal .templateMiddle ("\x7d" ++ text ++ "$\x7b") text
    let spans ← writeSpans rest
    return branch .templateSpan (.templateSpan ⟨some 0, some 1⟩) [expression, tail] :: spans

/-- Writes parameters with commas between them. -/
def writeParameters : List String → Writer (List Green)
  | [] => return []
  | name :: rest => do
    let ident ← identifier name
    let parameter := branch .parameter (.parameter ⟨some 0, none⟩) [ident]
    if rest.isEmpty then return [parameter]
    else
      let separator ← comma
      let others ← writeParameters rest
      return parameter :: separator :: others

/-- Writes a parameter list in parentheses. -/
def writeParameterList (names : List String) : Writer (List Green) := do
  let opening ← token .openParenToken
  let parameters ← writeParameters names
  let closing ← token .closeParenToken
  return opening :: parameters ++ [closing]

/-- A member access, call or non-null assertion: a link of an optional chain if it is optional
    itself or continues one. -/
def chainNode (kind : Kind) (optional : Bool) (receiver : Green) (payload : Payload)
    (rest : List Green) : Green :=
  .node kind (if optional || receiver.isChainLink then optionalChainFlag else 0) payload
    (receiver :: rest) []

/-- The place of the `?.` token behind a receiver. -/
def questionDotPlace (optional : Bool) : NodeRef := if optional then some 1 else none

/-- Writes the `?.` of an optional step that has a bracket of its own. -/
def writeQuestionDot (optional : Bool) : Writer (List Green) := do
  if optional then
    let g ← token .questionDotToken
    return [g]
  else return []

/-- Writes the keyword, the type and what belongs to them of an assertion behind an expression. -/
def writeAssertion (kind keyword : Kind) (expression : Green) (typeText : String) :
    Writer Green := do
  space
  let word ← token keyword
  space
  let type ← writeType typeText
  return branch kind (.assertion ⟨some 0, some 2⟩) [expression, word, type]

/-- Writes a variable statement around an initial value that comes with its equals sign. -/
def writeVariable (isDeclare : Bool) (kind : VariableKind) (name : String) (definite : Bool)
    (typeText : Option String) (initializer : Writer (List Green)) : Writer Green := do
  beginStatement
  let declareWord ←
    if isDeclare then
      let g ← token .declareKeyword
      space
      pure [g]
    else pure []
  let keyword ← token kind.keyword
  space
  let ident ← identifier name
  let mark ←
    if definite then
      let g ← token .exclamationToken
      pure [g]
    else pure []
  let annotation ←
    match typeText with
    | none => pure []
    | some text => do
      let colon ← token .colonToken
      space
      let type ← writeType text
      pure [colon, type]
  let value ← initializer
  let children := ident :: mark ++ annotation ++ value
  let typePlace : NodeRef := if annotation.isEmpty then none else some (mark.length + 2)
  let valuePlace : NodeRef := if value.isEmpty then none else some (children.length - 1)
  let declaration := branch .variableDeclaration
    (.variableDeclaration ⟨some 0, definite, typePlace, valuePlace⟩) children
  let list := branch .variableDeclarationList (.variableList ⟨kind, [some 1]⟩)
    [keyword, declaration]
  let semicolon ← token .semicolonToken
  return branch .variableStatement
    (.variableStatement ⟨isDeclare, some declareWord.length⟩) (declareWord ++ [list, semicolon])

/-- Writes a block around statements. -/
def writeBlock (isEmpty : Bool) (statements : Writer (List Green)) : Writer Green := do
  let children ← braced isEmpty statements
  return branch .block (.block (places 1 (children.length - 2))) children

/-- A function over its parts, with the place of its first parameter. -/
def functionNode (kind : Kind) (offset : Nat) (parameters : List Green) (before : List Green)
    (after : List Green) : Green :=
  let children := before ++ parameters ++ after
  let inner := (parameters.drop 1).dropLast
  branch kind
    (.functionLike ⟨elementPlaces (offset + 1) inner, some (children.length - 1)⟩) children

mutual

/-- Writes an expression. -/
def Expr.write : Expr → Writer Green
  | .identifier name => Writer.identifier name
  | .string value => literal .stringLiteral (quoteString value) value
  | .number text => literal .numericLiteral text text
  | .bigint text => literal .bigIntLiteral text text
  | .template text => literal .noSubstitutionTemplateLiteral ("\x60" ++ text ++ "\x60") text
  | .substitution head spans => do
    let first ← literal .templateHead ("\x60" ++ head ++ "$\x7b") head
    let rest ← writeSpans spans
    return branch .templateExpression (.template ⟨some 0, places 1 rest.length⟩) (first :: rest)
  | .keyword kind => token kind
  | .paren e => do
    let opening ← token .openParenToken
    let inner ← e.write
    let closing ← token .closeParenToken
    return branch .parenthesizedExpression (.wrapped (some 1)) [opening, inner, closing]
  | .binary left operator right => do
    let l ← left.write
    space
    let mark ← token operator
    space
    let r ← right.write
    return branch .binaryExpression (.binary ⟨some 0, some 1, operator, some 2⟩) [l, mark, r]
  | .prefixed operator e => do
    let mark ← token operator
    if operator.isKeyword then space
    let operand ← e.write
    let kind : Kind :=
      if operator = .typeOfKeyword then .typeOfExpression else .prefixUnaryExpression
    return branch kind (.unary ⟨operator, some 1⟩) [mark, operand]
  | .postfixed e operator => do
    let operand ← e.write
    let mark ← token operator
    return branch .postfixUnaryExpression (.unary ⟨operator, some 0⟩) [operand, mark]
  | .nonNull e => do
    let inner ← e.write
    let mark ← token .exclamationToken
    return chainNode .nonNullExpression false inner (.wrapped (some 0)) [mark]
  | .property e optional name => do
    let receiver ← e.write
    let dot ← token (if optional then .questionDotToken else .dotToken)
    let ident ← Writer.identifier name
    return chainNode .propertyAccessExpression optional receiver
      (.access ⟨some 0, some 2, questionDotPlace optional⟩) [dot, ident]
  | .element e optional argument => do
    let receiver ← e.write
    let mark ← writeQuestionDot optional
    let opening ← token .openBracketToken
    let inner ← argument.write
    let closing ← token .closeBracketToken
    return chainNode .elementAccessExpression optional receiver
      (.access ⟨some 0, some (mark.length + 2), questionDotPlace optional⟩)
      (mark ++ [opening, inner, closing])
  | .call callee optional arguments => do
    let receiver ← callee.write
    let mark ← writeQuestionDot optional
    let opening ← token .openParenToken
    let items ← Expr.writeList arguments
    let closing ← token .closeParenToken
    return chainNode .callExpression optional receiver
      (.call ⟨some 0, elementPlaces (mark.length + 2) items, questionDotPlace optional⟩)
      (mark ++ opening :: items ++ [closing])
  | .conditional condition whenTrue whenFalse => do
    let c ← condition.write
    space
    let question ← token .questionToken
    space
    let t ← whenTrue.write
    space
    let colon ← token .colonToken
    space
    let f ← whenFalse.write
    return branch .conditionalExpression (.conditional ⟨some 0, some 2, some 4⟩)
      [c, question, t, colon, f]
  | .asType e typeText => do
    let inner ← e.write
    writeAssertion .asExpression .asKeyword inner typeText
  | .satisfiesType e typeText => do
    let inner ← e.write
    writeAssertion .satisfiesExpression .satisfiesKeyword inner typeText
  | .typeAssertion typeText e => do
    let opening ← token .lessThanToken
    let type ← writeType typeText
    let closing ← token .greaterThanToken
    let inner ← e.write
    return branch .typeAssertionExpression (.assertion ⟨some 3, some 1⟩)
      [opening, type, closing, inner]
  | .arrow parameters body => do
    let list ← writeParameterList parameters
    space
    let arrow ← token .equalsGreaterThanToken
    space
    let inner ← body.write
    return functionNode .arrowFunction 0 list [] [arrow, inner]
  | .arrowBlock parameters body => do
    let list ← writeParameterList parameters
    space
    let arrow ← token .equalsGreaterThanToken
    space
    let inner ← writeBlock body.isEmpty (Item.writeList body)
    return functionNode .arrowFunction 0 list [] [arrow, inner]
  | .function parameters body => do
    let word ← token .functionKeyword
    let list ← writeParameterList parameters
    space
    let inner ← writeBlock body.isEmpty (Item.writeList body)
    return functionNode .functionExpression 1 list [word] [inner]
  | .array items => do
    let opening ← token .openBracketToken
    let inner ← Expr.writeList items
    let closing ← token .closeBracketToken
    return branch .arrayLiteralExpression (.elements (elementPlaces 1 inner))
      (opening :: inner ++ [closing])
  | .emptyObject => do
    let opening ← token .openBraceToken
    let closing ← token .closeBraceToken
    return branch .objectLiteralExpression (.elements []) [opening, closing]
  | .commentBefore text e => do
    comment text
    e.write
  | .commentAfter e text => do
    let g ← e.write
    comment text
    return g
  | .emptyCall callee optional text => do
    let receiver ← callee.write
    let mark ← writeQuestionDot optional
    let opening ← token .openParenToken
    comment text
    let closing ← token .closeParenToken
    return chainNode .callExpression optional receiver
      (.call ⟨some 0, [], questionDotPlace optional⟩) (mark ++ [opening, closing])
  | .emptyArray text => do
    let opening ← token .openBracketToken
    comment text
    let closing ← token .closeBracketToken
    return branch .arrayLiteralExpression (.elements []) [opening, closing]
  | .typeNode text => writeType text
  | .labeled label e => do
    let g ← e.write
    return g.withLabel label

/-- Writes expressions with commas between them. -/
def Expr.writeList : List Expr → Writer (List Green)
  | [] => return []
  | [e] => do
    let g ← e.write
    return [g]
  | e :: rest => do
    let g ← e.write
    let separator ← comma
    let gs ← Expr.writeList rest
    return g :: separator :: gs

/-- Writes a statement. -/
def Stmt.write : Stmt → Writer Green
  | .expression e => do
    beginStatement
    let inner ← e.write
    let semicolon ← token .semicolonToken
    return branch .expressionStatement (.wrapped (some 0)) [inner, semicolon]
  | .variable kind name typeText => writeVariable false kind name false typeText (pure [])
  | .initialized kind name typeText initializer =>
    writeVariable false kind name false typeText do
      space
      let equals ← token .equalsToken
      space
      let value ← initializer.write
      return [equals, value]
  | .declared kind name typeText => writeVariable true kind name false (some typeText) (pure [])
  | .definite name typeText => writeVariable false .let name true (some typeText) (pure [])
  | .block body => do
    beginStatement
    writeBlock body.isEmpty (Item.writeList body)
  | .ifThen condition consequent => do
    beginStatement
    let word ← token .ifKeyword
    space
    let opening ← token .openParenToken
    let test ← condition.write
    let closing ← token .closeParenToken
    let body ← inlined consequent.write
    return branch .ifStatement (.ifStatement ⟨some 2, some 4, none⟩)
      [word, opening, test, closing, body]
  | .ifElse condition consequent alternative => do
    beginStatement
    let word ← token .ifKeyword
    space
    let opening ← token .openParenToken
    let test ← condition.write
    let closing ← token .closeParenToken
    let body ← inlined consequent.write
    space
    let elseWord ← token .elseKeyword
    let other ← inlined alternative.write
    return branch .ifStatement (.ifStatement ⟨some 2, some 4, some 6⟩)
      [word, opening, test, closing, body, elseWord, other]
  | .whileLoop condition body => do
    beginStatement
    let word ← token .whileKeyword
    space
    let opening ← token .openParenToken
    let test ← condition.write
    let closing ← token .closeParenToken
    let inner ← inlined body.write
    return branch .whileStatement (.loop ⟨none, some 2, none, some 4⟩)
      [word, opening, test, closing, inner]
  | .doLoop body condition => do
    beginStatement
    let word ← token .doKeyword
    let inner ← inlined body.write
    space
    let whileWord ← token .whileKeyword
    space
    let opening ← token .openParenToken
    let test ← condition.write
    let closing ← token .closeParenToken
    let semicolon ← token .semicolonToken
    return branch .doStatement (.loop ⟨none, some 4, none, some 1⟩)
      [word, inner, whileWord, opening, test, closing, semicolon]
  | .forever body => do
    beginStatement
    let word ← token .forKeyword
    space
    let opening ← token .openParenToken
    let first ← token .semicolonToken
    let second ← token .semicolonToken
    let closing ← token .closeParenToken
    let inner ← inlined body.write
    return branch .forStatement (.loop ⟨none, none, none, some 5⟩)
      [word, opening, first, second, closing, inner]
  | .forLoop condition body => do
    beginStatement
    let word ← token .forKeyword
    space
    let opening ← token .openParenToken
    let first ← token .semicolonToken
    space
    let test ← condition.write
    let second ← token .semicolonToken
    let closing ← token .closeParenToken
    let inner ← inlined body.write
    return branch .forStatement (.loop ⟨none, some 3, none, some 6⟩)
      [word, opening, first, test, second, closing, inner]
  | .switch e clauses => do
    beginStatement
    let word ← token .switchKeyword
    space
    let opening ← token .openParenToken
    let test ← e.write
    let closing ← token .closeParenToken
    space
    let children ← braced clauses.isEmpty (Clause.writeList clauses)
    let block := branch .caseBlock (.block (places 1 (children.length - 2))) children
    return branch .switchStatement (.switch ⟨some 2, some 4⟩)
      [word, opening, test, closing, block]
  | .breakOut => do
    beginStatement
    let word ← token .breakKeyword
    let semicolon ← token .semicolonToken
    return branch .breakStatement (.jump none) [word, semicolon]
  | .returned e => do
    beginStatement
    let word ← token .returnKeyword
    space
    let inner ← e.write
    let semicolon ← token .semicolonToken
    return branch .returnStatement (.jump (some 1)) [word, inner, semicolon]
  | .thrown e => do
    beginStatement
    let word ← token .throwKeyword
    space
    let inner ← e.write
    let semicolon ← token .semicolonToken
    return branch .throwStatement (.jump (some 1)) [word, inner, semicolon]
  | .commentBefore text s => do
    comment text
    s.write
  | .commentAfter s text => do
    let g ← s.write
    comment text
    return g
  | .labeled label s => do
    let g ← s.write
    return g.withLabel label

/-- Writes the entries of a list of statements. -/
def Item.writeList : List Item → Writer (List Green)
  | [] => return []
  | .comment text :: rest => do
    comment text
    Item.writeList rest
  | .statement s :: rest => do
    let g ← s.write
    let gs ← Item.writeList rest
    return g :: gs

/-- Writes the entries of the clauses of a switch. -/
def Clause.writeList : List Clause → Writer (List Green)
  | [] => return []
  | clause :: rest => do
    let g ← clause.write
    let gs ← Clause.writeList rest
    return g ++ gs

/-- Writes a clause, or a comment, which leaves no tree. -/
def Clause.write : Clause → Writer (List Green)
  | .comment text => do
    comment text
    return []
  | .caseOf e body => do
    beginStatement
    let word ← token .caseKeyword
    space
    let test ← e.write
    let colon ← token .colonToken
    let statements ← indented (Item.writeList body)
    return [branch .caseClause (.caseClause ⟨some 1, places 3 statements.length⟩)
      (word :: test :: colon :: statements)]
  | .default body => do
    beginStatement
    let word ← token .defaultKeyword
    let colon ← token .colonToken
    let statements ← indented (Item.writeList body)
    return [branch .defaultClause (.caseClause ⟨none, places 2 statements.length⟩)
      (word :: colon :: statements)]
  | .labeled label c => do
    let gs ← c.write
    return gs.map (Green.withLabel label)

end

end TypeLint.Program
