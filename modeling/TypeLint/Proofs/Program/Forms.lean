import TypeLint.Proofs.Emission.Spots
import TypeLint.Proofs.Program.Writing

namespace TypeLint.Syntax.Kind

/-- The kind is one of tokens that are always spelled the same. -/
def isFixed (k : Kind) : Bool := k.text?.isSome

theorem isToken_of_isFixed {k : Kind} (h : k.isFixed = true) : k.isToken = true := by
  cases k <;> first | rfl | cases h

end TypeLint.Syntax.Kind

namespace TypeLint.Program

open Syntax

/-- The kinds of tokens with contents between marks that belong to the token. -/
def enclosedKinds : List Kind := [.stringLiteral, .templateHead, .templateMiddle, .templateTail]

/-- The tokens of a layout whose keywords and operators are some of the given kinds. -/
inductive TokenForm (marks : Kind → Bool) : Kind → String → Payload → Prop
  | fixed (kind : Kind) (h : marks kind = true) :
    TokenForm marks kind ((kind.text?).getD "") .empty
  | identifier (name : String) : TokenForm marks .identifier name (.identifier name)
  | number (kind : Kind) (text : String) (h : kind = .numericLiteral ∨ kind = .bigIntLiteral) :
    TokenForm marks kind text (.literal text)
  | template (text : String) :
    TokenForm marks .noSubstitutionTemplateLiteral ("\x60" ++ text ++ "\x60") (.literal text)
  | enclosed (kind : Kind) (text value : String) (h : kind ∈ enclosedKinds) :
    TokenForm marks kind text (.literal value)

/-- The flags of a link of a chain. -/
def chainFlags (optional : Bool) (receiver : Green) : Nat :=
  if optional || receiver.isChainLink then optionalChainFlag else 0

/-- The token of an optional step, if it is one. -/
def questionDots (lead : String) (optional : Bool) : List Green :=
  if optional then [mark lead .questionDotToken] else []

/-- The kinds of the nodes of a type. -/
def isTypePart (kind : Kind) : Bool :=
  kind.isToken ||
    [.literalType, .typeReference, .arrayType, .unionType, .intersectionType].contains kind

/-- A tree that stands for a type. -/
def IsType (g : Green) : Prop := g.Every fun g => isTypePart g.kind = true

/-- A token that is an identifier. -/
def IsName (g : Green) : Prop :=
  ∃ lead name labels, g = .token lead .identifier name (.identifier name) labels

/-- The nodes of a layout. -/
inductive Form : Kind → Nat → Payload → List Green → Prop
  | literalType (literal : Green) : Form .literalType 0 (.wrappedType (some 0)) [literal]
  | typeReference (name : Green) : Form .typeReference 0 (.typeName (some 0)) [name]
  | arrayType (element opening closing : Green) :
    Form .arrayType 0 (.wrappedType (some 0)) [element, opening, closing]
  | compositeType (kind : Kind) (h : kind = .unionType ∨ kind = .intersectionType) (count : Nat)
      (items : List Green) (hitems : items.length = 2 * count + 1) :
    Form kind 0 (.compositeType (evenPlaces (count + 1))) items
  | templateSpan (expression tail : Green) :
    Form .templateSpan 0 (.templateSpan ⟨some 0, some 1⟩) [expression, tail]
  | template (head : Green) (spans : List Green) :
    Form .templateExpression 0 (.template ⟨some 0, places 1 spans.length⟩) (head :: spans)
  | parameter (name : Green) : Form .parameter 0 (.parameter ⟨some 0, none⟩) [name]
  | paren (inner : Green) (lead lead' : String) :
    Form .parenthesizedExpression 0 (.wrapped (some 1))
      [mark lead .openParenToken, inner, mark lead' .closeParenToken]
  | binary (left right : Green) (lead : String) (operator : Kind) :
    Form .binaryExpression 0 (.binary ⟨some 0, some 1, operator, some 2⟩)
      [left, mark lead operator, right]
  | prefixed (kind : Kind) (h : kind = .typeOfExpression ∨ kind = .prefixUnaryExpression)
      (operator : Kind) (token operand : Green) :
    Form kind 0 (.unary ⟨operator, some 1⟩) [token, operand]
  | postfixed (operator : Kind) (operand token : Green) :
    Form .postfixUnaryExpression 0 (.unary ⟨operator, some 0⟩) [operand, token]
  | nonNull (inner : Green) (lead : String) :
    Form .nonNullExpression (chainFlags false inner) (.wrapped (some 0))
      [inner, mark lead .exclamationToken]
  | property (receiver name : Green) (optional : Bool) (lead : String) (hname : IsName name) :
    Form .propertyAccessExpression (chainFlags optional receiver)
      (.access ⟨some 0, some 2, questionDotPlace optional⟩)
      [receiver, mark lead (if optional then .questionDotToken else .dotToken), name]
  | element (receiver argument : Green) (optional : Bool) (lead lead' lead'' : String) :
    Form .elementAccessExpression (chainFlags optional receiver)
      (.access ⟨some 0, some ((questionDots lead optional).length + 2),
        questionDotPlace optional⟩)
      (receiver :: (questionDots lead optional ++
        [mark lead' .openBracketToken, argument, mark lead'' .closeBracketToken]))
  | call (receiver closing : Green) (items : List Green) (optional : Bool)
      (lead lead' : String) :
    Form .callExpression (chainFlags optional receiver)
      (.call ⟨some 0, elementPlaces ((questionDots lead optional).length + 2) items,
        questionDotPlace optional⟩)
      (receiver :: (questionDots lead optional ++ mark lead' .openParenToken :: items ++
        [closing]))
  | conditional (condition question whenTrue colon whenFalse : Green) :
    Form .conditionalExpression 0 (.conditional ⟨some 0, some 2, some 4⟩)
      [condition, question, whenTrue, colon, whenFalse]
  | asType (inner type : Green) (lead : String) (h : IsType type) :
    Form .asExpression 0 (.assertion ⟨some 0, some 2⟩) [inner, mark lead .asKeyword, type]
  | satisfiesType (inner type : Green) (lead : String) :
    Form .satisfiesExpression 0 (.assertion ⟨some 0, some 2⟩)
      [inner, mark lead .satisfiesKeyword, type]
  | typeAssertion (type inner : Green) (lead lead' : String) (h : IsType type) :
    Form .typeAssertionExpression 0 (.assertion ⟨some 3, some 1⟩)
      [mark lead .lessThanToken, type, mark lead' .greaterThanToken, inner]
  | arrow (opening closing token body : Green) (parameters : List Green) :
    Form .arrowFunction 0
      (.functionLike ⟨elementPlaces 1 parameters, some (parameters.length + 3)⟩)
      (opening :: (parameters ++ [closing, token, body]))
  | function (word opening closing body : Green) (parameters : List Green) :
    Form .functionExpression 0
      (.functionLike ⟨elementPlaces 2 parameters, some (parameters.length + 3)⟩)
      (word :: opening :: (parameters ++ [closing, body]))
  | array (opening closing : Green) (items : List Green) :
    Form .arrayLiteralExpression 0 (.elements (elementPlaces 1 items))
      (opening :: (items ++ [closing]))
  | emptyObject (opening closing : Green) :
    Form .objectLiteralExpression 0 (.elements []) [opening, closing]
  | variableDeclaration (name : Green) (rest : List Green) (definite : Bool)
      (type value : NodeRef)
      (htype : ∀ i, type = some i → i < rest.length + 1)
      (hvalue : ∀ i, value = some i → i < rest.length + 1) (hname : name.kind = .identifier) :
    Form .variableDeclaration 0 (.variableDeclaration ⟨some 0, definite, type, value⟩)
      (name :: rest)
  | variableList (kind : VariableKind) (word declaration : Green) :
    Form .variableDeclarationList 0 (.variableList ⟨kind, [some 1]⟩) [word, declaration]
  | variableStatement (isDeclare : Bool) (words : List Green) (list semicolon : Green) :
    Form .variableStatement 0 (.variableStatement ⟨isDeclare, some words.length⟩)
      (words ++ [list, semicolon])
  | block (kind : Kind) (h : kind = .block ∨ kind = .caseBlock) (opening closing : Green)
      (items : List Green) :
    Form kind 0 (.block (places 1 items.length)) (opening :: (items ++ [closing]))
  | sourceFile (statements : List Green) (eof : Green) :
    Form .sourceFile 0 (.block (places 0 statements.length)) (statements ++ [eof])
  | expressionStatement (inner semicolon : Green) :
    Form .expressionStatement 0 (.wrapped (some 0)) [inner, semicolon]
  | ifThen (word opening test closing body : Green) :
    Form .ifStatement 0 (.ifStatement ⟨some 2, some 4, none⟩) [word, opening, test, closing, body]
  | ifElse (word opening test closing body elseWord other : Green) :
    Form .ifStatement 0 (.ifStatement ⟨some 2, some 4, some 6⟩)
      [word, opening, test, closing, body, elseWord, other]
  | whileLoop (word opening test closing body : Green) :
    Form .whileStatement 0 (.loop ⟨none, some 2, none, some 4⟩)
      [word, opening, test, closing, body]
  | doLoop (word body whileWord opening test closing semicolon : Green) :
    Form .doStatement 0 (.loop ⟨none, some 4, none, some 1⟩)
      [word, body, whileWord, opening, test, closing, semicolon]
  | forever (word opening first second closing body : Green) :
    Form .forStatement 0 (.loop ⟨none, none, none, some 5⟩)
      [word, opening, first, second, closing, body]
  | forLoop (word opening first test second closing body : Green) :
    Form .forStatement 0 (.loop ⟨none, some 3, none, some 6⟩)
      [word, opening, first, test, second, closing, body]
  | switch (word opening test closing block : Green)
      (hblock : block.kind = .caseBlock ∧ block.isLeaf = false) :
    Form .switchStatement 0 (.switch ⟨some 2, some 4⟩) [word, opening, test, closing, block]
  | breakOut (word semicolon : Green) :
    Form .breakStatement 0 (.jump none) [word, semicolon]
  | jump (kind : Kind) (h : kind = .returnStatement ∨ kind = .throwStatement)
      (word inner semicolon : Green) :
    Form kind 0 (.jump (some 1)) [word, inner, semicolon]
  | caseClause (word test colon : Green) (statements : List Green) :
    Form .caseClause 0 (.caseClause ⟨some 1, places 3 statements.length⟩)
      (word :: test :: colon :: statements)
  | defaultClause (word colon : Green) (statements : List Green) :
    Form .defaultClause 0 (.caseClause ⟨none, places 2 statements.length⟩)
      (word :: colon :: statements)

/-- The outermost node is one that a layout makes. -/
def HasForm : Green → Prop
  | .token _ kind text payload _ => TokenForm Kind.isToken kind text payload
  | .node kind flags payload children _ => Form kind flags payload children

/-- A string literal is spelled in single quotes. -/
def IsQuoted (g : Green) : Prop :=
  ∀ lead text value labels, g = .token lead .stringLiteral text (.literal value) labels →
    text = quoteString value

/-- The outermost node is one that a layout makes whose keywords and operators are some of the
    given kinds. Only in a type may a string literal be spelled in another way than in single
    quotes. -/
def HasShape (marks : Kind → Bool) : Green → Prop
  | .token _ kind text payload _ => TokenForm marks kind text payload
  | .node kind flags payload children _ =>
    Form kind flags payload children ∧ (isTypePart kind = true ∨ ∀ c ∈ children, IsQuoted c)

theorem HasShape.hasForm {g : Green} (h : HasShape Kind.isToken g) : HasForm g := by
  cases g with
  | token lead kind text payload labels => exact h
  | node kind flags payload children labels => exact h.1

/-- Every node of a tree is one that a layout makes. -/
abbrev Formed (g : Green) : Prop := g.Every HasForm

/-- Every node of some trees is one that a layout makes. -/
abbrev FormedAll (gs : List Green) : Prop := Green.EveryIn HasForm gs

end TypeLint.Program
