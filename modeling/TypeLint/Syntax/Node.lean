import TypeLint.Syntax.Kind

namespace TypeLint.Syntax

/-- A reference to a node by its place in the tree; `none` refers to no node. -/
abbrev NodeRef := Option Nat

/-- The number that is shown for a reference; the absent one has the largest 32-bit number. -/
def NodeRef.number (r : NodeRef) : Nat := r.getD 4294967295

/-- The keyword of a variable declaration. -/
inductive VariableKind where
  | var
  | let
  | const
  deriving DecidableEq, Repr, Inhabited

/-- The spelling of the keyword. -/
def VariableKind.name : VariableKind → String
  | .var => "var"
  | .let => "let"
  | .const => "const"

/-- The keyword of a spelling. -/
def VariableKind.ofName? : String → Option VariableKind
  | "var" => some .var
  | "let" => some .let
  | "const" => some .const
  | _ => none

/-- The token that spells the keyword. -/
def VariableKind.keyword : VariableKind → Kind
  | .var => .varKeyword
  | .let => .letKeyword
  | .const => .constKeyword

/-- A template literal with substitutions. -/
structure Template where
  head : NodeRef
  spans : List NodeRef
  deriving DecidableEq, Repr

/-- One substitution of a template literal and the text behind it. -/
structure TemplateSpan where
  expression : NodeRef
  literal : NodeRef
  deriving DecidableEq, Repr

/-- `left operator right`, assignments included. -/
structure Binary where
  left : NodeRef
  operatorToken : NodeRef
  operator : Kind
  right : NodeRef
  deriving DecidableEq, Repr

/-- A prefix, postfix or `typeof` expression. -/
structure Unary where
  operator : Kind
  operand : NodeRef
  deriving DecidableEq, Repr

/-- `condition ? whenTrue : whenFalse`. -/
structure Conditional where
  condition : NodeRef
  whenTrue : NodeRef
  whenFalse : NodeRef
  deriving DecidableEq, Repr

/-- Property or element access; the `?.` token is absent in a plain access. -/
structure Access where
  expression : NodeRef
  nameOrArgument : NodeRef
  questionDot : NodeRef
  deriving DecidableEq, Repr

/-- A call; the `?.` token is absent in a plain call. -/
structure Call where
  expression : NodeRef
  arguments : List NodeRef
  questionDot : NodeRef
  deriving DecidableEq, Repr

/-- `x as T`, `<T>x` or `x satisfies T`. -/
structure Assertion where
  expression : NodeRef
  typeNode : NodeRef
  deriving DecidableEq, Repr

/-- A function or arrow function; the body of a concise arrow is an expression. -/
structure FunctionLike where
  parameters : List NodeRef
  body : NodeRef
  deriving DecidableEq, Repr

/-- A parameter of a function. -/
structure Parameter where
  name : NodeRef
  typeAnnotation : NodeRef
  deriving DecidableEq, Repr

/-- A variable statement. -/
structure VariableStatement where
  isDeclare : Bool
  declarationList : NodeRef
  deriving DecidableEq, Repr

/-- The declarations behind one keyword. -/
structure VariableList where
  kind : VariableKind
  declarations : List NodeRef
  deriving DecidableEq, Repr

/-- One declared variable. -/
structure VariableDeclaration where
  name : NodeRef
  /-- Declared as definitely assigned, as in `let x!: T`. -/
  exclamation : Bool
  typeAnnotation : NodeRef
  initializer : NodeRef
  deriving DecidableEq, Repr

/-- An `if` statement. -/
structure If where
  expression : NodeRef
  thenStatement : NodeRef
  elseStatement : NodeRef
  deriving DecidableEq, Repr

/-- A `while`, `do` or `for` loop. -/
structure Loop where
  initializer : NodeRef
  condition : NodeRef
  incrementor : NodeRef
  statement : NodeRef
  deriving DecidableEq, Repr

/-- A `switch` statement. -/
structure Switch where
  expression : NodeRef
  caseBlock : NodeRef
  deriving DecidableEq, Repr

/-- A clause of a switch; the default clause has no expression. -/
structure CaseClause where
  expression : NodeRef
  statements : List NodeRef
  deriving DecidableEq, Repr

/-- The fields of a node that depend on its kind. -/
inductive Payload where
  /-- Punctuation, keywords and nodes without fields. -/
  | empty
  | identifier (text : String)
  /-- A literal token with its contents: a string without quotes, a number as written. -/
  | literal (text : String)
  | template (t : Template)
  | templateSpan (s : TemplateSpan)
  | binary (b : Binary)
  | unary (u : Unary)
  /-- A parenthesised expression, a non-null assertion or an expression statement. -/
  | wrapped (expression : NodeRef)
  | conditional (c : Conditional)
  | access (a : Access)
  | call (c : Call)
  | assertion (a : Assertion)
  | functionLike (f : FunctionLike)
  | parameter (p : Parameter)
  /-- The elements of an array or object literal. -/
  | elements (elements : List NodeRef)
  /-- The statements of a block, case block or source file. -/
  | block (statements : List NodeRef)
  | variableStatement (s : VariableStatement)
  | variableList (l : VariableList)
  | variableDeclaration (d : VariableDeclaration)
  | ifStatement (s : If)
  | loop (l : Loop)
  | switch (s : Switch)
  | caseClause (c : CaseClause)
  /-- The expression of a `return`, `throw` or `break`. -/
  | jump (expression : NodeRef)
  | typeName (name : NodeRef)
  /-- The parts of a union or intersection type. -/
  | compositeType (types : List NodeRef)
  /-- The literal of a literal type or the element of an array type. -/
  | wrappedType (typeNode : NodeRef)
  deriving DecidableEq, Repr

namespace Payload

/-- The payload is one that nodes of the kind carry. -/
def fits : Payload → Kind → Bool
  | empty, _ => false
  | identifier _, k => k == .identifier
  | literal _, k =>
    [.stringLiteral, .numericLiteral, .bigIntLiteral, .noSubstitutionTemplateLiteral,
      .templateHead, .templateMiddle, .templateTail].contains k
  | template _, k => k == .templateExpression
  | templateSpan _, k => k == .templateSpan
  | binary _, k => k == .binaryExpression
  | unary _, k =>
    [.prefixUnaryExpression, .postfixUnaryExpression, .typeOfExpression].contains k
  | wrapped _, k =>
    [.parenthesizedExpression, .nonNullExpression, .expressionStatement].contains k
  | conditional _, k => k == .conditionalExpression
  | access _, k => [.propertyAccessExpression, .elementAccessExpression].contains k
  | call _, k => [.callExpression, .newExpression].contains k
  | assertion _, k =>
    [.asExpression, .typeAssertionExpression, .satisfiesExpression].contains k
  | functionLike _, k => [.arrowFunction, .functionExpression].contains k
  | parameter _, k => k == .parameter
  | elements _, k => [.arrayLiteralExpression, .objectLiteralExpression].contains k
  | block _, k => [.block, .caseBlock, .sourceFile].contains k
  | variableStatement _, k => k == .variableStatement
  | variableList _, k => k == .variableDeclarationList
  | variableDeclaration _, k => k == .variableDeclaration
  | ifStatement _, k => k == .ifStatement
  | loop _, k => [.whileStatement, .doStatement, .forStatement].contains k
  | switch _, k => k == .switchStatement
  | caseClause _, k => [.caseClause, .defaultClause].contains k
  | jump _, k => [.returnStatement, .throwStatement, .breakStatement].contains k
  | typeName _, k => k == .typeReference
  | compositeType _, k => [.unionType, .intersectionType].contains k
  | wrappedType _, k => [.literalType, .arrayType].contains k

/-- The payload with every link replaced. -/
def mapLinks (f : NodeRef → NodeRef) : Payload → Payload
  | empty => empty
  | identifier text => identifier text
  | literal text => literal text
  | template t => template ⟨f t.head, t.spans.map f⟩
  | templateSpan s => templateSpan ⟨f s.expression, f s.literal⟩
  | binary b => binary ⟨f b.left, f b.operatorToken, b.operator, f b.right⟩
  | unary u => unary ⟨u.operator, f u.operand⟩
  | wrapped e => wrapped (f e)
  | conditional c => conditional ⟨f c.condition, f c.whenTrue, f c.whenFalse⟩
  | access a => access ⟨f a.expression, f a.nameOrArgument, f a.questionDot⟩
  | call c => call ⟨f c.expression, c.arguments.map f, f c.questionDot⟩
  | assertion a => assertion ⟨f a.expression, f a.typeNode⟩
  | functionLike g => functionLike ⟨g.parameters.map f, f g.body⟩
  | parameter p => parameter ⟨f p.name, f p.typeAnnotation⟩
  | elements es => elements (es.map f)
  | block ss => block (ss.map f)
  | variableStatement s => variableStatement ⟨s.isDeclare, f s.declarationList⟩
  | variableList l => variableList ⟨l.kind, l.declarations.map f⟩
  | variableDeclaration d =>
    variableDeclaration ⟨f d.name, d.exclamation, f d.typeAnnotation, f d.initializer⟩
  | ifStatement s => ifStatement ⟨f s.expression, f s.thenStatement, f s.elseStatement⟩
  | loop l => loop ⟨f l.initializer, f l.condition, f l.incrementor, f l.statement⟩
  | switch s => switch ⟨f s.expression, f s.caseBlock⟩
  | caseClause c => caseClause ⟨f c.expression, c.statements.map f⟩
  | jump e => jump (f e)
  | typeName n => typeName (f n)
  | compositeType ts => compositeType (ts.map f)
  | wrappedType t => wrappedType (f t)

end Payload

/-- A node of a syntax tree. -/
structure Node where
  kind : Kind
  flags : Nat
  /-- Where the node begins, its leading trivia included. -/
  pos : Nat
  /-- Where its first token begins. -/
  start : Nat
  stop : Nat
  parent : NodeRef
  children : List NodeRef
  payload : Payload
  deriving DecidableEq, Repr

/-- The flag of a link of an optional chain: in `a?.b.c` both accesses carry it. -/
def optionalChainFlag : Nat := 1

namespace Node

/-- The node is a link of an optional chain. -/
def isOptionalChain (n : Node) : Bool := n.flags % 2 == 1

/-- The number of bytes from the first token to the end. -/
def width (n : Node) : Nat := n.stop - n.start

/-- The payload, if it is one for the kind of the node. -/
def payload? (n : Node) : Option Payload :=
  if n.payload.fits n.kind then some n.payload else none

/-- The name of an identifier. -/
def identifier? (n : Node) : Option String :=
  match n.payload? with
  | some (.identifier text) => some text
  | _ => none

/-- The contents of a literal token. -/
def literal? (n : Node) : Option String :=
  match n.payload? with
  | some (.literal text) => some text
  | _ => none

/-- The fields of a binary expression. -/
def binary? (n : Node) : Option Binary :=
  match n.payload? with
  | some (.binary b) => some b
  | _ => none

/-- The fields of a prefix, postfix or `typeof` expression. -/
def unary? (n : Node) : Option Unary :=
  match n.payload? with
  | some (.unary u) => some u
  | _ => none

/-- The expression inside a node of one of the kinds that wrap one. -/
def wrapped? (n : Node) (kind : Kind) : Option NodeRef :=
  match n.payload? with
  | some (.wrapped e) => if n.kind = kind then some e else none
  | _ => none

/-- The expression inside parentheses. -/
def parenthesized? (n : Node) : Option NodeRef := n.wrapped? .parenthesizedExpression

/-- The expression in front of a non-null assertion. -/
def nonNull? (n : Node) : Option NodeRef := n.wrapped? .nonNullExpression

/-- The fields of a conditional expression. -/
def conditional? (n : Node) : Option Conditional :=
  match n.payload? with
  | some (.conditional c) => some c
  | _ => none

/-- The fields of a property or element access. -/
def access? (n : Node) : Option Access :=
  match n.payload? with
  | some (.access a) => some a
  | _ => none

/-- The fields of a call or `new` expression. -/
def call? (n : Node) : Option Call :=
  match n.payload? with
  | some (.call c) => some c
  | _ => none

/-- The fields of an `as`, angle-bracket or `satisfies` expression. -/
def assertion? (n : Node) : Option Assertion :=
  match n.payload? with
  | some (.assertion a) => some a
  | _ => none

/-- The fields of a function or arrow function. -/
def functionLike? (n : Node) : Option FunctionLike :=
  match n.payload? with
  | some (.functionLike f) => some f
  | _ => none

/-- The statements of a block, case block or source file. -/
def block? (n : Node) : Option (List NodeRef) :=
  match n.payload? with
  | some (.block statements) => some statements
  | _ => none

/-- The fields of a list of variable declarations. -/
def variableList? (n : Node) : Option VariableList :=
  match n.payload? with
  | some (.variableList l) => some l
  | _ => none

/-- The fields of a variable declaration. -/
def variableDeclaration? (n : Node) : Option VariableDeclaration :=
  match n.payload? with
  | some (.variableDeclaration d) => some d
  | _ => none

/-- The fields of an `if` statement. -/
def ifStatement? (n : Node) : Option If :=
  match n.payload? with
  | some (.ifStatement s) => some s
  | _ => none

/-- The fields of a loop. -/
def loop? (n : Node) : Option Loop :=
  match n.payload? with
  | some (.loop l) => some l
  | _ => none

/-- The fields of a switch. -/
def switch? (n : Node) : Option Switch :=
  match n.payload? with
  | some (.switch s) => some s
  | _ => none

/-- The fields of a case or default clause. -/
def caseClause? (n : Node) : Option CaseClause :=
  match n.payload? with
  | some (.caseClause c) => some c
  | _ => none

/-- The expression of a `return`, `throw` or `break`. -/
def jump? (n : Node) : Option NodeRef :=
  match n.payload? with
  | some (.jump e) => some e
  | _ => none

/-- The name of a type reference. -/
def typeName? (n : Node) : Option NodeRef :=
  match n.payload? with
  | some (.typeName name) => some name
  | _ => none

/-- The parts of a union or intersection type. -/
def compositeType? (n : Node) : Option (List NodeRef) :=
  match n.payload? with
  | some (.compositeType types) => some types
  | _ => none

/-- The literal of a literal type or the element of an array type. -/
def wrappedType? (n : Node) : Option NodeRef :=
  match n.payload? with
  | some (.wrappedType t) => some t
  | _ => none

end Node

end TypeLint.Syntax
