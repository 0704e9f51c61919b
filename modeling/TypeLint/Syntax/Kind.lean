namespace TypeLint.Syntax

/-- What a node of the tree is. Tokens come first, then expressions, statements, type nodes and
    the root. -/
inductive Kind where
  | unknown | endOfFileToken
  | openBraceToken | closeBraceToken | openParenToken | closeParenToken | openBracketToken
  | closeBracketToken | dotToken | dotDotDotToken | semicolonToken | commaToken
  | questionDotToken | lessThanToken | greaterThanToken | lessThanEqualsToken
  | greaterThanEqualsToken | equalsEqualsToken | exclamationEqualsToken | equalsEqualsEqualsToken
  | exclamationEqualsEqualsToken | equalsGreaterThanToken | plusToken | minusToken
  | asteriskToken | slashToken | percentToken | plusPlusToken | minusMinusToken | ampersandToken
  | barToken | caretToken | exclamationToken | tildeToken | ampersandAmpersandToken | barBarToken
  | questionToken | colonToken | questionQuestionToken
  | equalsToken | plusEqualsToken | minusEqualsToken | ampersandAmpersandEqualsToken
  | barBarEqualsToken | questionQuestionEqualsToken
  | asKeyword | breakKeyword | caseKeyword | constKeyword | declareKeyword | defaultKeyword
  | doKeyword | elseKeyword | falseKeyword | forKeyword | functionKeyword | ifKeyword | inKeyword
  | instanceOfKeyword | letKeyword | newKeyword | nullKeyword | readonlyKeyword | returnKeyword
  | satisfiesKeyword | switchKeyword | thisKeyword | throwKeyword | trueKeyword | typeOfKeyword
  | varKeyword | voidKeyword | whileKeyword
  | anyKeyword | unknownKeyword | neverKeyword | stringKeyword | numberKeyword | booleanKeyword
  | bigIntKeyword | symbolKeyword | objectKeyword | undefinedKeyword
  | identifier | stringLiteral | numericLiteral | bigIntLiteral | noSubstitutionTemplateLiteral
  | templateHead | templateMiddle | templateTail
  | arrayLiteralExpression | objectLiteralExpression | propertyAccessExpression
  | elementAccessExpression | callExpression | newExpression | parenthesizedExpression
  | functionExpression | arrowFunction | typeOfExpression | prefixUnaryExpression
  | postfixUnaryExpression | binaryExpression | conditionalExpression | templateExpression
  | templateSpan | asExpression | typeAssertionExpression | satisfiesExpression
  | nonNullExpression | parameter
  | block | variableStatement | variableDeclarationList | variableDeclaration
  | expressionStatement | ifStatement | doStatement | whileStatement | forStatement
  | switchStatement | caseBlock | caseClause | defaultClause | breakStatement | returnStatement
  | throwStatement | emptyStatement
  | typeReference | literalType | unionType | intersectionType | arrayType | sourceFile
  deriving DecidableEq, Repr, Inhabited

namespace Kind

/-- Every kind, in declaration order. -/
def all : List Kind :=
  [.unknown, .endOfFileToken, .openBraceToken, .closeBraceToken, .openParenToken,
   .closeParenToken, .openBracketToken, .closeBracketToken, .dotToken, .dotDotDotToken,
   .semicolonToken, .commaToken, .questionDotToken, .lessThanToken, .greaterThanToken,
   .lessThanEqualsToken, .greaterThanEqualsToken, .equalsEqualsToken, .exclamationEqualsToken,
   .equalsEqualsEqualsToken, .exclamationEqualsEqualsToken, .equalsGreaterThanToken, .plusToken,
   .minusToken, .asteriskToken, .slashToken, .percentToken, .plusPlusToken, .minusMinusToken,
   .ampersandToken, .barToken, .caretToken, .exclamationToken, .tildeToken,
   .ampersandAmpersandToken, .barBarToken, .questionToken, .colonToken, .questionQuestionToken,
   .equalsToken, .plusEqualsToken, .minusEqualsToken, .ampersandAmpersandEqualsToken,
   .barBarEqualsToken, .questionQuestionEqualsToken, .asKeyword, .breakKeyword, .caseKeyword,
   .constKeyword, .declareKeyword, .defaultKeyword, .doKeyword, .elseKeyword, .falseKeyword,
   .forKeyword, .functionKeyword, .ifKeyword, .inKeyword, .instanceOfKeyword, .letKeyword,
   .newKeyword, .nullKeyword, .readonlyKeyword, .returnKeyword, .satisfiesKeyword, .switchKeyword,
   .thisKeyword, .throwKeyword, .trueKeyword, .typeOfKeyword, .varKeyword, .voidKeyword,
   .whileKeyword, .anyKeyword, .unknownKeyword, .neverKeyword, .stringKeyword, .numberKeyword,
   .booleanKeyword, .bigIntKeyword, .symbolKeyword, .objectKeyword, .undefinedKeyword,
   .identifier, .stringLiteral, .numericLiteral, .bigIntLiteral, .noSubstitutionTemplateLiteral,
   .templateHead, .templateMiddle, .templateTail, .arrayLiteralExpression,
   .objectLiteralExpression, .propertyAccessExpression, .elementAccessExpression, .callExpression,
   .newExpression, .parenthesizedExpression, .functionExpression, .arrowFunction,
   .typeOfExpression, .prefixUnaryExpression, .postfixUnaryExpression, .binaryExpression,
   .conditionalExpression, .templateExpression, .templateSpan, .asExpression,
   .typeAssertionExpression, .satisfiesExpression, .nonNullExpression, .parameter, .block,
   .variableStatement, .variableDeclarationList, .variableDeclaration, .expressionStatement,
   .ifStatement, .doStatement, .whileStatement, .forStatement, .switchStatement, .caseBlock,
   .caseClause, .defaultClause, .breakStatement, .returnStatement, .throwStatement,
   .emptyStatement, .typeReference, .literalType, .unionType, .intersectionType, .arrayType,
   .sourceFile]

/-- The place of the kind in the declaration order, from 0. -/
def code (k : Kind) : Nat := k.ctorIdx

/-- The published name of the kind. -/
def name : Kind → String
  | .unknown => "Unknown"
  | .endOfFileToken => "EndOfFileToken"
  | .openBraceToken => "OpenBraceToken"
  | .closeBraceToken => "CloseBraceToken"
  | .openParenToken => "OpenParenToken"
  | .closeParenToken => "CloseParenToken"
  | .openBracketToken => "OpenBracketToken"
  | .closeBracketToken => "CloseBracketToken"
  | .dotToken => "DotToken"
  | .dotDotDotToken => "DotDotDotToken"
  | .semicolonToken => "SemicolonToken"
  | .commaToken => "CommaToken"
  | .questionDotToken => "QuestionDotToken"
  | .lessThanToken => "LessThanToken"
  | .greaterThanToken => "GreaterThanToken"
  | .lessThanEqualsToken => "LessThanEqualsToken"
  | .greaterThanEqualsToken => "GreaterThanEqualsToken"
  | .equalsEqualsToken => "EqualsEqualsToken"
  | .exclamationEqualsToken => "ExclamationEqualsToken"
  | .equalsEqualsEqualsToken => "EqualsEqualsEqualsToken"
  | .exclamationEqualsEqualsToken => "ExclamationEqualsEqualsToken"
  | .equalsGreaterThanToken => "EqualsGreaterThanToken"
  | .plusToken => "PlusToken"
  | .minusToken => "MinusToken"
  | .asteriskToken => "AsteriskToken"
  | .slashToken => "SlashToken"
  | .percentToken => "PercentToken"
  | .plusPlusToken => "PlusPlusToken"
  | .minusMinusToken => "MinusMinusToken"
  | .ampersandToken => "AmpersandToken"
  | .barToken => "BarToken"
  | .caretToken => "CaretToken"
  | .exclamationToken => "ExclamationToken"
  | .tildeToken => "TildeToken"
  | .ampersandAmpersandToken => "AmpersandAmpersandToken"
  | .barBarToken => "BarBarToken"
  | .questionToken => "QuestionToken"
  | .colonToken => "ColonToken"
  | .questionQuestionToken => "QuestionQuestionToken"
  | .equalsToken => "EqualsToken"
  | .plusEqualsToken => "PlusEqualsToken"
  | .minusEqualsToken => "MinusEqualsToken"
  | .ampersandAmpersandEqualsToken => "AmpersandAmpersandEqualsToken"
  | .barBarEqualsToken => "BarBarEqualsToken"
  | .questionQuestionEqualsToken => "QuestionQuestionEqualsToken"
  | .asKeyword => "AsKeyword"
  | .breakKeyword => "BreakKeyword"
  | .caseKeyword => "CaseKeyword"
  | .constKeyword => "ConstKeyword"
  | .declareKeyword => "DeclareKeyword"
  | .defaultKeyword => "DefaultKeyword"
  | .doKeyword => "DoKeyword"
  | .elseKeyword => "ElseKeyword"
  | .falseKeyword => "FalseKeyword"
  | .forKeyword => "ForKeyword"
  | .functionKeyword => "FunctionKeyword"
  | .ifKeyword => "IfKeyword"
  | .inKeyword => "InKeyword"
  | .instanceOfKeyword => "InstanceOfKeyword"
  | .letKeyword => "LetKeyword"
  | .newKeyword => "NewKeyword"
  | .nullKeyword => "NullKeyword"
  | .readonlyKeyword => "ReadonlyKeyword"
  | .returnKeyword => "ReturnKeyword"
  | .satisfiesKeyword => "SatisfiesKeyword"
  | .switchKeyword => "SwitchKeyword"
  | .thisKeyword => "ThisKeyword"
  | .throwKeyword => "ThrowKeyword"
  | .trueKeyword => "TrueKeyword"
  | .typeOfKeyword => "TypeOfKeyword"
  | .varKeyword => "VarKeyword"
  | .voidKeyword => "VoidKeyword"
  | .whileKeyword => "WhileKeyword"
  | .anyKeyword => "AnyKeyword"
  | .unknownKeyword => "UnknownKeyword"
  | .neverKeyword => "NeverKeyword"
  | .stringKeyword => "StringKeyword"
  | .numberKeyword => "NumberKeyword"
  | .booleanKeyword => "BooleanKeyword"
  | .bigIntKeyword => "BigIntKeyword"
  | .symbolKeyword => "SymbolKeyword"
  | .objectKeyword => "ObjectKeyword"
  | .undefinedKeyword => "UndefinedKeyword"
  | .identifier => "Identifier"
  | .stringLiteral => "StringLiteral"
  | .numericLiteral => "NumericLiteral"
  | .bigIntLiteral => "BigIntLiteral"
  | .noSubstitutionTemplateLiteral => "NoSubstitutionTemplateLiteral"
  | .templateHead => "TemplateHead"
  | .templateMiddle => "TemplateMiddle"
  | .templateTail => "TemplateTail"
  | .arrayLiteralExpression => "ArrayLiteralExpression"
  | .objectLiteralExpression => "ObjectLiteralExpression"
  | .propertyAccessExpression => "PropertyAccessExpression"
  | .elementAccessExpression => "ElementAccessExpression"
  | .callExpression => "CallExpression"
  | .newExpression => "NewExpression"
  | .parenthesizedExpression => "ParenthesizedExpression"
  | .functionExpression => "FunctionExpression"
  | .arrowFunction => "ArrowFunction"
  | .typeOfExpression => "TypeOfExpression"
  | .prefixUnaryExpression => "PrefixUnaryExpression"
  | .postfixUnaryExpression => "PostfixUnaryExpression"
  | .binaryExpression => "BinaryExpression"
  | .conditionalExpression => "ConditionalExpression"
  | .templateExpression => "TemplateExpression"
  | .templateSpan => "TemplateSpan"
  | .asExpression => "AsExpression"
  | .typeAssertionExpression => "TypeAssertionExpression"
  | .satisfiesExpression => "SatisfiesExpression"
  | .nonNullExpression => "NonNullExpression"
  | .parameter => "Parameter"
  | .block => "Block"
  | .variableStatement => "VariableStatement"
  | .variableDeclarationList => "VariableDeclarationList"
  | .variableDeclaration => "VariableDeclaration"
  | .expressionStatement => "ExpressionStatement"
  | .ifStatement => "IfStatement"
  | .doStatement => "DoStatement"
  | .whileStatement => "WhileStatement"
  | .forStatement => "ForStatement"
  | .switchStatement => "SwitchStatement"
  | .caseBlock => "CaseBlock"
  | .caseClause => "CaseClause"
  | .defaultClause => "DefaultClause"
  | .breakStatement => "BreakStatement"
  | .returnStatement => "ReturnStatement"
  | .throwStatement => "ThrowStatement"
  | .emptyStatement => "EmptyStatement"
  | .typeReference => "TypeReference"
  | .literalType => "LiteralType"
  | .unionType => "UnionType"
  | .intersectionType => "IntersectionType"
  | .arrayType => "ArrayType"
  | .sourceFile => "SourceFile"

/-- The kind with a published name. -/
def ofName? (name : String) : Option Kind := all.find? (·.name == name)

/-- The fixed spelling of a punctuation or keyword token. -/
def text? : Kind → Option String
  | .openBraceToken => some "\x7b"
  | .closeBraceToken => some "\x7d"
  | .openParenToken => some "("
  | .closeParenToken => some ")"
  | .openBracketToken => some "["
  | .closeBracketToken => some "]"
  | .dotToken => some "."
  | .dotDotDotToken => some "..."
  | .semicolonToken => some ";"
  | .commaToken => some ","
  | .questionDotToken => some "?."
  | .lessThanToken => some "<"
  | .greaterThanToken => some ">"
  | .lessThanEqualsToken => some "<="
  | .greaterThanEqualsToken => some ">="
  | .equalsEqualsToken => some "=="
  | .exclamationEqualsToken => some "!="
  | .equalsEqualsEqualsToken => some "==="
  | .exclamationEqualsEqualsToken => some "!=="
  | .equalsGreaterThanToken => some "=>"
  | .plusToken => some "+"
  | .minusToken => some "-"
  | .asteriskToken => some "*"
  | .slashToken => some "/"
  | .percentToken => some "%"
  | .plusPlusToken => some "++"
  | .minusMinusToken => some "--"
  | .ampersandToken => some "&"
  | .barToken => some "|"
  | .caretToken => some "^"
  | .exclamationToken => some "!"
  | .tildeToken => some "~"
  | .ampersandAmpersandToken => some "&&"
  | .barBarToken => some "||"
  | .questionToken => some "?"
  | .colonToken => some ":"
  | .questionQuestionToken => some "??"
  | .equalsToken => some "="
  | .plusEqualsToken => some "+="
  | .minusEqualsToken => some "-="
  | .ampersandAmpersandEqualsToken => some "&&="
  | .barBarEqualsToken => some "||="
  | .questionQuestionEqualsToken => some "??="
  | .asKeyword => some "as"
  | .breakKeyword => some "break"
  | .caseKeyword => some "case"
  | .constKeyword => some "const"
  | .declareKeyword => some "declare"
  | .defaultKeyword => some "default"
  | .doKeyword => some "do"
  | .elseKeyword => some "else"
  | .falseKeyword => some "false"
  | .forKeyword => some "for"
  | .functionKeyword => some "function"
  | .ifKeyword => some "if"
  | .inKeyword => some "in"
  | .instanceOfKeyword => some "instanceof"
  | .letKeyword => some "let"
  | .newKeyword => some "new"
  | .nullKeyword => some "null"
  | .readonlyKeyword => some "readonly"
  | .returnKeyword => some "return"
  | .satisfiesKeyword => some "satisfies"
  | .switchKeyword => some "switch"
  | .thisKeyword => some "this"
  | .throwKeyword => some "throw"
  | .trueKeyword => some "true"
  | .typeOfKeyword => some "typeof"
  | .varKeyword => some "var"
  | .voidKeyword => some "void"
  | .whileKeyword => some "while"
  | .anyKeyword => some "any"
  | .unknownKeyword => some "unknown"
  | .neverKeyword => some "never"
  | .stringKeyword => some "string"
  | .numberKeyword => some "number"
  | .booleanKeyword => some "boolean"
  | .bigIntKeyword => some "bigint"
  | .symbolKeyword => some "symbol"
  | .objectKeyword => some "object"
  | .undefinedKeyword => some "undefined"
  | _ => none

/-- The keyword kind of a type keyword. -/
def typeKeyword? : String → Option Kind
  | "any" => some .anyKeyword
  | "unknown" => some .unknownKeyword
  | "never" => some .neverKeyword
  | "void" => some .voidKeyword
  | "string" => some .stringKeyword
  | "number" => some .numberKeyword
  | "boolean" => some .booleanKeyword
  | "bigint" => some .bigIntKeyword
  | "symbol" => some .symbolKeyword
  | "object" => some .objectKeyword
  | "undefined" => some .undefinedKeyword
  | "null" => some .nullKeyword
  | _ => none

/-- The kind lies between two kinds of the declaration order, both included. -/
def between (k low high : Kind) : Bool := low.code ≤ k.code && k.code ≤ high.code

/-- Tokens are leaves: punctuation, keywords, names and literal tokens. -/
def isToken (k : Kind) : Bool := k.code ≤ templateTail.code

/-- Brackets, operators and separators. -/
def isPunctuation (k : Kind) : Bool := k.between .openBraceToken .questionQuestionEqualsToken

/-- Reserved words, the type keywords included. -/
def isKeyword (k : Kind) : Bool := k.between .asKeyword .undefinedKeyword

/-- `=` and the compound assignments. -/
def isAssignmentOperator (k : Kind) : Bool := k.between .equalsToken .questionQuestionEqualsToken

/-- `&&=`, `||=` and `??=`. -/
def isLogicalAssignmentOperator : Kind → Bool
  | .ampersandAmpersandEqualsToken | .barBarEqualsToken | .questionQuestionEqualsToken => true
  | _ => false

/-- `&&`, `||` and `??`. -/
def isLogicalOperator : Kind → Bool
  | .ampersandAmpersandToken | .barBarToken | .questionQuestionToken => true
  | _ => false

/-- `==`, `!=`, `===` and `!==`. -/
def isEqualityOperator : Kind → Bool
  | .equalsEqualsToken | .exclamationEqualsToken | .equalsEqualsEqualsToken
  | .exclamationEqualsEqualsToken => true
  | _ => false

/-- `<`, `>`, `<=` and `>=`. -/
def isRelationalOperator : Kind → Bool
  | .lessThanToken | .greaterThanToken | .lessThanEqualsToken | .greaterThanEqualsToken => true
  | _ => false

/-- How tightly a binary operator binds; anything else, the comma included, is 0. -/
def operatorPrecedence : Kind → Nat
  | .equalsToken | .plusEqualsToken | .minusEqualsToken | .ampersandAmpersandEqualsToken
  | .barBarEqualsToken | .questionQuestionEqualsToken => 2
  | .questionQuestionToken => 4
  | .barBarToken => 5
  | .ampersandAmpersandToken => 6
  | .barToken => 7
  | .caretToken => 8
  | .ampersandToken => 9
  | .equalsEqualsToken | .exclamationEqualsToken | .equalsEqualsEqualsToken
  | .exclamationEqualsEqualsToken => 10
  | .lessThanToken | .greaterThanToken | .lessThanEqualsToken | .greaterThanEqualsToken
  | .inKeyword | .instanceOfKeyword => 11
  | .plusToken | .minusToken => 13
  | .asteriskToken | .slashToken | .percentToken => 14
  | _ => 0

/-- Function-like containers, where a walk up from a condition stops. -/
def isFunctionLike : Kind → Bool
  | .arrowFunction | .functionExpression => true
  | _ => false

end Kind

end TypeLint.Syntax
