import TypeLint.Binding.TypeNode
import TypeLint.Syntax.Traversal
import TypeLint.Syntax.SourceFile

namespace TypeLint.Binding

open Syntax TypeLint.Types

/-- The declarations in scope by name, newer ones first. -/
abbrev Scope := List (String × NodeRef)

/-- The kinds of the nodes that hold keyword tokens as types. -/
def isTypeHolder : Kind → Bool
  | .literalType | .unionType | .intersectionType => true
  | _ => false

/-- The keyword stands for a type and not for a value. -/
def isTypePosition (tree : Tree) (r : NodeRef) : Bool :=
  ((tree.kind? (tree.parent r)).map isTypeHolder).getD false

/-- The identifier names a value that is read, and not a declared name, a property or a type. -/
def isReference (tree : Tree) (r : NodeRef) : Bool :=
  match tree.get? (tree.parent r) with
  | none => false
  | some parent =>
    match parent.kind with
    | .variableDeclaration => (parent.variableDeclaration?.map (·.name != r)).getD false
    | .propertyAccessExpression => (parent.access?.map (·.nameOrArgument != r)).getD false
    | .parameter | .typeReference => false
    | _ => true

/-- A type without its union parts `null` and `undefined`. -/
def removeNullish (s : Store) (id : TypeId) : TypeId × Store :=
  s.union ((s.unionMembers id).filter fun part => part != TypeId.null && part != TypeId.undefined)

/-- The primitive type of a literal type; any other type stands for itself. -/
def widenPart (s : Store) (id : TypeId) : TypeId :=
  match s.lookup id with
  | some (.literal (.string _)) => TypeId.string
  | some (.literal (.number _)) => TypeId.number
  | some (.literal (.bigint _)) => TypeId.bigint
  | some (.literal (.boolean _)) => TypeId.boolean
  | _ => id

/-- A type with its literal parts replaced by their primitive types. -/
def widenLiteral (s : Store) (id : TypeId) : TypeId × Store :=
  s.union ((s.unionMembers id).map (widenPart s))

namespace TypeTable

/-- A type that was made in the store of the table, and the table with the grown store. -/
def keep (t : TypeTable) (result : Option TypeId × Store) : Option TypeId × TypeTable :=
  (result.1, { t with store := result.2 })

/-- The digits of a big integer literal without its suffix. -/
def bigintDigits (text : String) : String :=
  String.ofList (text.toList.reverse.dropWhile (· == 'n')).reverse

/-- The type of an identifier that refers to a variable in scope is that of the declared name.
    The declaration is recorded, too. -/
def bindIdentifier (t : TypeTable) (tree : Tree) (scope : Scope) (r : NodeRef) :
    Option TypeId × TypeTable :=
  match tree.identifierText? r with
  | none => (none, t)
  | some name =>
    if !isReference tree r then (none, t)
    else if name == "undefined" then (some TypeId.undefined, t)
    else
      match scope.lookup name with
      | none => (none, t)
      | some declaration =>
        let t := t.addDeclaration r declaration
        ((tree.variableDeclaration? declaration).bind fun d => t.typeAt? d.name, t)

/-- The type of a property of an object whose type is known. In an optional chain an object that
    may be nullish makes the result possibly `undefined`. -/
def bindPropertyAccess (t : TypeTable) (tree : Tree) (n : Node) : Option TypeId × TypeTable :=
  match n.access? with
  | none => (none, t)
  | some access =>
    match t.typeAt? access.expression, tree.identifierText? access.nameOrArgument with
    | some object, some name =>
      let (nonNullish, s) := removeNullish t.store object
      match s.propertyType nonNullish name with
      | (none, s) => t.keep (none, s)
      | (some property, s) =>
        if n.isOptionalChain && nonNullish != object then
          t.keep (found (s.union [property, TypeId.undefined]))
        else t.keep (some property, s)
    | _, _ => (none, t)

/-- The assertion is one to `const`, which names no type. -/
def isConstAssertion (tree : Tree) (a : Assertion) : Bool :=
  (((tree.get? a.typeNode).bind Node.typeName?).map fun name =>
    tree.identifierText? name == some "const").getD false

/-- The type of an assertion is the asserted one, or that of its operand if there is none. An
    expression that only has to satisfy a type keeps its own. -/
def bindAssertion (t : TypeTable) (tree : Tree) (n : Node) : Option TypeId × TypeTable :=
  match n.assertion? with
  | none => (none, t)
  | some a =>
    let ownType := t.typeAt? a.expression
    let (asserted, t) :=
      if isConstAssertion tree a then (none, t) else t.bindTypeNode tree a.typeNode
    if n.kind = .satisfiesExpression then (ownType, t) else (asserted.or ownType, t)

/-- The type of a call is the union of the types that the callee returns. -/
def bindCall (t : TypeTable) (n : Node) : Option TypeId × TypeTable :=
  match (n.call?.bind fun call => t.typeAt? call.expression).map t.store.allCallReturns with
  | none | some [] => (none, t)
  | some returns => t.keep (found (t.store.union returns))

/-- The type of a non-null assertion is that of its operand without the nullish parts. -/
def bindNonNull (t : TypeTable) (n : Node) : Option TypeId × TypeTable :=
  match n.nonNull?.bind t.typeAt? with
  | none => (none, t)
  | some id => t.keep (found (removeNullish t.store id))

/-- The type of a keyword that is a value. -/
def valueKeyword (t : TypeTable) (tree : Tree) (r : NodeRef) (id : TypeId) :
    Option TypeId × TypeTable :=
  (if isTypePosition tree r then none else some id, t)

/-- The type of `!x` is `boolean`. -/
def unaryType? (n : Node) : Option TypeId :=
  n.unary?.bind fun u => if u.operator = .exclamationToken then some TypeId.boolean else none

/-- The type of a comparison is `boolean`. -/
def binaryType? (n : Node) : Option TypeId :=
  n.binary?.bind fun b =>
    if b.operator.isEqualityOperator || b.operator.isRelationalOperator then some TypeId.boolean
    else none

/-- The type of an expression as far as it follows from the tree and the types of its parts. -/
def bindExpression (t : TypeTable) (tree : Tree) (scope : Scope) (r : NodeRef) (n : Node) :
    Option TypeId × TypeTable :=
  match n.kind with
  | .stringLiteral | .noSubstitutionTemplateLiteral => t.keep (stringType? t.store n)
  | .numericLiteral => t.keep (numberType? t.store n)
  | .bigIntLiteral =>
    match n.literal? with
    | some text => t.keep (found (t.store.literalBigint (bigintDigits text)))
    | none => (none, t)
  | .templateExpression | .typeOfExpression => (some TypeId.string, t)
  | .trueKeyword => t.valueKeyword tree r TypeId.trueLiteral
  | .falseKeyword => t.valueKeyword tree r TypeId.falseLiteral
  | .nullKeyword => t.valueKeyword tree r TypeId.null
  | .identifier => t.bindIdentifier tree scope r
  | .parenthesizedExpression => (n.parenthesized?.bind t.typeAt?, t)
  | .nonNullExpression => t.bindNonNull n
  | .prefixUnaryExpression => (unaryType? n, t)
  | .binaryExpression => (binaryType? n, t)
  | .propertyAccessExpression => t.bindPropertyAccess tree n
  | .callExpression => t.bindCall n
  | .asExpression | .typeAssertionExpression | .satisfiesExpression => t.bindAssertion tree n
  | _ => (none, t)

/-- The declaration stands in a list of constants. -/
def isConstant (tree : Tree) (r : NodeRef) : Bool :=
  (((tree.get? (tree.parent r)).bind Node.variableList?).map (·.kind == .const)).getD false

/-- The type of a declared variable: the annotated one, or that of the initial value, which a
    variable that may change takes without literals. -/
def declaredType (t : TypeTable) (tree : Tree) (r : NodeRef) (d : VariableDeclaration) :
    Option TypeId × TypeTable :=
  match t.bindTypeNode tree d.typeAnnotation with
  | (some annotated, t) => (some annotated, t)
  | (none, t) =>
    match t.typeAt? d.initializer with
    | none => (none, t)
    | some initial =>
      if isConstant tree r then (some initial, t)
      else t.keep (found (widenLiteral t.store initial))

/-- Brings a declared variable into scope and records its type. -/
def bindDeclaration (t : TypeTable) (tree : Tree) (scope : Scope) (r : NodeRef)
    (d : VariableDeclaration) : Scope × TypeTable :=
  let scope :=
    match tree.identifierText? d.name with
    | some name => (name, r) :: scope
    | none => scope
  match t.declaredType tree r d with
  | (some id, t) => (scope, t.addType d.name id)
  | (none, t) => (scope, t)

/-- Binds one node, whose children are bound. -/
def bindNode (tree : Tree) : Scope × TypeTable → NodeRef → Scope × TypeTable
  | (scope, t), r =>
    match tree.get? r with
    | none => (scope, t)
    | some n =>
      match n.variableDeclaration? with
      | some d => t.bindDeclaration tree scope r d
      | none =>
        match t.bindExpression tree scope r n with
        | (some id, t) => (scope, t.addType r id)
        | (none, t) => (scope, t)

/-- Records the types that follow from the tree of a file. -/
def bind (t : TypeTable) (file : SourceFile) : TypeTable :=
  ((file.tree.postorder file.root).foldl (bindNode file.tree) ([], t)).2

end TypeTable

end TypeLint.Binding
