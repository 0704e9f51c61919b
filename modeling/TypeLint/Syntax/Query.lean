import TypeLint.Result
import TypeLint.Syntax.Traversal

namespace TypeLint.Syntax.Tree

/-- The first token of a subtree, searched down to a number of levels. -/
def firstTokenTo (t : Tree) : Nat → NodeRef → Option NodeRef
  | 0, _ => none
  | depth + 1, r =>
    match t.get? r with
    | none => none
    | some n => if n.kind.isToken then some r else n.children.findSome? (firstTokenTo t depth)

/-- The first token of a subtree in document order. -/
def firstToken? (t : Tree) (r : NodeRef) : Option NodeRef := t.firstTokenTo t.size r

/-- The last token of a subtree, searched down to a number of levels. -/
def lastTokenTo (t : Tree) : Nat → NodeRef → Option NodeRef
  | 0, _ => none
  | depth + 1, r =>
    match t.get? r with
    | none => none
    | some n =>
      if n.kind.isToken then some r else n.children.reverse.findSome? (lastTokenTo t depth)

/-- The last token of a subtree in document order. -/
def lastToken? (t : Tree) (r : NodeRef) : Option NodeRef := t.lastTokenTo t.size r

/-- The node exists and satisfies a condition. -/
def satisfies (t : Tree) (p : Node → Bool) (r : NodeRef) : Bool := ((t.get? r).map p).getD false

/-- The last token in front of a node that satisfies a condition, among the tokens of its
    siblings. -/
def tokenBefore? (t : Tree) (r : NodeRef) (p : Node → Bool) : Option NodeRef := do
  let siblings := t.children (t.parent r)
  let place ← siblings.idxOf? r
  ((siblings.take place).reverse.flatMap fun s => (t.tokens s).reverse).find? (t.satisfies p)

/-- The first token behind a node that satisfies a condition, among the tokens of its siblings. -/
def tokenAfter? (t : Tree) (r : NodeRef) (p : Node → Bool) : Option NodeRef := do
  let siblings := t.children (t.parent r)
  let place ← siblings.idxOf? r
  ((siblings.drop (place + 1)).flatMap t.tokens).find? (t.satisfies p)

/-- The first child of a kind. -/
def childToken? (t : Tree) (r : NodeRef) (kind : Kind) : Option NodeRef :=
  (t.children r).find? fun c => t.kind? c == some kind

/-- The node holds an offset, its leading trivia included; the end-of-file token holds every
    offset from its trivia on. -/
def holdsOffset (t : Tree) (offset : Nat) (r : NodeRef) : Bool :=
  t.satisfies (fun n =>
    (n.pos ≤ offset && offset < n.stop) || (n.kind == .endOfFileToken && offset ≥ n.pos)) r

/-- Goes down to the first child that holds the offset, a number of levels. -/
def nodeAtTo (t : Tree) (offset : Nat) : Nat → NodeRef → NodeRef
  | 0, r => r
  | depth + 1, r =>
    match (t.children r).find? (t.holdsOffset offset) with
    | some child => nodeAtTo t offset depth child
    | none => r

/-- The deepest node that holds an offset. -/
def nodeAt (t : Tree) (root : NodeRef) (offset : Nat) : NodeRef :=
  t.nodeAtTo offset t.size root

/-- The source file node that a node belongs to. -/
def enclosingSourceFile? (t : Tree) (r : NodeRef) : Option NodeRef :=
  if t.kind? r = some .sourceFile then some r
  else (t.ancestors r).find? fun a => t.kind? a == some .sourceFile

/-- The nearest ancestor that satisfies a condition. -/
def findAncestor? (t : Tree) (r : NodeRef) (p : Node → Bool) : Option NodeRef :=
  (t.ancestors r).find? (t.satisfies p)

/-- Goes on to the expression in parentheses. -/
def enterStep (t : Tree) (r : NodeRef) : NodeRef ⊕ NodeRef :=
  match (t.get? r).bind Node.parenthesized? with
  | some inner => .inl inner
  | none => .inr r

/-- Goes on into parentheses, a number of times at most. -/
def skipParenthesesTo (t : Tree) : Nat → NodeRef → Result NodeRef
  | 0, _ => .error .endless
  | depth + 1, r =>
    match t.enterStep r with
    | .inl inner => skipParenthesesTo t depth inner
    | .inr r => .ok r

/-- The expression inside any number of parentheses. More steps than there are nodes come by a node
    twice, and then there is no end to them. -/
def skipParentheses (t : Tree) (r : NodeRef) : Result NodeRef :=
  t.skipParenthesesTo (t.size + 1) r

/-- The node is directly inside parentheses. -/
def isParenthesized (t : Tree) (r : NodeRef) : Bool :=
  t.kind? (t.parent r) == some .parenthesizedExpression

/-- Follows a number of parentheses outwards. -/
def walkUpParenthesesTo (t : Tree) : Nat → NodeRef → NodeRef
  | 0, r => r
  | steps + 1, r => if t.isParenthesized r then walkUpParenthesesTo t steps (t.parent r) else r

/-- The outermost parentheses around a node, or the node itself. -/
def walkUpParentheses (t : Tree) (r : NodeRef) : NodeRef := t.walkUpParenthesesTo t.size r

/-- The operator of a binary expression. -/
def binaryOperator? (t : Tree) (r : NodeRef) : Option Kind := (t.binary? r).map (·.operator)

/-- `a && b`, `a || b` or `a ?? b`. -/
def isLogicalExpression (t : Tree) (r : NodeRef) : Bool :=
  ((t.binaryOperator? r).map Kind.isLogicalOperator).getD false

/-- The identifier `undefined`. -/
def isUndefinedIdentifier (t : Tree) (r : NodeRef) : Bool :=
  t.identifierText? r == some "undefined"

/-- The keyword `null`. -/
def isNullLiteral (t : Tree) (r : NodeRef) : Bool := t.kind? r == some .nullKeyword

/-- The kinds of expressions whose value is fixed by their spelling. -/
def isLiteralKind : Kind → Bool
  | .stringLiteral | .numericLiteral | .bigIntLiteral | .noSubstitutionTemplateLiteral
  | .trueKeyword | .falseKeyword | .nullKeyword => true
  | _ => false

/-- An expression whose value is fixed by its spelling. -/
def isLiteralExpression (t : Tree) (r : NodeRef) : Bool :=
  ((t.kind? r).map isLiteralKind).getD false

/-- Compares two expressions down to a number of levels. -/
def nodesEqualTo (t : Tree) : Nat → NodeRef → NodeRef → Result Bool
  | 0, _, _ => .error .endless
  | depth + 1, a, b =>
    match t.get? a, t.get? b with
    | some left, some right =>
      if left.kind != right.kind then .ok false
      else
        match left.kind with
        | .thisKeyword | .nullKeyword | .trueKeyword | .falseKeyword => .ok true
        | .identifier => .ok (left.identifier? == right.identifier?)
        | .stringLiteral | .numericLiteral | .bigIntLiteral | .noSubstitutionTemplateLiteral =>
          .ok (left.literal? == right.literal?)
        | .propertyAccessExpression | .elementAccessExpression =>
          match left.access?, right.access? with
          | some l, some r =>
            if l.questionDot.isSome != r.questionDot.isSome then .ok false
            else do
              let names ← nodesEqualTo t depth l.nameOrArgument r.nameOrArgument
              if names then nodesEqualTo t depth l.expression r.expression else return false
          | _, _ => .ok false
        | _ => .ok false
    | _, _ => .ok false

/-- Structural equality of identifiers, `this`, literals and chains of member accesses; any other
    form is unequal, also to itself. More levels than there are pairs of nodes come by a pair twice,
    and then there is no end to them. -/
def nodesEqual (t : Tree) (a b : NodeRef) : Result Bool :=
  t.nodesEqualTo (t.size * t.size + 1) a b

end TypeLint.Syntax.Tree
