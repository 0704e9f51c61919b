import TypeLint.Syntax.Tree

namespace TypeLint.Syntax.Tree

/-- A node and everything below it, parents first, down to a number of levels. -/
def preorderTo (t : Tree) : Nat → NodeRef → List NodeRef
  | 0, r => [r]
  | depth + 1, r => r :: (t.children r).flatMap (preorderTo t depth)

/-- A node and everything below it in document order, parents before their children; nothing for
    an unknown node. -/
def preorder (t : Tree) (r : NodeRef) : List NodeRef :=
  if (t.get? r).isSome then t.preorderTo t.size r else []

/-- A node and everything below it, children first, down to a number of levels. -/
def postorderTo (t : Tree) : Nat → NodeRef → List NodeRef
  | 0, r => [r]
  | depth + 1, r => (t.children r).flatMap (postorderTo t depth) ++ [r]

/-- A node and everything below it in document order, children before their parents. -/
def postorder (t : Tree) (r : NodeRef) : List NodeRef := t.postorderTo t.size r

/-- The node is a token. -/
def isToken (t : Tree) (r : NodeRef) : Bool := ((t.kind? r).map Kind.isToken).getD false

/-- The tokens of a subtree in document order. -/
def tokens (t : Tree) (r : NodeRef) : List NodeRef := (t.preorder r).filter t.isToken

/-- A number of steps up from a node that is an ancestor itself. -/
def ancestorsTo (t : Tree) : Nat → NodeRef → List NodeRef
  | 0, _ => []
  | _, none => []
  | steps + 1, some i => some i :: ancestorsTo t steps (t.parent (some i))

/-- The ancestors of a node, nearest first, without the node itself. -/
def ancestors (t : Tree) (r : NodeRef) : List NodeRef := t.ancestorsTo t.size (t.parent r)

end TypeLint.Syntax.Tree
