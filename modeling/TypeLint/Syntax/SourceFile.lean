import TypeLint.Syntax.Query
import TypeLint.Text.Comment

namespace TypeLint.Syntax

open Text

/-- Why a tree is rejected. -/
inductive SourceFileError where
  | invalidRoot (root : NodeRef)
  | spanOutOfBounds (node : NodeRef) (start stop length : Nat)
  | brokenParentLink (parent child : NodeRef)
  deriving DecidableEq, Repr

/-- The wording of an error. -/
def SourceFileError.message : SourceFileError → String
  | .invalidRoot root => s!"root node NodeIndex({root.number}) is not a SourceFile"
  | .spanOutOfBounds node start stop length =>
    s!"node NodeIndex({node.number}) has span [{start}, {stop}) outside the text (length {length})"
  | .brokenParentLink parent child =>
    s!"child NodeIndex({child.number}) does not point back to its parent NodeIndex({parent.number})"

/-- A text with its tree, lines and comments. -/
structure SourceFile where
  fileName : String
  text : String
  tree : Tree
  root : NodeRef
  lineMap : LineMap
  comments : Array Comment
  deriving Inhabited

namespace SourceFile

/-- The comments in the trivia in front of a token. -/
def triviaComments (text : String) (tree : Tree) (token : NodeRef) : List Comment :=
  match tree.get? token with
  | some n => if n.pos < n.start then Comment.scanGap text n.pos n.start else []
  | none => []

/-- The comments in front of the tokens of a tree, in the order of the tokens. -/
def collectComments (text : String) (tree : Tree) (root : NodeRef) : Array Comment :=
  ((tree.tokens root).flatMap (triviaComments text tree)).toArray

/-- Puts a file together without checking the tree. -/
def assemble (fileName text : String) (tree : Tree) (root : NodeRef) : SourceFile :=
  ⟨fileName, text, tree, root, .ofText text, collectComments text tree root⟩

/-- What is wrong with the span of a node or with its children. -/
def nodeError? (tree : Tree) (length : Nat) (r : NodeRef) : Option SourceFileError := do
  let n ← tree.get? r
  if n.pos > n.start || n.start > n.stop || n.stop > length then
    some (.spanOutOfBounds r n.start n.stop length)
  else
    (n.children.find? fun child => tree.parent child != r).map (.brokenParentLink r)

/-- Puts a file together from a tree that comes from outside. The root is checked first, then the
    nodes in order. -/
def ofTree (fileName text : String) (tree : Tree) (root : NodeRef) :
    Except SourceFileError SourceFile :=
  if tree.kind? root != some .sourceFile then .error (.invalidRoot root)
  else
    match tree.refs.findSome? (nodeError? tree (byteLength text)) with
    | some e => .error e
    | none => .ok (assemble fileName text tree root)

/-- The comments in the leading trivia of a node. -/
def leadingComments (f : SourceFile) (r : NodeRef) : List Comment :=
  match f.tree.get? r with
  | some n => Comment.inRange f.comments n.pos n.start
  | none => []

/-- The text of a node without its leading trivia. -/
def nodeText (f : SourceFile) (r : NodeRef) : String :=
  match f.tree.get? r with
  | some n => slice f.text n.start n.stop
  | none => ""

/-- Compares tokens one by one, by their kinds and texts. -/
def tokensMatch (f : SourceFile) : List NodeRef → List NodeRef → Bool
  | [], [] => true
  | left :: ls, right :: rs =>
    if f.tree.kind? left != f.tree.kind? right || f.nodeText left != f.nodeText right then false
    else tokensMatch f ls rs
  | _, _ => false

/-- The two subtrees have the same tokens, trivia aside. -/
def tokensEqual (f : SourceFile) (a b : NodeRef) : Bool :=
  f.tokensMatch (f.tree.tokens a) (f.tree.tokens b)

end SourceFile

end TypeLint.Syntax
