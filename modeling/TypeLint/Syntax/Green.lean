import TypeLint.Syntax.SourceFile

namespace TypeLint.Syntax

open Text

/-- A tree with its text. The labels of a node name it for later look-up. -/
inductive Green where
  | token (lead : String) (kind : Kind) (text : String) (payload : Payload)
      (labels : List String)
  | node (kind : Kind) (flags : Nat) (payload : Payload) (children : List Green)
      (labels : List String)

namespace Green

/-- The kind of the outermost node. -/
def kind : Green → Kind
  | token _ kind _ _ _ => kind
  | node kind _ _ _ _ => kind

/-- The flags of the outermost node. -/
def flags : Green → Nat
  | token .. => 0
  | node _ flags _ _ _ => flags

/-- The tree with one more label on its outermost node. -/
def withLabel (label : String) : Green → Green
  | token lead kind text payload labels => token lead kind text payload (label :: labels)
  | node kind flags payload children labels =>
    node kind flags payload children (label :: labels)

/-- The kinds of nodes that hand the flag of an optional chain on to the next link. -/
def isChainKind : Kind → Bool
  | .propertyAccessExpression | .elementAccessExpression | .callExpression
  | .nonNullExpression => true
  | _ => false

/-- The outermost node is a link of an optional chain that the next link continues. -/
def isChainLink (g : Green) : Bool := g.flags % 2 == 1 && isChainKind g.kind

mutual

/-- The text of a tree, the trivia in front of it included. -/
def text : Green → String
  | token lead _ text _ _ => lead ++ text
  | node _ _ _ children _ => textAll children

/-- The texts of several trees one behind the other. -/
def textAll : List Green → String
  | [] => ""
  | g :: gs => g.text ++ textAll gs

end

end Green

/-- What has been written of a file: its text and the nodes created. -/
structure Emission where
  text : String
  tree : Tree
  labels : List (String × NodeRef)
  deriving Inhabited

namespace Emission

/-- Nothing written. -/
def start : Emission := ⟨"", .empty, []⟩

/-- Writes a token behind its trivia and adds its node. -/
def token (e : Emission) (lead : String) (kind : Kind) (text : String) (payload : Payload)
    (labels : List String) : NodeRef × Emission :=
  let pos := byteLength e.text
  let start := pos + byteLength lead
  let (ref, tree) := e.tree.add kind 0 pos start (start + byteLength text) [] payload
  (ref, ⟨e.text ++ lead ++ text, tree, labels.map (·, ref) ++ e.labels⟩)

/-- Replaces the places of children by references to them. -/
def resolveLink (children : List NodeRef) (link : NodeRef) : NodeRef :=
  link.bind fun i => (children[i]?).join

/-- Adds a node over children that exist: it begins where the first one begins and ends where the
    last one ends. -/
def close (e : Emission) (kind : Kind) (flags : Nat) (payload : Payload)
    (children : List NodeRef) (labels : List String) : NodeRef × Emission :=
  let first := children.head?.bind e.tree.get?
  let last := children.getLast?.bind e.tree.get?
  let here := byteLength e.text
  let pos := (first.map (·.pos)).getD here
  let start := (first.map (·.start)).getD here
  let stop := (last.map (·.stop)).getD start
  let (ref, tree) :=
    e.tree.add kind flags pos start stop children (payload.mapLinks (resolveLink children))
  (ref, ⟨e.text, tree, labels.map (·, ref) ++ e.labels⟩)

end Emission

mutual

/-- Writes a tree and returns its outermost node. -/
def Green.emit : Green → Emission → NodeRef × Emission
  | .token lead kind text payload labels, e => e.token lead kind text payload labels
  | .node kind flags payload children labels, e =>
    let (refs, e) := Green.emitAll children e
    e.close kind flags payload refs labels

/-- Writes trees one behind the other and returns their outermost nodes. -/
def Green.emitAll : List Green → Emission → List NodeRef × Emission
  | [], e => ([], e)
  | g :: gs, e =>
    let (ref, e) := g.emit e
    let (refs, e) := Green.emitAll gs e
    (ref :: refs, e)

end

end TypeLint.Syntax
