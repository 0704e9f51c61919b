import TypeLint.Syntax.Node

namespace TypeLint.Syntax

/-- The nodes of one file. -/
structure Tree where
  nodes : Array Node
  deriving Inhabited

namespace Tree

/-- A tree without nodes. -/
def empty : Tree := ⟨#[]⟩

/-- The number of nodes. -/
def size (t : Tree) : Nat := t.nodes.size

/-- The node that a reference refers to. -/
def get? (t : Tree) (r : NodeRef) : Option Node := r.bind fun i => t.nodes[i]?

/-- The kind of a node. -/
def kind? (t : Tree) (r : NodeRef) : Option Kind := (t.get? r).map (·.kind)

/-- The parent of a node, absent for a root and for an unknown node. -/
def parent (t : Tree) (r : NodeRef) : NodeRef := (t.get? r).bind (·.parent)

/-- The children of a node, none for an unknown node. -/
def children (t : Tree) (r : NodeRef) : List NodeRef :=
  ((t.get? r).map (·.children)).getD []

/-- References to all nodes in the order of their creation. -/
def refs (t : Tree) : List NodeRef := (List.range t.size).map some

/-- Makes a node the parent of another, if that one exists. -/
def adopt (t : Tree) (parent child : NodeRef) : Tree :=
  match child with
  | none => t
  | some i => ⟨t.nodes.modify i fun n => { n with parent := parent }⟩

/-- Adds a node and makes it the parent of those of its children that exist already. -/
def add (t : Tree) (kind : Kind) (flags pos start stop : Nat) (children : List NodeRef)
    (payload : Payload) : NodeRef × Tree :=
  let ref : NodeRef := some t.size
  let adopted := children.foldl (fun t child => t.adopt ref child) t
  (ref, ⟨adopted.nodes.push ⟨kind, flags, pos, start, stop, none, children, payload⟩⟩)

/-- The name that an identifier node spells. -/
def identifierText? (t : Tree) (r : NodeRef) : Option String := (t.get? r).bind Node.identifier?

/-- The fields of a binary expression. -/
def binary? (t : Tree) (r : NodeRef) : Option Binary := (t.get? r).bind Node.binary?

/-- The fields of a variable declaration. -/
def variableDeclaration? (t : Tree) (r : NodeRef) : Option VariableDeclaration :=
  (t.get? r).bind Node.variableDeclaration?

end Tree

end TypeLint.Syntax
