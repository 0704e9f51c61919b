import TypeLint.Oracle
import TypeLint.Syntax.Tree

namespace TypeLint.Binding

open Syntax TypeLint.Types

/-- Values recorded for nodes, newer ones first. -/
abbrev NodeMap (α : Type) := List (NodeRef × α)

namespace NodeMap

/-- Records a value, in place of an older one. -/
def set {α : Type} (m : NodeMap α) (r : NodeRef) (value : α) : NodeMap α := (r, value) :: m

/-- Records a value unless there is one. -/
def addNew {α : Type} (m : NodeMap α) (r : NodeRef) (value : α) : NodeMap α :=
  match m.lookup r with
  | some _ => m
  | none => m.set r value

end NodeMap

/-- What is known about the types in a file. -/
structure TypeTable where
  store : Store
  options : CompilerOptions
  /-- The types of expressions and of declared names. -/
  nodeTypes : NodeMap TypeId
  /-- The types that type nodes denote. -/
  typeNodeTypes : NodeMap TypeId
  /-- The types expected of expressions by their contexts. -/
  contextualTypes : NodeMap TypeId
  /-- The declarations that identifiers refer to. -/
  declarations : NodeMap NodeRef
  /-- The types that type names denote. -/
  namedTypes : List (String × TypeId)
  deriving Inhabited

namespace TypeTable

/-- A table that knows nothing yet. -/
def new (options : CompilerOptions) : TypeTable := ⟨.initial, options, [], [], [], [], []⟩

/-- The type of an expression or of a declared name. -/
def typeAt? (t : TypeTable) (r : NodeRef) : Option TypeId := t.nodeTypes.lookup r

/-- The type that a type node denotes. -/
def typeOfTypeNode? (t : TypeTable) (r : NodeRef) : Option TypeId := t.typeNodeTypes.lookup r

/-- The type expected of an expression by its context. -/
def contextualType? (t : TypeTable) (r : NodeRef) : Option TypeId := t.contextualTypes.lookup r

/-- The declaration that an identifier refers to. -/
def declarationOf? (t : TypeTable) (r : NodeRef) : Option NodeRef := t.declarations.lookup r

/-- A table as the answers that it has recorded. -/
def oracle (t : TypeTable) : Oracle where
  store := t.store
  options := t.options
  typeAt? := t.typeAt?
  typeOfTypeNode? := t.typeOfTypeNode?
  contextualType? := t.contextualType?
  declarationOf? := t.declarationOf?

/-- The type that a type name denotes. -/
def namedType? (t : TypeTable) (name : String) : Option TypeId := t.namedTypes.lookup name

/-- Records the type of an expression or of a declared name. -/
def setType (t : TypeTable) (r : NodeRef) (id : TypeId) : TypeTable :=
  { t with nodeTypes := t.nodeTypes.set r id }

/-- Records the type that a type node denotes. -/
def setTypeNodeType (t : TypeTable) (r : NodeRef) (id : TypeId) : TypeTable :=
  { t with typeNodeTypes := t.typeNodeTypes.set r id }

/-- Records the type expected of an expression. -/
def setContextualType (t : TypeTable) (r : NodeRef) (id : TypeId) : TypeTable :=
  { t with contextualTypes := t.contextualTypes.set r id }

/-- Records the declaration that an identifier refers to. -/
def setDeclaration (t : TypeTable) (r declaration : NodeRef) : TypeTable :=
  { t with declarations := t.declarations.set r declaration }

/-- Gives a type a name. -/
def defineType (t : TypeTable) (name : String) (id : TypeId) : TypeTable :=
  { t with namedTypes := (name, id) :: t.namedTypes }

/-- Records the type of a node unless one is recorded. -/
def addType (t : TypeTable) (r : NodeRef) (id : TypeId) : TypeTable :=
  { t with nodeTypes := t.nodeTypes.addNew r id }

/-- Records the declaration of an identifier unless one is recorded. -/
def addDeclaration (t : TypeTable) (r declaration : NodeRef) : TypeTable :=
  { t with declarations := t.declarations.addNew r declaration }

end TypeTable

end TypeLint.Binding
