import TypeLint.Binding.Table
import TypeLint.Decimal.Reader

namespace TypeLint.Binding

open Syntax TypeLint.Types

/-- The type that a keyword denotes. -/
def keywordType? : Kind → Option TypeId
  | .anyKeyword => some TypeId.any
  | .unknownKeyword => some TypeId.unknown
  | .neverKeyword => some TypeId.never
  | .voidKeyword => some TypeId.void
  | .undefinedKeyword => some TypeId.undefined
  | .stringKeyword => some TypeId.string
  | .numberKeyword => some TypeId.number
  | .booleanKeyword => some TypeId.boolean
  | .bigIntKeyword => some TypeId.bigint
  | .symbolKeyword => some TypeId.symbol
  | .objectKeyword => some TypeId.object
  | _ => none

/-- A type and the store that it belongs to, if there is one. -/
def found (result : TypeId × Store) : Option TypeId × Store := (some result.1, result.2)

/-- The type of a string literal token. -/
def stringType? (s : Store) (n : Node) : Option TypeId × Store :=
  match n.literal? with
  | some text => found (s.literalString text)
  | none => (none, s)

/-- The type of a number literal token, if its spelling is one of a decimal number. -/
def numberType? (s : Store) (n : Node) : Option TypeId × Store :=
  match n.literal?.bind Decimal.read? with
  | some value => found (s.literalNumber value)
  | none => (none, s)

/-- The type of the literal inside a literal type node. -/
def literalNodeType? (s : Store) (n : Node) : Option TypeId × Store :=
  match n.kind with
  | .nullKeyword => (some TypeId.null, s)
  | .trueKeyword => (some TypeId.trueLiteral, s)
  | .falseKeyword => (some TypeId.falseLiteral, s)
  | .stringLiteral => stringType? s n
  | .numericLiteral => numberType? s n
  | _ => (none, s)

/-- The types of several nodes in turn, up to the first that denotes none. -/
def collectTypes (one : NodeRef → Store → Option TypeId × Store) :
    List NodeRef → Store → Option (List TypeId) × Store
  | [], s => (some [], s)
  | r :: rest, s =>
    match one r s with
    | (none, s) => (none, s)
    | (some id, s) =>
      let (ids, s) := collectTypes one rest s
      (ids.map (id :: ·), s)

/-- The type that is made of the types of the parts of a composite type node. -/
def compositeType? (make : Store → List TypeId → TypeId × Store)
    (one : NodeRef → Store → Option TypeId × Store) (n : Node) (s : Store) :
    Option TypeId × Store :=
  match n.compositeType? with
  | none => (none, s)
  | some parts =>
    match collectTypes one parts s with
    | (some ids, s) => found (make s ids)
    | (none, s) => (none, s)

/-- The type that a type node denotes, down to a number of levels. -/
def resolveTypeTo (tree : Tree) (named : List (String × TypeId)) :
    Nat → NodeRef → Store → Option TypeId × Store
  | 0, _, s => (none, s)
  | depth + 1, r, s =>
    match tree.get? r with
    | none => (none, s)
    | some n =>
      match n.kind with
      | .literalType =>
        match n.wrappedType?.bind tree.get? with
        | some literal => literalNodeType? s literal
        | none => (none, s)
      | .unionType => compositeType? Store.union (resolveTypeTo tree named depth) n s
      | .intersectionType => compositeType? Store.intersection (resolveTypeTo tree named depth) n s
      | .arrayType =>
        match resolveTypeTo tree named depth (n.wrappedType?.getD none) s with
        | (some element, s) => found (s.array element)
        | (none, s) => (none, s)
      | .typeReference =>
        ((n.typeName?.bind tree.identifierText?).bind fun name => named.lookup name, s)
      | kind => (keywordType? kind, s)

/-- The type that a type node denotes. -/
def resolveType (tree : Tree) (named : List (String × TypeId)) (r : NodeRef) (s : Store) :
    Option TypeId × Store :=
  resolveTypeTo tree named tree.size r s

/-- The type that a type node denotes; it is worked out once and recorded. -/
def TypeTable.bindTypeNode (t : TypeTable) (tree : Tree) (r : NodeRef) :
    Option TypeId × TypeTable :=
  match t.typeOfTypeNode? r with
  | some id => (some id, t)
  | none =>
    match resolveType tree t.namedTypes r t.store with
    | (some id, s) => (some id, { t with store := s }.setTypeNodeType r id)
    | (none, s) => (none, { t with store := s })

end TypeLint.Binding
