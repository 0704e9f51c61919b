import TypeLint.Types.Store
import TypeLint.Decimal.Reader

namespace TypeLint.Types.Store

/-- The flags of a type; `boolean` has a flag of its own besides that of unions. -/
def flagsOf (s : Store) (id : TypeId) : Flags :=
  match s.lookup id with
  | some (.union _) =>
    if id = TypeId.boolean then Flags.unionType ∪ Flags.boolean else Flags.unionType
  | some data => data.flags
  | none => .empty

/-- A union part of the type has one of the flags. -/
def hasFlag (s : Store) (id : TypeId) (flags : Flags) : Bool :=
  (s.unionMembers id).any fun part => (s.flagsOf part).intersects flags

/-- The union parts of a type, and the members of those that are intersections. -/
def atomicParts (s : Store) (id : TypeId) : List TypeId :=
  (s.unionMembers id).flatMap s.intersectionMembers

/-- The type is a union. -/
def isUnion (s : Store) (id : TypeId) : Bool :=
  match s.lookup id with
  | some (.union _) => true
  | _ => false

/-- The type is an intersection. -/
def isIntersection (s : Store) (id : TypeId) : Bool :=
  match s.lookup id with
  | some (.intersection _) => true
  | _ => false

/-- The type is a type parameter. -/
def isParameter (s : Store) (id : TypeId) : Bool :=
  match s.lookup id with
  | some (.parameter _ _) => true
  | _ => false

/-- The type is an array type. -/
def isArray (s : Store) (id : TypeId) : Bool :=
  match s.lookup id with
  | some (.array _) => true
  | _ => false

/-- The type is a tuple type. -/
def isTuple (s : Store) (id : TypeId) : Bool :=
  match s.lookup id with
  | some (.tuple _) => true
  | _ => false

/-- Every union part is an array or a tuple. -/
def isArrayOrTuple (s : Store) (id : TypeId) : Bool :=
  (s.unionMembers id).all fun part => s.isArray part || s.isTuple part

/-- The constraint of a type parameter that has one. -/
def constraint? (s : Store) (id : TypeId) : Option TypeId :=
  match s.lookup id with
  | some (.parameter _ constraint) => constraint
  | _ => none

/-- Goes from a type parameter to its constraint a number of times, until there is none or it is
    its own. -/
def constraintAfter (s : Store) : Nat → TypeId → TypeId
  | 0, id => id
  | steps + 1, id =>
    match s.constraint? id with
    | some bound => if bound = id then id else constraintAfter s steps bound
    | none => id

/-- How many constraints are followed. -/
def constraintSteps : Nat := 16

/-- The constraint of a type parameter, resolved through further parameters; any other type stands
    for itself. -/
def baseConstraint (s : Store) (id : TypeId) : TypeId := s.constraintAfter constraintSteps id

/-- The properties of an object type. -/
def properties (s : Store) (id : TypeId) : List Property :=
  match s.lookup id with
  | some (.object shape) => shape.properties
  | _ => []

/-- The index signatures of an object type, or the one of an array. -/
def indexSignatures (s : Store) (id : TypeId) : List IndexSignature :=
  match s.lookup id with
  | some (.object shape) => shape.indexSignatures
  | some (.array element) => [⟨TypeId.number, element⟩]
  | _ => []

/-- The return types of the call signatures of an object type. -/
def callReturns (s : Store) (id : TypeId) : List TypeId :=
  match s.lookup id with
  | some (.object shape) => shape.callReturns
  | _ => []

/-- A property of an object type by its name. -/
def ownProperty? (s : Store) (id : TypeId) (name : String) : Option Property :=
  (s.properties id).find? (·.name == name)

/-- The elements of a tuple type. -/
def tupleElements? (s : Store) (id : TypeId) : Option (List TypeId) :=
  match s.lookup id with
  | some (.tuple elements) => some elements
  | _ => none

/-- Looks a property up in the members of an intersection. The first member that declares it or is
    a tuple decides, the latter only for a name that spells an index. An optional property may
    also be `undefined`. -/
def propertyIn (s : Store) (name : String) : List TypeId → Option TypeId × Store
  | [] => (none, s)
  | part :: rest =>
    match s.ownProperty? part name with
    | some p =>
      if p.optional then
        let (id, s) := s.union [p.type, TypeId.undefined]
        (some id, s)
      else (some p.type, s)
    | none =>
      match s.tupleElements? part, Decimal.readIndex? name with
      | some elements, some index => (elements[index]?, s)
      | _, _ => s.propertyIn name rest

/-- The type of a property. Intersections are searched member by member; unions are not
    resolved. -/
def propertyType (s : Store) (id : TypeId) (name : String) : Option TypeId × Store :=
  s.propertyIn name (s.intersectionMembers id)

/-- The union part is `null` or `undefined`. -/
def isNullishPart (s : Store) (id : TypeId) : Bool := (s.flagsOf id).intersects .nullable

/-- The property of a union part by its name. -/
def partProperty? (s : Store) (name : String) (part : TypeId) : Option Property :=
  (s.intersectionMembers part).findSome? fun member => s.ownProperty? member name

/-- Looks at the union parts in turn, of which `found` says whether one before declared the
    property optional. -/
def optionalIn (s : Store) (name : String) (found : Bool) : List TypeId → Bool
  | [] => found
  | part :: rest =>
    if s.isNullishPart part then s.optionalIn name found rest
    else
      match s.partProperty? name part with
      | some p => s.optionalIn name (found || p.optional) rest
      | none => false

/-- The property is declared optional in a union part, and no part that is not nullish lacks
    it. -/
def isOptionalProperty (s : Store) (id : TypeId) (name : String) : Bool :=
  s.optionalIn name false (s.unionMembers id)

/-- The index signatures of a type and of the members of an intersection. -/
def allIndexSignatures (s : Store) (id : TypeId) : List IndexSignature :=
  (s.intersectionMembers id).flatMap s.indexSignatures

/-- The key types of the index signatures of a type. -/
def indexKeys (s : Store) (id : TypeId) : List TypeId := (s.allIndexSignatures id).map (·.key)

/-- The value type of the index signature for a key type. -/
def indexType? (s : Store) (id key : TypeId) : Option TypeId :=
  ((s.allIndexSignatures id).find? (·.key == key)).map (·.value)

/-- The return types of every call signature of every union part. -/
def allCallReturns (s : Store) (id : TypeId) : List TypeId :=
  (s.unionMembers id).flatMap s.callReturns

/-- A union part is `null` or `undefined`. -/
def isNullable (s : Store) (id : TypeId) : Bool := s.hasFlag id .nullable

/-- A union part is `null` or `undefined`. -/
def isPossiblyNullish (s : Store) (id : TypeId) : Bool := (s.unionMembers id).any s.isNullishPart

/-- Every union part is `null` or `undefined`. -/
def isAlwaysNullish (s : Store) (id : TypeId) : Bool := (s.unionMembers id).all s.isNullishPart

/-- A union part is `null`, `undefined`, `void`, or a type that holds everything. -/
def isNullableLike (s : Store) (id : TypeId) : Bool :=
  s.hasFlag id (Flags.anyOrUnknown ∪ Flags.nullable ∪ Flags.void)

/-- A union part is `any` or `unknown`. -/
def isAnyOrUnknown (s : Store) (id : TypeId) : Bool := s.hasFlag id .anyOrUnknown

/-- The enumeration of a member of one. -/
def enumOfPart? (s : Store) (part : TypeId) : Option String :=
  match s.lookup part with
  | some (.enumLiteral enumName _ _) => some enumName
  | _ => none

/-- The enumeration that all union parts of a type belong to. -/
def enumName? (s : Store) (id : TypeId) : Option String :=
  match (s.unionMembers id).map s.enumOfPart? with
  | [] => none
  | first :: rest => if rest.all (· == first) then first else none

/-- The name of a member of an enumeration or of a unique symbol. -/
def memberName? (s : Store) (id : TypeId) : Option String :=
  match s.lookup id with
  | some (.enumLiteral _ member _) => some member
  | some (.uniqueSymbol name) => some name
  | _ => none

/-- The name of the symbol behind a type. -/
def symbolName? (s : Store) (id : TypeId) : Option String :=
  match s.lookup id with
  | some (.enumLiteral _ member _) => some member
  | some (.uniqueSymbol name) => some name
  | some (.parameter name _) => some name
  | some (.object shape) => shape.name
  | _ => none

/-- The value of a literal type or of a member of an enumeration. -/
def literalValue? (s : Store) (id : TypeId) : Option LiteralValue :=
  match s.lookup id with
  | some (.literal value) => some value
  | some (.enumLiteral _ _ value) => some value
  | _ => none

/-- The type has one value: a literal, `null`, `undefined` or a unique symbol. -/
def isLiteralLike (s : Store) (id : TypeId) : Bool :=
  (s.flagsOf id).intersects
    (Flags.literal ∪ Flags.undefined ∪ Flags.null ∪ Flags.uniqueSymbol)

/-- The value of a literal type counts as true. -/
def isTruthyLiteral (s : Store) (id : TypeId) : Bool :=
  ((s.literalValue? id).map LiteralValue.isTruthy).getD false

/-- A part of which every value counts as false. -/
def isFalsy (s : Store) (id : TypeId) : Bool :=
  if (s.flagsOf id).intersects (Flags.void ∪ Flags.nullable) then true
  else ((s.literalValue? id).map fun value => !value.isTruthy).getD false

/-- Some value of the type may count as false. -/
def isPossiblyFalsy (s : Store) (id : TypeId) : Bool :=
  ((s.atomicParts id).filter fun part => !s.isTruthyLiteral part).any fun part =>
    (s.flagsOf part).intersects .possiblyFalsy

/-- Some value of the type may count as true. -/
def isPossiblyTruthy (s : Store) (id : TypeId) : Bool :=
  (s.unionMembers id).any fun part =>
    (s.intersectionMembers part).all fun member => !s.isFalsy member

end TypeLint.Types.Store
