import TypeLint.Types.Flags

namespace TypeLint.Types

/-- The types known so far, and what is written down to find their numbers again. -/
@[ext]
structure Store where
  /-- The types by their numbers. -/
  types : Array TypeData
  /-- The numbers by their types. -/
  numbers : List (TypeData × TypeId)
  inverse : ∀ data id, numbers.lookup data = some id ↔ types[id]? = some data

/-- Puts an id into its place in an ascending list without repetition. -/
def insertId (id : TypeId) : List TypeId → List TypeId
  | [] => [id]
  | other :: rest =>
    if id < other then id :: other :: rest
    else if id = other then other :: rest
    else other :: insertId id rest

/-- The ids of a list in ascending order without repetition. -/
def sortIds (ids : List TypeId) : List TypeId := ids.foldr insertId []

namespace Store

/-- The store without types. -/
def empty : Store := ⟨#[], [], by simp⟩

instance : Inhabited Store := ⟨empty⟩

/-- The number of types known. -/
def size (s : Store) : Nat := s.types.size

/-- The structure of a type, if it is known. -/
def lookup (s : Store) (id : TypeId) : Option TypeData := s.types[id]?

/-- Gives the next number to a type that has none. -/
def append (s : Store) (data : TypeData) (h : s.numbers.lookup data = none) : Store where
  types := s.types.push data
  numbers := (data, s.types.size) :: s.numbers
  inverse other id := by
    have hold := s.inverse other id
    rw [List.lookup_cons, Array.getElem?_push]
    by_cases hother : other = data
    · subst hother
      have hnone : s.types[id]? ≠ some other := fun hdata => by
        cases h.symm.trans (hold.mpr hdata)
      by_cases hid : id = s.types.size
      · simp [hid]
      · simp [hid, hnone, Ne.symm hid]
    · have hbeq : (other == data) = false := beq_eq_false_iff_ne.mpr hother
      rw [hbeq]
      by_cases hid : id = s.types.size
      · subst hid
        have hnone : s.types[s.types.size]? ≠ some other := by simp
        simp [Ne.symm hother, hold]
      · simp [hid, hold]

/-- The number of a type by its structure. -/
def intern (s : Store) (data : TypeData) : TypeId × Store :=
  match h : s.numbers.lookup data with
  | some id => (id, s)
  | none => (s.types.size, s.append data h)

/-- The types that have fixed numbers, in the order of these. -/
def keywords : List TypeData :=
  [.intrinsic .any, .intrinsic .unknown, .intrinsic .never, .intrinsic .void,
    .intrinsic .undefined, .intrinsic .null, .intrinsic .string, .intrinsic .number,
    .intrinsic .bigint, .intrinsic .symbol, .intrinsic .object, .literal (.boolean true),
    .literal (.boolean false), .union [TypeId.trueLiteral, TypeId.falseLiteral]]

/-- The store with the types that have fixed numbers. -/
def initial : Store := keywords.foldl (fun s data => (s.intern data).2) empty

/-- A string literal type. -/
def literalString (s : Store) (value : String) : TypeId × Store :=
  s.intern (.literal (.string value))

/-- A number literal type. -/
def literalNumber (s : Store) (value : Double) : TypeId × Store :=
  s.intern (.literal (.number value))

/-- A big integer literal type; the digits come without a suffix. -/
def literalBigint (s : Store) (digits : String) : TypeId × Store :=
  s.intern (.literal (.bigint digits))

/-- The type of `true` or `false`. -/
def literalBoolean (value : Bool) : TypeId :=
  if value then TypeId.trueLiteral else TypeId.falseLiteral

/-- A member of an enumeration. -/
def enumLiteral (s : Store) (enumName member : String) (value : LiteralValue) : TypeId × Store :=
  s.intern (.enumLiteral enumName member value)

/-- A unique symbol. -/
def uniqueSymbol (s : Store) (name : String) : TypeId × Store := s.intern (.uniqueSymbol name)

/-- A type parameter with its constraint. -/
def parameter (s : Store) (name : String) (constraint : Option TypeId) : TypeId × Store :=
  s.intern (.parameter name constraint)

/-- An array type. -/
def array (s : Store) (element : TypeId) : TypeId × Store := s.intern (.array element)

/-- A tuple type. -/
def tuple (s : Store) (elements : List TypeId) : TypeId × Store := s.intern (.tuple elements)

/-- An object type. -/
def object (s : Store) (shape : ObjectShape) : TypeId × Store := s.intern (.object shape)

/-- A function type with one call signature. -/
def function (s : Store) (returnType : TypeId) : TypeId × Store :=
  s.object ⟨none, [], [], [returnType]⟩

/-- The members of a union, or a type itself. -/
def unionMembers (s : Store) (id : TypeId) : List TypeId :=
  match s.lookup id with
  | some (.union members) => members
  | _ => [id]

/-- The members of an intersection, or a type itself. -/
def intersectionMembers (s : Store) (id : TypeId) : List TypeId :=
  match s.lookup id with
  | some (.intersection members) => members
  | _ => [id]

/-- A literal whose primitive type stands in the list beside it. -/
def isAbsorbed (s : Store) (members : List TypeId) (id : TypeId) : Bool :=
  match s.lookup id with
  | some (.literal (.string _)) => members.contains TypeId.string
  | some (.literal (.number _)) => members.contains TypeId.number
  | some (.literal (.bigint _)) => members.contains TypeId.bigint
  | _ => false

/-- The type of a list of sorted distinct members: the type of an empty list, the only member, or
    what is made of several. -/
def compose (s : Store) (ofNone : TypeId) (make : List TypeId → TypeData) :
    List TypeId → TypeId × Store
  | [] => (ofNone, s)
  | [only] => (only, s)
  | members => s.intern (make members)

/-- The union of some types. `any` and then `unknown` absorb everything, `never` adds nothing, and
    a primitive type absorbs its literals. -/
def union (s : Store) (members : List TypeId) : TypeId × Store :=
  let flat := members.flatMap s.unionMembers
  if flat.contains TypeId.any then (TypeId.any, s)
  else if flat.contains TypeId.unknown then (TypeId.unknown, s)
  else
    let kept := (flat.filter (· != TypeId.never)).filter fun id => !s.isAbsorbed flat id
    s.compose TypeId.never .union (sortIds kept)

/-- The intersection of some types. `never` and then `any` absorb everything, and `unknown` adds
    nothing. -/
def intersection (s : Store) (members : List TypeId) : TypeId × Store :=
  let flat := members.flatMap s.intersectionMembers
  if flat.contains TypeId.never then (TypeId.never, s)
  else if flat.contains TypeId.any then (TypeId.any, s)
  else s.compose TypeId.unknown .intersection (sortIds (flat.filter (· != TypeId.unknown)))

/-- The members of an enumeration as types. -/
def enumMembers (s : Store) (enumName : String) :
    List (String × LiteralValue) → List TypeId × Store
  | [] => ([], s)
  | (member, value) :: rest =>
    let (id, s) := s.enumLiteral enumName member value
    let (ids, s) := s.enumMembers enumName rest
    (id :: ids, s)

/-- An enumeration: the union of its members. -/
def enumType (s : Store) (enumName : String) (members : List (String × LiteralValue)) :
    TypeId × Store :=
  let (ids, s) := s.enumMembers enumName members
  s.union ids

end Store

end TypeLint.Types
