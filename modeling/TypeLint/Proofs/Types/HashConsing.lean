import TypeLint.Proofs.Types.Made

namespace TypeLint.Types.Store

/-- What can be asked of a store. The numbers need not be those of known types. -/
inductive Request where
  | intern (data : TypeData)
  | literalString (value : String)
  | literalNumber (value : Double)
  | literalBigint (digits : String)
  | literalBoolean (value : Bool)
  | enumLiteral (enumName member : String) (value : LiteralValue)
  | enumType (enumName : String) (members : List (String × LiteralValue))
  | uniqueSymbol (name : String)
  | parameter (name : String) (constraint : Option TypeId)
  | array (element : TypeId)
  | tuple (elements : List TypeId)
  | object (shape : ObjectShape)
  | function (returnType : TypeId)
  | union (members : List TypeId)
  | intersection (members : List TypeId)

/-- The answer of a store to a request, and the store behind it. -/
def answer (s : Store) : Request → TypeId × Store
  | .intern data => s.intern data
  | .literalString value => s.literalString value
  | .literalNumber value => s.literalNumber value
  | .literalBigint digits => s.literalBigint digits
  | .literalBoolean value => (literalBoolean value, s)
  | .enumLiteral enumName member value => s.enumLiteral enumName member value
  | .enumType enumName members => s.enumType enumName members
  | .uniqueSymbol name => s.uniqueSymbol name
  | .parameter name constraint => s.parameter name constraint
  | .array element => s.array element
  | .tuple elements => s.tuple elements
  | .object shape => s.object shape
  | .function returnType => s.function returnType
  | .union members => s.union members
  | .intersection members => s.intersection members

/-- The store behind some requests. -/
def serve (s : Store) (requests : List Request) : Store :=
  requests.foldl (fun s request => (s.answer request).2) s

variable {s s' s'' : Store} {id : TypeId} {data : TypeData}

/-- The search for a type by its structure is the inverse of the look-up. -/
theorem idxOf?_eq_some_iff : s.types.idxOf? data = some id ↔ s.lookup id = some data := by
  rw [Array.idxOf?, Option.map_eq_some_iff]
  constructor
  · rintro ⟨place, hplace, rfl⟩
    have hdata : s.types[place] = data := (Array.finIdxOf?_eq_some_iff.mp hplace).1
    exact (Array.getElem?_eq_getElem place.isLt).trans (congrArg some hdata)
  · intro hdata
    obtain ⟨hlt, hget⟩ := Array.getElem?_eq_some_iff.mp hdata
    refine ⟨⟨id, hlt⟩, Array.finIdxOf?_eq_some_iff.mpr ⟨hget, fun other hother heq => ?_⟩, rfl⟩
    have hsame := s.unique ((Array.getElem?_eq_getElem other.isLt).trans (congrArg some heq)) hdata
    exact Nat.ne_of_lt hother hsame

theorem extends_intersection (s : Store) (members : List TypeId) :
    s.Extends (s.intersection members).2 := by
  simp only [Store.intersection]
  split_ifs
  · exact .refl s
  · exact .refl s
  · exact s.extends_compose _ _ _

theorem extends_enumMembers (s : Store) (enumName : String)
    (members : List (String × LiteralValue)) : s.Extends (s.enumMembers enumName members).2 := by
  induction members generalizing s with
  | nil => exact .refl s
  | cons member rest ih => exact (s.extends_intern _).trans (ih _)

/-- No request changes a type that is known. -/
theorem extends_answer (s : Store) (request : Request) : s.Extends (s.answer request).2 := by
  cases request with
  | literalBoolean value => exact .refl s
  | enumType enumName members =>
    exact (s.extends_enumMembers enumName members).trans (extends_union _ _)
  | union members => exact s.extends_union members
  | intersection members => exact s.extends_intersection members
  | _ => exact s.extends_intern _

theorem extends_serve (s : Store) (requests : List Request) : s.Extends (s.serve requests) := by
  induction requests generalizing s with
  | nil => exact .refl s
  | cons request rest ih => exact (s.extends_answer request).trans (ih _)

theorem serve_append (s : Store) (before after : List Request) :
    s.serve (before ++ after) = (s.serve before).serve after := List.foldl_append

/-- Behind any requests the keyword types have their fixed numbers, the numbers that are written down
    are the inverse of the look-up, so that they are what a search for a type would find, two numbers
    are those of the same type only if they are the same, and asking for a known type gives its
    number and leaves the store alone. Further requests change neither what a known number stands
    for nor the number of a type that has been asked for. -/
theorem serve_consed (before after : List Request) :
    (∀ id, TypeId.isBuiltin id = true →
      (initial.serve before).lookup id = initial.lookup id) ∧
    (∀ id data, (initial.serve before).numbers.lookup data = some id ↔
      (initial.serve before).lookup id = some data) ∧
    (∀ id data, (initial.serve before).types.idxOf? data = some id ↔
      (initial.serve before).lookup id = some data) ∧
    (∀ id id' data, (initial.serve before).lookup id = some data →
      (initial.serve before).lookup id' = some data → id = id') ∧
    (∀ id data, (initial.serve before).lookup id = some data →
      (initial.serve before).intern data = (id, initial.serve before)) ∧
    (∀ id, (initial.serve before).Known id →
      (initial.serve (before ++ after)).lookup id = (initial.serve before).lookup id) ∧
    ∀ data, (initial.serve (before ++ [.intern data] ++ after)).intern data =
      (((initial.serve before).intern data).1, initial.serve (before ++ [.intern data] ++ after)) := by
  have hsplit (requests : List Request) :
      (initial.serve before).Extends (initial.serve (before ++ requests)) := by
    rw [serve_append]
    exact extends_serve _ requests
  refine ⟨fun id hid => initial.extends_serve before id (of_decide_eq_true hid),
    fun id data => (initial.serve before).inverse data id, fun id data => idxOf?_eq_some_iff,
    fun id id' data => unique, fun id data => intern_eq, hsplit after, fun data => ?_⟩
  have hmiddle : initial.serve (before ++ [.intern data]) =
      ((initial.serve before).intern data).2 := serve_append ..
  have hlater : ((initial.serve before).intern data).2.Extends
      (initial.serve (before ++ [.intern data] ++ after)) := by
    rw [← hmiddle, serve_append initial (before ++ [Request.intern data]) after]
    exact extends_serve _ after
  exact intern_eq (hlater.lookup_eq_some ((initial.serve before).lookup_intern data))

end TypeLint.Types.Store
