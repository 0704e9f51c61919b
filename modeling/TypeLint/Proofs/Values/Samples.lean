import TypeLint.Proofs.Types.Canonical
import TypeLint.Proofs.Values.Literals

namespace TypeLint.Types

open Values

namespace LiteralValue

/-- The digits of a big integer are decimal ones behind an optional minus sign, and there are
    some. -/
def IsSpelled : LiteralValue → Prop
  | bigint digits =>
    ∃ cs : List Char, cs ≠ [] ∧ (∀ c ∈ cs, c.isDigit = true) ∧
      (digits.toList = cs ∨ digits.toList = '-' :: cs)
  | _ => True

variable {value : LiteralValue}

theorem IsSpelled.isDecimal (h : value.IsSpelled) : value.IsDecimal := by
  cases value with
  | bigint digits =>
    obtain ⟨cs, -, hdigits, hcs⟩ := h
    exact ⟨cs, hdigits, hcs⟩
  | _ => trivial

/-- The value of a literal. -/
def sample : LiteralValue → Value
  | string value => .string value
  | number value => .number value
  | bigint digits => .bigint ((bigintValue? digits).getD 0)
  | boolean value => .boolean value

theorem IsSpelled.denotes_sample (h : value.IsSpelled) : value.Denotes value.sample := by
  cases value with
  | bigint digits =>
    obtain ⟨cs, hne, hdigits, hcs⟩ := h
    have hn := magnitude?_decimal hne hdigits
    suffices hsome : ∃ value, bigintValue? digits = some value by
      obtain ⟨value, hvalue⟩ := hsome
      exact ⟨value, hvalue, by rw [sample, hvalue, Option.getD_some]⟩
    rcases hcs with hcs | hcs
    · exact ⟨_, by rw [bigintValue?_of_isDigit hdigits hcs, hn, Option.map_some]⟩
    · exact ⟨_, by rw [bigintValue?_minus hcs, hn, Option.map_some]⟩
  | _ => rfl

end LiteralValue

/-- A value of a keyword type. -/
def Intrinsic.sample : Intrinsic → Value
  | any | unknown | never | void | undefined => .undefined
  | null => .null
  | string => .string ""
  | number => .number (.zero false)
  | bigint => .bigint 0
  | symbol => .symbol ""
  | object => .object 0

theorem Intrinsic.holds_sample {kind : Intrinsic} (h : kind ≠ .never) : kind.Holds kind.sample := by
  cases kind with
  | any | unknown => trivial
  | never => exact (h rfl).elim
  | void | undefined | null => rfl
  | _ => exact ⟨_, rfl⟩

namespace Store

/-- The type is made of keyword types with values of their own, literals, unique symbols, arrays,
    tuples, objects and unions of these. -/
inductive Ground (s : Store) : TypeId → Prop where
  | intrinsic {id : TypeId} {kind : Intrinsic} (h : s.lookup id = some (.intrinsic kind))
      (hany : kind ≠ .any) (hunknown : kind ≠ .unknown) (hnever : kind ≠ .never) : Ground s id
  | literal {id : TypeId} {value : LiteralValue} (h : s.lookup id = some (.literal value))
      (hvalue : value.IsSpelled) : Ground s id
  | enumLiteral {id : TypeId} {enumName member : String} {value : LiteralValue}
      (h : s.lookup id = some (.enumLiteral enumName member value)) (hvalue : value.IsSpelled) :
      Ground s id
  | uniqueSymbol {id : TypeId} {name : String} (h : s.lookup id = some (.uniqueSymbol name)) :
      Ground s id
  /-- The elements may be of any type: there is the empty array. -/
  | array {id element : TypeId} (h : s.lookup id = some (.array element)) : Ground s id
  | tuple {id : TypeId} {elements : List TypeId} (h : s.lookup id = some (.tuple elements))
      (helements : ∀ element ∈ elements, Ground s element) : Ground s id
  | object {id : TypeId} {shape : ObjectShape} (h : s.lookup id = some (.object shape))
      (hproperties : ∀ p ∈ shape.properties, Ground s p.type) : Ground s id
  | union {id : TypeId} {members : List TypeId} (h : s.lookup id = some (.union members))
      (hmembers : ∀ m ∈ members, Ground s m) : Ground s id

variable {s s' : Store} {id part : TypeId}

theorem Ground.known (h : s.Ground id) : s.Known id := by
  cases h <;> exact known_of_lookup ‹_›

theorem Ground.extends (hs : s.Extends s') (h : s.Ground id) : s'.Ground id := by
  induction h with
  | intrinsic h hany hunknown hnever =>
    exact .intrinsic (hs.lookup_eq_some h) hany hunknown hnever
  | literal h hvalue => exact .literal (hs.lookup_eq_some h) hvalue
  | enumLiteral h hvalue => exact .enumLiteral (hs.lookup_eq_some h) hvalue
  | uniqueSymbol h => exact .uniqueSymbol (hs.lookup_eq_some h)
  | array h => exact .array (hs.lookup_eq_some h)
  | tuple h _ ih => exact .tuple (hs.lookup_eq_some h) ih
  | object h _ ih => exact .object (hs.lookup_eq_some h) ih
  | union h _ ih => exact .union (hs.lookup_eq_some h) ih

theorem Ground.of_mem_unionMembers (h : s.Ground id) (hpart : part ∈ s.unionMembers id) :
    s.Ground part := by
  rw [unionMembers] at hpart
  split at hpart
  · next members hdata =>
    cases h with
    | union h hmembers =>
      cases h.symm.trans hdata
      exact hmembers part hpart
    | _ => simp_all
  · exact List.mem_singleton.mp hpart ▸ h

/-- A type whose union parts are ground is ground. -/
theorem ground_of_unionMembers (h : ∀ part ∈ s.unionMembers id, s.Ground part) : s.Ground id := by
  rw [unionMembers] at h
  split at h
  · next members hdata => exact .union hdata h
  · exact h id (List.mem_singleton_self id)

theorem Ground.intersectionMembers_eq (h : s.Ground id) : s.intersectionMembers id = [id] := by
  rw [intersectionMembers]
  split
  · next members hdata => cases h <;> simp_all
  · rfl

/-- A ground type is none of `any`, `unknown` and `never`. -/
theorem Ground.lookup_ne (h : s.Ground id) :
    s.lookup id ≠ some (.intrinsic .any) ∧ s.lookup id ≠ some (.intrinsic .unknown) ∧
      s.lookup id ≠ some (.intrinsic .never) := by
  cases h <;> simp_all

/-- A value of a type that is no union. Objects bear the number of their type. -/
def samplePart (s : Store) (part : TypeId) : Value :=
  match s.lookup part with
  | some (.intrinsic kind) => kind.sample
  | some (.literal value) | some (.enumLiteral _ _ value) => value.sample
  | some (.uniqueSymbol name) => .symbol name
  | _ => .object part

/-- A value of a type: one of its first part. -/
def sample (s : Store) (id : TypeId) : Value := s.samplePart ((s.unionMembers id).headD id)

/-- The value of a property of an object that bears the number of its type. -/
def sampleProperty (s : Store) (id : TypeId) (name : String) : Value :=
  match s.lookup id with
  | some (.tuple elements) =>
    (((List.range elements.length).find? fun i => toString i == name).bind
      fun i => elements[i]?.map s.sample).getD .undefined
  | _ => ((s.ownProperty? id name).map fun p => s.sample p.type).getD .undefined

/-- The properties of all objects that bear the numbers of their types. -/
def sampleWorld (s : Store) : World where
  read
    | .object id, name => s.sampleProperty id name
    | _, _ => .undefined

theorem read_of_tuple {elements : List TypeId} (h : s.lookup id = some (.tuple elements))
    {i : Nat} {element : TypeId} (hi : elements[i]? = some element) :
    s.sampleWorld.read (.object id) (toString i) = s.sample element := by
  have hfind : (List.range elements.length).find? (fun j => toString j == toString i) = some i := by
    cases hfound : (List.range elements.length).find? (fun j => toString j == toString i) with
    | none =>
      have hmem : i ∈ List.range elements.length :=
        List.mem_range.mpr (List.getElem?_eq_some_iff.mp hi).1
      simpa using List.find?_eq_none.mp hfound i hmem
    | some j =>
      have hj : toString j = toString i := by simpa using List.find?_some hfound
      rw [Nat.repr_inj.mp hj]
  change s.sampleProperty id (toString i) = s.sample element
  rw [sampleProperty, h]
  simp only [hfind, Option.bind_some, hi, Option.map_some, Option.getD_some]

theorem ownProperty?_of_lookup {shape : ObjectShape} (h : s.lookup id = some (.object shape))
    (name : String) : s.ownProperty? id name = shape.properties.find? (·.name == name) := by
  rw [ownProperty?, properties, h]

theorem read_of_object {shape : ObjectShape} (h : s.lookup id = some (.object shape))
    {name : String} {p : Property} (hp : s.ownProperty? id name = some p) :
    s.sampleWorld.read (.object id) name = s.sample p.type := by
  change s.sampleProperty id name = s.sample p.type
  rw [sampleProperty, h]
  simp only [hp, Option.map_some, Option.getD_some]

theorem sample_of_unionMembers (h : s.unionMembers id = [id]) : s.sample id = s.samplePart id := by
  rw [sample, h]
  rfl

theorem sample_of_isSimple {data : TypeData} (h : s.lookup id = some data)
    (hsimple : data.isSimple = true) : s.sample id = s.samplePart id := by
  refine sample_of_unionMembers ?_
  rw [unionMembers, h]
  cases data <;> first | rfl | cases hsimple

/-- Every ground type has a value. -/
theorem Canonical.inhabits_sample (h : s.Canonical) (hground : s.Ground id) :
    Inhabits s.sampleWorld s (s.sample id) id := by
  induction hground with
  | intrinsic hdata _ _ hnever =>
    rw [sample_of_isSimple hdata rfl, samplePart, hdata]
    exact .intrinsic hdata (Intrinsic.holds_sample hnever)
  | literal hdata hvalue =>
    rw [sample_of_isSimple hdata rfl, samplePart, hdata]
    exact .literal hdata hvalue.denotes_sample
  | enumLiteral hdata hvalue =>
    rw [sample_of_isSimple hdata rfl, samplePart, hdata]
    exact .enumLiteral hdata hvalue.denotes_sample
  | uniqueSymbol hdata =>
    rw [sample_of_isSimple hdata rfl, samplePart, hdata]
    exact .uniqueSymbol hdata
  | array hdata =>
    rw [sample_of_isSimple hdata rfl, samplePart, hdata]
    exact .array hdata
  | tuple hdata _ ih =>
    rw [sample_of_isSimple hdata rfl, samplePart, hdata]
    refine .tuple hdata fun i element hi => ?_
    rw [read_of_tuple hdata hi]
    exact ih element (List.mem_of_getElem? hi)
  | object hdata _ ih =>
    rw [sample_of_isSimple hdata rfl, samplePart, hdata]
    refine .object hdata fun name p hp _ => ?_
    rw [read_of_object hdata hp]
    exact ih p (List.mem_of_find?_eq_some ((ownProperty?_of_lookup hdata name).symm.trans hp))
  | @union id members hdata _ ih =>
    -- The sample is that of the first part, which has no parts of its own.
    have hmembers : s.unionMembers id = members := members_of_lookup (c := .union) hdata
    obtain ⟨first, rest, rfl⟩ := List.exists_cons_of_ne_nil fun hnil : members = [] => by
      cases hnil ▸ (h.reduced .union id members hdata).several
    have hfirst : first ∈ first :: rest := List.mem_cons_self
    have hself : s.unionMembers first = [first] :=
      h.members_of_mem (c := .union) (show first ∈ s.unionMembers id from hmembers ▸ hfirst)
    have hsample : s.sample id = s.sample first := by
      rw [sample_of_unionMembers hself, sample, hmembers]
      rfl
    exact hsample ▸ .union hdata hfirst (ih first hfirst)

end Store

end TypeLint.Types
