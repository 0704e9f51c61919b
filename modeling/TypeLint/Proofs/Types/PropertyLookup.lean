import TypeLint.Proofs.Types.Canonical

namespace TypeLint.Types.Store

variable {s : Store} {id m part : TypeId} {ids ms parts : List TypeId} {name : String}

/-- The type has the property when it is asked alone. -/
def hasProperty (s : Store) (name : String) (id : TypeId) : Bool :=
  (s.propertyType id name).1.isSome

/-- The property of the first of some types that has it. -/
def firstProperty (s : Store) (name : String) (ids : List TypeId) : Option TypeId × Store :=
  match ids.find? (s.hasProperty name) with
  | some id => s.propertyType id name
  | none => (none, s)

/-- The type is a tuple type, and the name spells an index at which it has no element. -/
def isTooShort (s : Store) (name : String) (id : TypeId) : Bool :=
  match s.tupleElements? id, Decimal.readIndex? name with
  | some elements, some index => elements.length ≤ index
  | _, _ => false

/-- The types in front of the first tuple that is too short. -/
def searched (s : Store) (name : String) (ids : List TypeId) : List TypeId :=
  ids.takeWhile fun id => !s.isTooShort name id

theorem firstProperty_cons : s.firstProperty name (id :: ids) =
    if s.hasProperty name id = true then s.propertyType id name else s.firstProperty name ids := by
  rw [firstProperty, List.find?_cons]
  cases s.hasProperty name id <;> rfl

theorem isSome_firstProperty :
    (s.firstProperty name ids).1.isSome = ids.any (s.hasProperty name) := by
  induction ids with
  | nil => rfl
  | cons id ids ih =>
    rw [firstProperty_cons, List.any_cons]
    split_ifs with hid
    · rw [hid, Bool.true_or]
      exact hid
    · rw [Bool.not_eq_true] at hid
      rw [hid, Bool.false_or, ih]

theorem isTooShort_iff : s.isTooShort name id = true ↔
    ∃ elements index, s.tupleElements? id = some elements ∧
      Decimal.readIndex? name = some index ∧ elements.length ≤ index := by
  rw [isTooShort]
  cases s.tupleElements? id <;> cases Decimal.readIndex? name <;> simp

theorem ownProperty?_of_tupleElements? {elements : List TypeId}
    (h : s.tupleElements? id = some elements) : s.ownProperty? id name = none := by
  rw [tupleElements?] at h
  split at h
  · next hdata => rw [ownProperty?, properties, hdata]; rfl
  · cases h

section

variable (hm : s.intersectionMembers m = [m])

include hm

theorem propertyType_alone (name : String) : s.propertyType m name = s.propertyIn name [m] := by
  rw [propertyType, hm]

/-- The search ends at a member that has the property. -/
theorem propertyIn_of_hasProperty (h : s.hasProperty name m = true) :
    s.propertyIn name (m :: ms) = s.propertyType m name := by
  rw [hasProperty, propertyType_alone hm, propertyIn] at h
  rw [propertyType_alone hm, propertyIn, propertyIn]
  cases hown : s.ownProperty? m name with
  | some p => rfl
  | none =>
    rw [hown] at h
    dsimp only at h ⊢
    split
    · rfl
    · next hnot =>
      split at h
      · next elements index helements hindex => exact (hnot _ _ helements hindex).elim
      · cases h

/-- The search ends at a tuple that is too short, which does not have the property. -/
theorem propertyIn_of_isTooShort (h : s.isTooShort name m = true) :
    s.hasProperty name m = false ∧ s.propertyIn name (m :: ms) = (none, s) := by
  obtain ⟨elements, index, helements, hindex, hle⟩ := isTooShort_iff.mp h
  have hsearch (ms : List TypeId) : s.propertyIn name (m :: ms) = (none, s) := by
    rw [propertyIn, ownProperty?_of_tupleElements? helements, helements, hindex]
    exact congrArg (·, s) (List.getElem?_eq_none hle)
  refine ⟨?_, hsearch ms⟩
  rw [hasProperty, propertyType_alone hm, hsearch]
  rfl

/-- The search goes on behind any other member. -/
theorem propertyIn_of_neither (hhas : s.hasProperty name m = false)
    (hshort : s.isTooShort name m = false) :
    s.propertyIn name (m :: ms) = s.propertyIn name ms := by
  rw [hasProperty, propertyType_alone hm, propertyIn] at hhas
  rw [propertyIn]
  cases hown : s.ownProperty? m name with
  | some p =>
    rw [hown] at hhas
    dsimp only at hhas
    split_ifs at hhas <;> cases hhas
  | none =>
    rw [hown] at hhas
    dsimp only at hhas ⊢
    split
    · next elements index helements hindex =>
      rw [helements, hindex] at hhas
      refine absurd (isTooShort_iff.mpr ⟨elements, index, helements, hindex, ?_⟩)
        (Bool.not_eq_true _ ▸ hshort)
      exact List.getElem?_eq_none_iff.mp
        (Option.isNone_iff_eq_none.mp (Option.isSome_eq_false_iff.mp hhas))
    · rfl

end

/-- The search gives the property of the first type that has it in front of any tuple that is too
    short. -/
theorem propertyIn_eq_firstProperty (hms : ∀ m ∈ ms, s.intersectionMembers m = [m]) :
    s.propertyIn name ms = s.firstProperty name (s.searched name ms) := by
  induction ms with
  | nil => rfl
  | cons m ms ih =>
    obtain ⟨hm, hms⟩ := List.forall_mem_cons.mp hms
    rw [searched]
    cases hshort : s.isTooShort name m with
    | true =>
      rw [(propertyIn_of_isTooShort hm hshort).2, List.takeWhile_cons_of_neg (by simp [hshort])]
      rfl
    | false =>
      rw [List.takeWhile_cons_of_pos (by simp [hshort]), firstProperty_cons, ← searched, ← ih hms]
      split_ifs with hhas
      · exact propertyIn_of_hasProperty hm hhas
      · exact propertyIn_of_neither hm (Bool.not_eq_true _ ▸ hhas) hshort

/-- The first of some types that has a property stands in a part in front of them, if this part has
    one that has it. -/
theorem firstProperty_append_eq_iff (s : Store) (name : String) (ids ms : List TypeId) :
    s.firstProperty name ids = s.firstProperty name (ids ++ ms) ↔
      ((ids ++ ms).any (s.hasProperty name) = true → ids.any (s.hasProperty name) = true) := by
  induction ids with
  | nil =>
    rw [List.nil_append]
    constructor
    · intro heq hany
      rwa [← isSome_firstProperty, ← heq] at hany
    · intro himp
      cases hany : ms.any (s.hasProperty name) with
      | true => cases himp hany
      | false =>
        have hnone : ms.find? (s.hasProperty name) = none :=
          List.find?_eq_none.mpr (List.any_eq_false.mp hany)
        rw [firstProperty, firstProperty, hnone]
        rfl
  | cons id ids ih =>
    rw [List.cons_append, firstProperty_cons, firstProperty_cons, List.any_cons, List.any_cons]
    split_ifs with hid
    · simp [hid]
    · rw [Bool.not_eq_true] at hid
      rw [hid, Bool.false_or, Bool.false_or, ih]

/-- In a store that is made, an intersection has the property of its first member that has it and
    stands in front of any tuple that is too short for an index that the name spells. That is the
    property of the first of all its members that has it, exactly if one of those that have it
    stands in front of such a tuple, or none has it. -/
theorem Made.propertyType_intersection (h : s.Made) {members : List TypeId}
    (hdata : s.lookup id = some (.intersection members)) (name : String) :
    s.propertyType id name = s.firstProperty name (s.searched name members) ∧
    ((s.propertyType id name).1 = none ↔
      ∀ m ∈ s.searched name members, s.hasProperty name m = false) ∧
    (s.propertyType id name = s.firstProperty name members ↔
      ((∃ m ∈ members, s.hasProperty name m = true) →
        ∃ m ∈ s.searched name members, s.hasProperty name m = true)) := by
  have hmembers : s.intersectionMembers id = members :=
    members_of_lookup (c := .intersection) hdata
  have hsearch : s.propertyType id name = s.firstProperty name (s.searched name members) := by
    rw [propertyType, hmembers]
    refine propertyIn_eq_firstProperty fun m hm => ?_
    exact h.normal.members_of_mem (c := .intersection) (hmembers.symm ▸ hm)
  refine ⟨hsearch, ?_, ?_⟩
  · rw [hsearch, ← Option.isNone_iff_eq_none, ← Option.isSome_eq_false_iff, isSome_firstProperty,
      List.any_eq_false]
    simp only [Bool.not_eq_true]
  · have hsplit : s.searched name members ++ members.dropWhile (fun m => !s.isTooShort name m) =
        members := List.takeWhile_append_dropWhile
    have hiff := s.firstProperty_append_eq_iff name (s.searched name members)
      (members.dropWhile fun m => !s.isTooShort name m)
    rw [hsplit, List.any_eq_true, List.any_eq_true] at hiff
    rw [hsearch, hiff]

/-- A store with an object type with the property `1`, a tuple type of one element, a further object
    type with the property `1`, and the intersections of the tuple type with each of the two. -/
def tupleStore : Store :=
  initial.serve [.object ⟨none, [⟨"1", TypeId.number, false, false⟩], [], []⟩,
    .tuple [TypeId.string], .object ⟨none, [⟨"1", TypeId.boolean, false, false⟩], [], []⟩,
    .intersection [14, 15], .intersection [15, 16]]

theorem made_tupleStore : tupleStore.Made := Made.initial.serve (by decide)

/-- The object type stands in front of the tuple type. -/
theorem propertyType_intersection_found :
    tupleStore.Made ∧ tupleStore.lookup 17 = some (.intersection [14, 15]) ∧
      tupleStore.isTooShort "1" 15 = true ∧
      tupleStore.propertyType 17 "1" = tupleStore.firstProperty "1" [14, 15] ∧
      (tupleStore.firstProperty "1" [14, 15]).1 = some TypeId.number := by
  have hdata : tupleStore.lookup 17 = some (.intersection [14, 15]) := by decide
  obtain ⟨-, -, hiff⟩ := made_tupleStore.propertyType_intersection hdata "1"
  refine ⟨made_tupleStore, hdata, by decide, hiff.mpr fun _ => ?_, by decide⟩
  exact ⟨14, by decide, by decide⟩

/-- The object type stands behind the tuple type, at which the search ends. -/
theorem propertyType_intersection_missed :
    tupleStore.Made ∧ tupleStore.lookup 18 = some (.intersection [15, 16]) ∧
      (tupleStore.propertyType 15 "1").1 = none ∧
      (tupleStore.propertyType 16 "1").1 = some TypeId.boolean ∧
      (tupleStore.propertyType 18 "1").1 = none ∧
      (tupleStore.firstProperty "1" [15, 16]).1 = some TypeId.boolean :=
  ⟨made_tupleStore, by decide⟩

/-- The parts of a union, or a type itself, without those that are nullish. -/
def solidParts (s : Store) (id : TypeId) : List TypeId :=
  (s.unionMembers id).filter fun part => !s.isNullishPart part

/-- The declarations of a property in a part of a union: its own, or those in the members of an
    intersection. -/
def declarations (s : Store) (name : String) (part : TypeId) : List Property :=
  (s.intersectionMembers part).flatMap fun m => (s.properties m).filter (·.name == name)

/-- The part has the property. -/
def declares (s : Store) (name : String) (part : TypeId) : Bool :=
  !(s.declarations name part).isEmpty

/-- The part has the property, and by the first of its declarations it is optional. -/
def declaresOptional (s : Store) (name : String) (part : TypeId) : Bool :=
  (s.declarations name part).head?.any (·.optional)

/-- A part that is not nullish has the property, and each one that has it declares it optional. -/
def OptionalWhereDeclared (s : Store) (name : String) (id : TypeId) : Prop :=
  (∃ part ∈ s.solidParts id, s.declares name part = true) ∧
    ∀ part ∈ s.solidParts id, s.declares name part = true → s.declaresOptional name part = true

instance (s : Store) (name : String) (id : TypeId) : Decidable (s.OptionalWhereDeclared name id) :=
  inferInstanceAs (Decidable (_ ∧ _))

theorem partProperty?_eq_head? :
    s.partProperty? name part = (s.declarations name part).head? := by
  rw [declarations, List.head?_flatMap, partProperty?]
  exact congrArg (List.findSome? · _) (funext fun m => (List.head?_filter ..).symm)

theorem declares_eq : s.declares name part = (s.partProperty? name part).isSome := by
  rw [declares, partProperty?_eq_head?]
  cases s.declarations name part <;> rfl

theorem declaresOptional_eq :
    s.declaresOptional name part = (s.partProperty? name part).any (·.optional) := by
  rw [declaresOptional, partProperty?_eq_head?]

theorem declares_of_declaresOptional (h : s.declaresOptional name part = true) :
    s.declares name part = true := by
  rw [declaresOptional_eq] at h
  rw [declares_eq]
  cases hproperty : s.partProperty? name part with
  | none => rw [hproperty] at h; cases h
  | some p => rfl

/-- The loop over the parts answers no if one that is not nullish lacks the property; else it has
    found out whether one of them declares it optional. -/
theorem optionalIn_eq (found : Bool) :
    s.optionalIn name found parts =
      ((parts.filter fun part => !s.isNullishPart part).all (s.declares name) &&
        (found || (parts.filter fun part => !s.isNullishPart part).any
          (s.declaresOptional name))) := by
  induction parts generalizing found with
  | nil => exact (Bool.or_false found).symm.trans (Bool.true_and _).symm
  | cons part rest ih =>
    rw [optionalIn]
    cases hnullish : s.isNullishPart part with
    | true =>
      rw [List.filter_cons_of_neg (by simp [hnullish]), ← ih]
      rfl
    | false =>
      rw [List.filter_cons_of_pos (by simp [hnullish]), List.all_cons, List.any_cons, declares_eq,
        declaresOptional_eq]
      cases s.partProperty? name part with
      | none => rfl
      | some p =>
        rw [Option.isSome_some, Option.any_some, Bool.true_and, ← Bool.or_assoc, ← ih]
        rfl

theorem isOptionalProperty_iff :
    s.isOptionalProperty id name = true ↔
      (∀ part ∈ s.solidParts id, s.declares name part = true) ∧
        ∃ part ∈ s.solidParts id, s.declaresOptional name part = true := by
  rw [isOptionalProperty, optionalIn_eq, Bool.and_eq_true, List.all_eq_true, Bool.false_or,
    List.any_eq_true]
  rfl

/-- A property counts as optional in a type exactly if all its parts that are not nullish have it and
    one of them declares it optional. The order of the parts makes no difference. That is the
    documented answer, that the parts which have it are some and all declare it optional, exactly if
    none of them does, or if all parts have it just when all that have it declare it optional. -/
theorem isOptionalProperty_parts (s : Store) (id : TypeId) (name : String) :
    (s.isOptionalProperty id name = true ↔
      (∀ part ∈ s.solidParts id, s.declares name part = true) ∧
        ∃ part ∈ s.solidParts id, s.declaresOptional name part = true) ∧
    (∀ parts, parts.Perm (s.unionMembers id) →
      s.optionalIn name false parts = s.isOptionalProperty id name) ∧
    ((s.isOptionalProperty id name = true ↔ s.OptionalWhereDeclared name id) ↔
      (∀ part ∈ s.solidParts id, s.declaresOptional name part = false) ∨
        ((∀ part ∈ s.solidParts id, s.declares name part = true) ↔
          ∀ part ∈ s.solidParts id, s.declares name part = true →
            s.declaresOptional name part = true)) := by
  refine ⟨isOptionalProperty_iff, fun parts hparts => ?_, ?_⟩
  · have hsolid := hparts.filter fun part => !s.isNullishPart part
    rw [isOptionalProperty, optionalIn_eq, optionalIn_eq, hsolid.all_eq, hsolid.any_eq]
  · rw [isOptionalProperty_iff, OptionalWhereDeclared]
    by_cases hnone : ∀ part ∈ s.solidParts id, s.declaresOptional name part = false
    · -- Neither answer can be yes.
      refine iff_of_true (iff_of_false ?_ ?_) (.inl hnone)
      · rintro ⟨-, part, hpart, hoptional⟩
        cases hoptional.symm.trans (hnone part hpart)
      · rintro ⟨⟨part, hpart, hdeclares⟩, hall⟩
        cases (hall part hpart hdeclares).symm.trans (hnone part hpart)
    · push Not at hnone
      obtain ⟨part, hpart, hoptional⟩ := hnone
      have hsome : ∃ part ∈ s.solidParts id, s.declaresOptional name part = true :=
        ⟨part, hpart, by simpa using hoptional⟩
      have hdeclared : ∃ part ∈ s.solidParts id, s.declares name part = true :=
        hsome.imp fun part h => ⟨h.1, declares_of_declaresOptional h.2⟩
      have hnot : ¬∀ part ∈ s.solidParts id, s.declaresOptional name part = false :=
        fun hnone => hoptional (hnone part hpart)
      rw [and_iff_left hsome, and_iff_right hdeclared, or_iff_right hnot]

/-- A store with object types in which a property is optional, required and missing, and the unions
    of the first one with each of the others. -/
def optionalStore : Store :=
  initial.serve [.object ⟨none, [⟨"p", TypeId.string, true, false⟩], [], []⟩,
    .object ⟨none, [⟨"p", TypeId.string, false, false⟩], [], []⟩,
    .object ⟨none, [⟨"q", TypeId.string, false, false⟩], [], []⟩, .union [14, 15], .union [14, 16]]

/-- A required declaration beside an optional one is passed over, and a part without the property is
    not. -/
theorem isOptionalProperty_misjudged :
    optionalStore.Made ∧ optionalStore.lookup 17 = some (.union [14, 15]) ∧
      optionalStore.isOptionalProperty 17 "p" = true ∧
      ¬optionalStore.OptionalWhereDeclared "p" 17 ∧
      optionalStore.lookup 18 = some (.union [14, 16]) ∧
      optionalStore.isOptionalProperty 18 "p" = false ∧
      optionalStore.OptionalWhereDeclared "p" 18 :=
  ⟨Made.initial.serve (by decide), by decide⟩

end TypeLint.Types.Store
