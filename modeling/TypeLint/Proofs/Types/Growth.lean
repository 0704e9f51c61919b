import Mathlib
import TypeLint.Types.Query

namespace TypeLint.Types

/-- The types that the structure of a type mentions. -/
def TypeData.mentioned : TypeData → List TypeId
  | intrinsic _ | literal _ | enumLiteral _ _ _ | uniqueSymbol _ => []
  | parameter _ constraint => constraint.toList
  | union members | intersection members | tuple members => members
  | array element => [element]
  | object shape =>
    shape.properties.map (·.type) ++
      shape.indexSignatures.flatMap (fun i => [i.key, i.value]) ++ shape.callReturns

namespace Store

/-- The store has this type. -/
def Known (s : Store) (id : TypeId) : Prop := id < s.size

instance (s : Store) (id : TypeId) : Decidable (s.Known id) := Nat.decLt ..

/-- The second store has the types of the first one under the same numbers. -/
def Extends (s s' : Store) : Prop := ∀ id, s.Known id → s'.lookup id = s.lookup id

/-- The store begins with the types of the keywords, and its types mention none that it does not
    have. -/
structure Closed (s : Store) : Prop where
  initial : Store.initial.Extends s
  mentioned : ∀ id data, s.lookup id = some data → ∀ m ∈ data.mentioned, s.Known m

variable {s s' s'' : Store} {id : TypeId}

theorem known_iff : s.Known id ↔ ∃ data, s.lookup id = some data := by
  rw [Known, size, lookup]
  constructor
  · exact fun h => ⟨_, Array.getElem?_eq_getElem h⟩
  · rintro ⟨data, hdata⟩
    exact (Array.getElem?_eq_some_iff.mp hdata).1

theorem known_of_lookup {data : TypeData} (h : s.lookup id = some data) : s.Known id :=
  known_iff.mpr ⟨data, h⟩

theorem Extends.refl (s : Store) : s.Extends s := fun _ _ => rfl

theorem Extends.known (h : s.Extends s') (hid : s.Known id) : s'.Known id := by
  obtain ⟨data, hdata⟩ := known_iff.mp hid
  exact known_of_lookup ((h id hid).trans hdata)

theorem Extends.trans (h : s.Extends s') (h' : s'.Extends s'') : s.Extends s'' := fun id hid =>
  (h' id (h.known hid)).trans (h id hid)

theorem Extends.size_le (h : s.Extends s') : s.size ≤ s'.size :=
  le_of_forall_lt fun _ hid => h.known hid

theorem Extends.lookup_eq_some {data : TypeData} (h : s.Extends s')
    (hdata : s.lookup id = some data) : s'.lookup id = some data :=
  (h id (known_of_lookup hdata)).trans hdata

theorem Closed.known_builtin (h : s.Closed) (hid : id < TypeId.builtinCount) : s.Known id :=
  h.initial.known hid

/-- A type has one number only. -/
theorem unique {id' : TypeId} {data : TypeData} (h : s.lookup id = some data)
    (h' : s.lookup id' = some data) : id = id' :=
  Option.some.inj (((s.inverse data id).mpr h).symm.trans ((s.inverse data id').mpr h'))

/-- Asking for a known type gives its number and leaves the store alone. -/
theorem intern_eq {data : TypeData} (hdata : s.lookup id = some data) :
    s.intern data = (id, s) := by
  have hnumber := (s.inverse data id).mpr hdata
  rw [intern]
  split
  · next id' hid => rw [Option.some.inj (hid.symm.trans hnumber)]
  · next hnone => cases hnone.symm.trans hnumber

theorem extends_intern (s : Store) (data : TypeData) : s.Extends (s.intern data).2 := by
  intro id hid
  rw [intern]
  split
  · rfl
  · exact Array.getElem?_push.trans (if_neg (Nat.ne_of_lt hid))

theorem lookup_intern (s : Store) (data : TypeData) :
    (s.intern data).2.lookup (s.intern data).1 = some data := by
  rw [intern]
  split
  · next id hid => exact (s.inverse data id).mp hid
  · exact Array.getElem?_push_size

theorem extends_compose (s : Store) (ofNone : TypeId) (make : List TypeId → TypeData)
    (members : List TypeId) : s.Extends (s.compose ofNone make members).2 := by
  unfold compose
  split
  · exact .refl s
  · exact .refl s
  · exact s.extends_intern _

theorem extends_union (s : Store) (members : List TypeId) : s.Extends (s.union members).2 := by
  simp only [union]
  split_ifs
  · exact .refl s
  · exact .refl s
  · exact s.extends_compose _ _ _

theorem extends_propertyIn (s : Store) (name : String) (parts : List TypeId) :
    s.Extends (s.propertyIn name parts).2 := by
  induction parts with
  | nil => exact .refl s
  | cons part rest ih =>
    rw [propertyIn]
    split
    · split_ifs
      · exact s.extends_union _
      · exact .refl s
    · split
      · exact .refl s
      · exact ih

theorem extends_propertyType (s : Store) (id : TypeId) (name : String) :
    s.Extends (s.propertyType id name).2 :=
  s.extends_propertyIn _ _

namespace Closed

variable (h : s.Closed) {part : TypeId}

include h

theorem known_of_mem_unionMembers (hid : s.Known id) (hpart : part ∈ s.unionMembers id) :
    s.Known part := by
  rw [unionMembers] at hpart
  split at hpart
  · next hdata => exact h.mentioned _ _ hdata _ hpart
  · exact List.mem_singleton.mp hpart ▸ hid

theorem known_of_mem_intersectionMembers (hid : s.Known id)
    (hpart : part ∈ s.intersectionMembers id) : s.Known part := by
  rw [intersectionMembers] at hpart
  split at hpart
  · next hdata => exact h.mentioned _ _ hdata _ hpart
  · exact List.mem_singleton.mp hpart ▸ hid

theorem known_of_mem_atomicParts (hid : s.Known id) (hpart : part ∈ s.atomicParts id) :
    s.Known part := by
  obtain ⟨p, hp, hpart⟩ := List.mem_flatMap.mp hpart
  exact h.known_of_mem_intersectionMembers (h.known_of_mem_unionMembers hid hp) hpart

theorem known_constraintAfter (hid : s.Known id) (steps : Nat) :
    s.Known (s.constraintAfter steps id) := by
  induction steps generalizing id with
  | zero => exact hid
  | succ steps ih =>
    rw [constraintAfter]
    split
    · next bound hbound =>
      split_ifs
      · exact hid
      · refine ih ?_
        rw [constraint?] at hbound
        split at hbound
        · next hdata => exact h.mentioned _ _ hdata _ (Option.mem_toList.mpr hbound)
        · cases hbound
    · exact hid

theorem known_baseConstraint (hid : s.Known id) : s.Known (s.baseConstraint id) :=
  h.known_constraintAfter hid _

theorem known_of_ownProperty? {name : String} {p : Property}
    (hp : s.ownProperty? id name = some p) : s.Known p.type := by
  rw [ownProperty?, properties] at hp
  split at hp
  · next hdata =>
    refine h.mentioned _ _ hdata _ (List.mem_append_left _ (List.mem_append_left _ ?_))
    exact List.mem_map_of_mem (List.mem_of_find?_eq_some hp)
  · cases hp

theorem known_of_mem_tupleElements? {elements : List TypeId}
    (helements : s.tupleElements? id = some elements) (hpart : part ∈ elements) :
    s.Known part := by
  rw [tupleElements?] at helements
  split at helements
  · next hdata =>
    cases helements
    exact h.mentioned _ _ hdata _ hpart
  · cases helements

theorem known_of_mem_callReturns (hpart : part ∈ s.callReturns id) : s.Known part := by
  rw [callReturns] at hpart
  split at hpart
  · next hdata => exact h.mentioned _ _ hdata _ (List.mem_append_right _ hpart)
  · cases hpart

theorem known_of_mem_allCallReturns (hpart : part ∈ s.allCallReturns id) : s.Known part := by
  obtain ⟨p, -, hpart⟩ := List.mem_flatMap.mp hpart
  exact h.known_of_mem_callReturns hpart

end Closed

namespace Extends

variable (hs : s.Extends s') (hid : s.Known id)

include hs hid

theorem flagsOf_eq : s'.flagsOf id = s.flagsOf id := by rw [flagsOf, flagsOf, hs id hid]

theorem unionMembers_eq : s'.unionMembers id = s.unionMembers id := by
  rw [unionMembers, unionMembers, hs id hid]

theorem intersectionMembers_eq : s'.intersectionMembers id = s.intersectionMembers id := by
  rw [intersectionMembers, intersectionMembers, hs id hid]

theorem isUnion_eq : s'.isUnion id = s.isUnion id := by rw [isUnion, isUnion, hs id hid]

theorem isIntersection_eq : s'.isIntersection id = s.isIntersection id := by
  rw [isIntersection, isIntersection, hs id hid]

theorem isArray_eq : s'.isArray id = s.isArray id := by rw [isArray, isArray, hs id hid]

theorem isTuple_eq : s'.isTuple id = s.isTuple id := by rw [isTuple, isTuple, hs id hid]

theorem constraint?_eq : s'.constraint? id = s.constraint? id := by
  rw [constraint?, constraint?, hs id hid]

theorem indexSignatures_eq : s'.indexSignatures id = s.indexSignatures id := by
  rw [indexSignatures, indexSignatures, hs id hid]

theorem callReturns_eq : s'.callReturns id = s.callReturns id := by
  rw [callReturns, callReturns, hs id hid]

theorem ownProperty?_eq (name : String) : s'.ownProperty? id name = s.ownProperty? id name := by
  rw [ownProperty?, ownProperty?, properties, properties, hs id hid]

theorem tupleElements?_eq : s'.tupleElements? id = s.tupleElements? id := by
  rw [tupleElements?, tupleElements?, hs id hid]

theorem isNullishPart_eq : s'.isNullishPart id = s.isNullishPart id := by
  rw [isNullishPart, isNullishPart, hs.flagsOf_eq hid]

theorem enumOfPart?_eq : s'.enumOfPart? id = s.enumOfPart? id := by
  rw [enumOfPart?, enumOfPart?, hs id hid]

theorem memberName?_eq : s'.memberName? id = s.memberName? id := by
  rw [memberName?, memberName?, hs id hid]

theorem literalValue?_eq : s'.literalValue? id = s.literalValue? id := by
  rw [literalValue?, literalValue?, hs id hid]

theorem isLiteralLike_eq : s'.isLiteralLike id = s.isLiteralLike id := by
  rw [isLiteralLike, isLiteralLike, hs.flagsOf_eq hid]

theorem isTruthyLiteral_eq : s'.isTruthyLiteral id = s.isTruthyLiteral id := by
  rw [isTruthyLiteral, isTruthyLiteral, hs.literalValue?_eq hid]

theorem isFalsy_eq : s'.isFalsy id = s.isFalsy id := by
  rw [isFalsy, isFalsy, hs.flagsOf_eq hid, hs.literalValue?_eq hid]

end Extends

theorem any_congr_of_mem {α : Type} {as : List α} {p q : α → Bool} (h : ∀ a ∈ as, p a = q a) :
    as.any p = as.any q := by
  induction as with
  | nil => rfl
  | cons a rest ih =>
    rw [List.any_cons, List.any_cons, h a List.mem_cons_self,
      ih fun b hb => h b (List.mem_cons_of_mem a hb)]

theorem all_congr_of_mem {α : Type} {as : List α} {p q : α → Bool} (h : ∀ a ∈ as, p a = q a) :
    as.all p = as.all q := by
  induction as with
  | nil => rfl
  | cons a rest ih =>
    rw [List.all_cons, List.all_cons, h a List.mem_cons_self,
      ih fun b hb => h b (List.mem_cons_of_mem a hb)]

theorem findSome?_congr_of_mem {α β : Type} {as : List α} {f g : α → Option β}
    (h : ∀ a ∈ as, f a = g a) : as.findSome? f = as.findSome? g := by
  induction as with
  | nil => rfl
  | cons a rest ih =>
    rw [List.findSome?_cons, List.findSome?_cons, h a List.mem_cons_self,
      ih fun b hb => h b (List.mem_cons_of_mem a hb)]

namespace Extends

variable (hs : s.Extends s') (h : s.Closed) (hid : s.Known id)

include hs h hid

theorem hasFlag_eq (flags : Flags) : s'.hasFlag id flags = s.hasFlag id flags := by
  rw [hasFlag, hasFlag, hs.unionMembers_eq hid]
  exact any_congr_of_mem fun part hpart => by
    rw [hs.flagsOf_eq (h.known_of_mem_unionMembers hid hpart)]

theorem isNullable_eq : s'.isNullable id = s.isNullable id := hs.hasFlag_eq h hid _

theorem isNullableLike_eq : s'.isNullableLike id = s.isNullableLike id := hs.hasFlag_eq h hid _

theorem isAnyOrUnknown_eq : s'.isAnyOrUnknown id = s.isAnyOrUnknown id := hs.hasFlag_eq h hid _

theorem isPossiblyNullish_eq : s'.isPossiblyNullish id = s.isPossiblyNullish id :=
  hs.hasFlag_eq h hid _

theorem isAlwaysNullish_eq : s'.isAlwaysNullish id = s.isAlwaysNullish id := by
  rw [isAlwaysNullish, isAlwaysNullish, hs.unionMembers_eq hid]
  exact all_congr_of_mem fun part hpart =>
    hs.isNullishPart_eq (h.known_of_mem_unionMembers hid hpart)

theorem isArrayOrTuple_eq : s'.isArrayOrTuple id = s.isArrayOrTuple id := by
  rw [isArrayOrTuple, isArrayOrTuple, hs.unionMembers_eq hid]
  exact all_congr_of_mem fun part hpart => by
    have hpart := h.known_of_mem_unionMembers hid hpart
    rw [hs.isArray_eq hpart, hs.isTuple_eq hpart]

theorem atomicParts_eq : s'.atomicParts id = s.atomicParts id := by
  rw [atomicParts, atomicParts, hs.unionMembers_eq hid]
  exact List.flatMap_congr fun part hpart =>
    hs.intersectionMembers_eq (h.known_of_mem_unionMembers hid hpart)

theorem constraintAfter_eq (steps : Nat) :
    s'.constraintAfter steps id = s.constraintAfter steps id := by
  induction steps generalizing id with
  | zero => rfl
  | succ steps ih =>
    rw [constraintAfter, constraintAfter, hs.constraint?_eq hid]
    split
    · next bound hbound =>
      split_ifs
      · rfl
      · refine ih ?_
        have hknown := h.known_constraintAfter hid 1
        simpa only [constraintAfter, hbound, if_neg ‹_›] using hknown
    · rfl

theorem baseConstraint_eq : s'.baseConstraint id = s.baseConstraint id :=
  hs.constraintAfter_eq h hid _

theorem allIndexSignatures_eq : s'.allIndexSignatures id = s.allIndexSignatures id := by
  rw [allIndexSignatures, allIndexSignatures, hs.intersectionMembers_eq hid]
  exact List.flatMap_congr fun part hpart =>
    hs.indexSignatures_eq (h.known_of_mem_intersectionMembers hid hpart)

theorem indexKeys_eq : s'.indexKeys id = s.indexKeys id := by
  rw [indexKeys, indexKeys, hs.allIndexSignatures_eq h hid]

theorem indexType?_eq (key : TypeId) : s'.indexType? id key = s.indexType? id key := by
  rw [indexType?, indexType?, hs.allIndexSignatures_eq h hid]

theorem allCallReturns_eq : s'.allCallReturns id = s.allCallReturns id := by
  rw [allCallReturns, allCallReturns, hs.unionMembers_eq hid]
  exact List.flatMap_congr fun part hpart =>
    hs.callReturns_eq (h.known_of_mem_unionMembers hid hpart)

theorem enumName?_eq : s'.enumName? id = s.enumName? id := by
  rw [enumName?, enumName?, hs.unionMembers_eq hid,
    List.map_congr_left fun part hpart =>
      hs.enumOfPart?_eq (h.known_of_mem_unionMembers hid hpart)]

theorem isPossiblyFalsy_eq : s'.isPossiblyFalsy id = s.isPossiblyFalsy id := by
  rw [isPossiblyFalsy, isPossiblyFalsy, hs.atomicParts_eq h hid]
  rw [List.filter_congr fun part hpart => congrArg not
    (hs.isTruthyLiteral_eq (h.known_of_mem_atomicParts hid hpart))]
  exact any_congr_of_mem fun part hpart => by
    rw [hs.flagsOf_eq (h.known_of_mem_atomicParts hid (List.mem_of_mem_filter hpart))]

theorem isPossiblyTruthy_eq : s'.isPossiblyTruthy id = s.isPossiblyTruthy id := by
  rw [isPossiblyTruthy, isPossiblyTruthy, hs.unionMembers_eq hid]
  refine any_congr_of_mem fun part hpart => ?_
  have hpart := h.known_of_mem_unionMembers hid hpart
  rw [hs.intersectionMembers_eq hpart]
  exact all_congr_of_mem fun member hmember => by
    rw [hs.isFalsy_eq (h.known_of_mem_intersectionMembers hpart hmember)]

theorem partProperty?_eq (name : String) : s'.partProperty? name id = s.partProperty? name id := by
  rw [partProperty?, partProperty?, hs.intersectionMembers_eq hid]
  exact findSome?_congr_of_mem fun member hmember =>
    hs.ownProperty?_eq (h.known_of_mem_intersectionMembers hid hmember) name

omit hid in
theorem optionalIn_eq (name : String) (found : Bool) {parts : List TypeId}
    (hparts : ∀ part ∈ parts, s.Known part) :
    s'.optionalIn name found parts = s.optionalIn name found parts := by
  induction parts generalizing found with
  | nil => rfl
  | cons part rest ih =>
    have hpart := hparts part List.mem_cons_self
    have hrest (found : Bool) : s'.optionalIn name found rest = s.optionalIn name found rest :=
      ih found fun other hother => hparts other (List.mem_cons_of_mem _ hother)
    rw [optionalIn, optionalIn, hs.isNullishPart_eq hpart, hs.partProperty?_eq h hpart, hrest]
    simp only [hrest]

theorem isOptionalProperty_eq (name : String) :
    s'.isOptionalProperty id name = s.isOptionalProperty id name := by
  rw [isOptionalProperty, isOptionalProperty, hs.unionMembers_eq hid]
  exact hs.optionalIn_eq h name false fun part hpart => h.known_of_mem_unionMembers hid hpart

end Extends

section

variable {α : Type}

/-- Asked of any store that has grown from this one, the question has this answer, and the store
    may grow once more. -/
def Answers (s : Store) (question : Store → α × Store) (answer : α) : Prop :=
  ∀ s', s.Extends s' → (question s').1 = answer ∧ s'.Extends (question s').2

/-- A question with another one to fall back on that makes no types. -/
theorem Answers.getD {question : Store → Option α × Store} {answer : Option α}
    (h : s.Answers question answer) (fallback : Store → α)
    (hfallback : ∀ s', s.Extends s' → fallback s' = fallback s) :
    s.Answers (fun s => ((question s).1.getD (fallback (question s).2), (question s).2))
      (answer.getD (fallback s)) := by
  intro s' hs
  obtain ⟨hanswer, hgrown⟩ := h s' hs
  exact ⟨by simp only [hanswer, hfallback _ (hs.trans hgrown)], hgrown⟩

end

end Store

end TypeLint.Types
