import TypeLint.Proofs.Values.Verdicts
import TypeLint.Proofs.Values.Unions

namespace TypeLint.Values

open TypeLint.Types

/-- The type that a nullish value shows as. -/
def Value.nullishType? : Value → Option TypeId
  | undefined => some TypeId.undefined
  | null => some TypeId.null
  | _ => none

variable {v : Value} {nullish : TypeId}

theorem Value.exists_nullishType? (h : v.isNullish = true) :
    ∃ nullish, v.nullishType? = some nullish := by
  rcases isNullish_iff.mp h with rfl | rfl <;> exact ⟨_, rfl⟩

theorem Value.isNullish_of_nullishType? (h : v.nullishType? = some nullish) :
    v.isNullish = true := by
  cases v <;> first | rfl | cases h

theorem Value.eq_of_nullishType? (h : v.nullishType? = some nullish) :
    nullish = TypeId.undefined ∨ nullish = TypeId.null := by
  cases v <;> cases h
  · exact .inl rfl
  · exact .inr rfl

end TypeLint.Values

namespace TypeLint.Types.Store

open Values

/-- The parts of a union, the members of an intersection, and the types of the properties of an
    object. -/
def below (s : Store) (id : TypeId) : List TypeId :=
  match s.lookup id with
  | some (.union members) | some (.intersection members) => members
  | some (.object shape) => shape.properties.map (·.type)
  | _ => []

/-- The second type is the first one, or it stands somewhere in it. -/
def Reaches (s : Store) : TypeId → TypeId → Prop :=
  Relation.ReflTransGen fun id other => other ∈ s.below id

/-- The condition holds of a type and of all types in it. -/
def Throughout (s : Store) (id : TypeId) (p : TypeId → Bool) : Prop :=
  ∀ other, s.Reaches id other → p other = true

/-- The type is none of `any`, `unknown`, `void` and `never`, and no type parameter. -/
def isConcrete (s : Store) (id : TypeId) : Bool :=
  match s.lookup id with
  | none | some (.parameter _ _) => false
  | some (.intrinsic kind) =>
    kind != .any && kind != .unknown && kind != .void && kind != .never
  | _ => true

/-- An intersection has a member without the part `undefined` and one without the part `null`. -/
def excludesNullish (s : Store) (id : TypeId) : Bool :=
  match s.lookup id with
  | some (.intersection members) =>
    [TypeId.undefined, TypeId.null].all fun nullish =>
      members.any fun m => !(s.unionMembers m).contains nullish
  | _ => true

variable {w : World} {s s' : Store} {v : Value} {id part nullish : TypeId} {p : TypeId → Bool}

theorem Throughout.self (h : s.Throughout id p) : p id = true := h id .refl

theorem Throughout.of_below (h : s.Throughout id p) (hpart : part ∈ s.below id) :
    s.Throughout part p := fun other hother => h other (.head hpart hother)

theorem Throughout.of_mem_unionMembers (h : s.Throughout id p) (hpart : part ∈ s.unionMembers id) :
    s.Throughout part p := by
  rw [unionMembers] at hpart
  split at hpart
  · next members hdata => exact h.of_below (by rwa [below, hdata])
  · exact List.mem_singleton.mp hpart ▸ h

theorem Throughout.of_mem_intersectionMembers (h : s.Throughout id p)
    (hpart : part ∈ s.intersectionMembers id) : s.Throughout part p := by
  rw [intersectionMembers] at hpart
  split at hpart
  · next members hdata => exact h.of_below (by rwa [below, hdata])
  · exact List.mem_singleton.mp hpart ▸ h

theorem Throughout.of_ownProperty? (h : s.Throughout id p) {name : String} {property : Property}
    (hproperty : s.ownProperty? id name = some property) : s.Throughout property.type p := by
  rw [ownProperty?, properties] at hproperty
  split at hproperty
  · next shape hdata =>
    refine h.of_below ?_
    rw [below, hdata]
    exact List.mem_map_of_mem (List.mem_of_find?_eq_some hproperty)
  · cases hproperty

/-- What holds of unions and throughout the parts of a type holds throughout the type. -/
theorem throughout_of_unionMembers
    (hunion : ∀ members, s.lookup id = some (.union members) → p id = true)
    (h : ∀ part ∈ s.unionMembers id, s.Throughout part p) : s.Throughout id p := by
  rw [unionMembers] at h
  split at h
  · next members hdata =>
    intro other hother
    rcases hother.cases_head with rfl | ⟨part, hpart, hother⟩
    · exact hunion members hdata
    · rw [below, hdata] at hpart
      exact h part hpart other hother
  · exact h id (List.mem_singleton_self id)

/-- A list with all that its types are made of has all types in them. -/
theorem throughout_of_forall {ids : List TypeId} (hid : id ∈ ids)
    (h : ∀ other ∈ ids, p other = true ∧ ∀ next ∈ s.below other, next ∈ ids) :
    s.Throughout id p := by
  intro other hother
  suffices hmem : other ∈ ids from (h other hmem).1
  induction hother with
  | refl => exact hid
  | tail _ hnext ih => exact (h _ ih).2 _ hnext

theorem isConcrete_of_union {members : List TypeId} (h : s.lookup id = some (.union members)) :
    s.isConcrete id = true := by
  rw [isConcrete, h]

theorem excludesNullish_of_union {members : List TypeId} (h : s.lookup id = some (.union members)) :
    s.excludesNullish id = true := by
  rw [excludesNullish, h]

theorem Normal.nullishType_of_holds (hn : s.Normal) {kind : Intrinsic}
    (hdata : s.lookup id = some (.intrinsic kind)) (hholds : kind.Holds v)
    (hconcrete : s.isConcrete id = true) (hnullish : v.nullishType? = some nullish) :
    nullish = id := by
  rw [isConcrete, hdata] at hconcrete
  rcases hholds.kind_of_isNullish (Value.isNullish_of_nullishType? hnullish) with
    rfl | rfl | ⟨rfl, rfl | rfl⟩ | ⟨rfl, rfl⟩
  · cases hconcrete
  · cases hconcrete
  · cases hconcrete
  · cases hnullish
    exact Store.unique (hn.initial.lookup_eq_some rfl) hdata
  · cases hnullish
    exact Store.unique (hn.initial.lookup_eq_some rfl) hdata

/-- A nullish value of a concrete type shows among its parts, if no intersection hides it. -/
theorem Normal.nullishType_mem_unionMembers (hn : s.Normal) (hv : Inhabits w s v id)
    (hnullish : v.nullishType? = some nullish) (hconcrete : s.Throughout id s.isConcrete)
    (hexcludes : s.Throughout id s.excludesNullish) : nullish ∈ s.unionMembers id := by
  induction hv with
  | intrinsic hdata hholds =>
    rw [hn.nullishType_of_holds hdata hholds hconcrete.self hnullish, unionMembers, hdata]
    exact List.mem_singleton_self _
  | literal _ hdenotes | enumLiteral _ hdenotes =>
    cases (Value.isNullish_of_nullishType? hnullish).symm.trans hdenotes.isNullish_eq_false
  | uniqueSymbol | array | tuple | object => cases hnullish
  | free hdata | bounded hdata =>
    have hself := hconcrete.self
    rw [isConcrete, hdata] at hself
    cases hself
  | @union id v members m hdata hm _ ih =>
    have hbelow : m ∈ s.below id := by rwa [below, hdata]
    have hpart := (hn.data _ _ hdata m hm).notUnion
    have hself := ih hnullish (hconcrete.of_below hbelow) (hexcludes.of_below hbelow)
    rw [unionMembers] at hself
    split at hself
    · next hunion =>
      rw [isUnion, hunion] at hpart
      cases hpart
    · rw [List.mem_singleton.mp hself, unionMembers, hdata]
      exact hm
  | @intersection id v members hdata _ ih =>
    -- The value shows in every member, but one of them is to be without it.
    have hself := hexcludes.self
    rw [excludesNullish, hdata] at hself
    have hmem : nullish ∈ [TypeId.undefined, TypeId.null] := by
      rcases Value.eq_of_nullishType? hnullish with rfl | rfl <;> decide
    obtain ⟨m, hm, hnot⟩ := List.any_eq_true.mp (List.all_eq_true.mp hself nullish hmem)
    have hbelow : m ∈ s.below id := by rwa [below, hdata]
    have hshows := ih m hm hnullish (hconcrete.of_below hbelow) (hexcludes.of_below hbelow)
    rw [List.contains_iff_mem.mpr hshows] at hnot
    cases hnot

/-- A concrete type that is not nullable has no nullish values, if no intersection hides any. -/
theorem Normal.isNullish_eq_false_of_throughout (hn : s.Normal) (hv : Inhabits w s v id)
    (hconcrete : s.Throughout id s.isConcrete) (hexcludes : s.Throughout id s.excludesNullish)
    (hnot : s.isNullable id = false) : v.isNullish = false := by
  refine Bool.eq_false_iff.mpr fun hnullish => ?_
  obtain ⟨nullish, hnullish⟩ := Value.exists_nullishType? hnullish
  have hmem := hn.nullishType_mem_unionMembers hv hnullish hconcrete hexcludes
  have hflags : (s.flagsOf nullish).intersects .nullable = true := by
    rcases Value.eq_of_nullishType? hnullish with rfl | rfl <;>
      · rw [hn.initial.flagsOf_eq (by decide)]
        rfl
  exact Bool.eq_false_iff.mp hnot (List.any_eq_true.mpr ⟨nullish, hmem, hflags⟩)

end TypeLint.Types.Store
