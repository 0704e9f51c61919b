import TypeLint.Proofs.Types.Distribution
import TypeLint.Proofs.Values.Samples
import TypeLint.Proofs.Values.Unions
import TypeLint.Proofs.Values.Verdicts

namespace TypeLint.Types

open Values

/-- If the flag of a keyword type tells of values that count as false, its sample is one. -/
theorem Intrinsic.isTruthy_sample {kind : Intrinsic}
    (h : kind.flags.intersects .possiblyFalsy = true) : kind.sample.isTruthy = false := by
  cases kind with
  | any | unknown | never | symbol | object => exact absurd h (by decide)
  | _ => rfl

/-- A keyword type has a value that counts as true unless it has none or only nullish ones. -/
theorem Intrinsic.exists_truthy {kind : Intrinsic} (hnever : kind ≠ .never)
    (h : kind.flags.intersects (Flags.void ∪ Flags.nullable) = false) :
    ∃ v, kind.Holds v ∧ v.isTruthy = true := by
  cases kind with
  | never => exact (hnever rfl).elim
  | void | undefined | null => exact absurd h (by decide)
  | any | unknown => exact ⟨.boolean true, trivial, rfl⟩
  | string => exact ⟨.string "a", ⟨_, rfl⟩, by decide⟩
  | number => exact ⟨.number (.infinity false), ⟨_, rfl⟩, by decide⟩
  | bigint => exact ⟨.bigint 1, ⟨_, rfl⟩, rfl⟩
  | symbol => exact ⟨.symbol "", ⟨_, rfl⟩, rfl⟩
  | object => exact ⟨.object 0, ⟨_, rfl⟩, rfl⟩

namespace Store

variable {c : Connective} {s t : Store} {v : Value} {id m part : TypeId} {ms : List TypeId}

/-- The values that a type can have. -/
def values (s : Store) (id : TypeId) : Set Value := {v | ∃ w, Inhabits w s v id}

theorem mem_values_iff_unionMembers :
    v ∈ s.values id ↔ ∃ part ∈ s.unionMembers id, v ∈ s.values part := by
  constructor
  · rintro ⟨w, hv⟩
    obtain ⟨part, hpart, hv⟩ := inhabits_iff_unionMembers.mp hv
    exact ⟨part, hpart, w, hv⟩
  · rintro ⟨part, hpart, w, hv⟩
    exact ⟨w, inhabits_iff_unionMembers.mpr ⟨part, hpart, hv⟩⟩

theorem Extends.values_subset (hs : s.Extends t) : s.values id ⊆ t.values id :=
  fun _ ⟨w, hv⟩ => ⟨w, hs.inhabits hv⟩

/-- The values of a union are those of the types it is made of. -/
theorem Closed.values_union (h : s.Closed) (hknown : ∀ m ∈ ms, s.Known m) :
    (s.union ms).2.values (s.union ms).1 = ⋃ m ∈ ms, s.values m := by
  ext v
  rw [Set.mem_iUnion₂]
  constructor
  · rintro ⟨w, hv⟩
    obtain ⟨m, hm, hv⟩ := (h.inhabits_union hknown).mp hv
    exact ⟨m, hm, w, hv⟩
  · rintro ⟨m, hm, w, hv⟩
    exact ⟨w, (h.inhabits_union hknown).mpr ⟨m, hm, hv⟩⟩

theorem Ground.isSpelled (h : s.Ground id) {value : LiteralValue}
    (hvalue : s.literalValue? id = some value) : value.IsSpelled := by
  rw [literalValue?] at hvalue
  cases h <;> simp_all

/-- A ground type that is no union is basic. -/
theorem Ground.exists_data (h : s.Ground part) (hunion : s.isUnion part = false) :
    ∃ data, s.lookup part = some data ∧ data.isBasic = true ∧
      data ≠ .intrinsic .any ∧ data ≠ .intrinsic .unknown := by
  rw [isUnion] at hunion
  cases h <;> simp_all [TypeData.isBasic]

/-- The values of a ground part are all true if it is a true literal or its flags do not tell of
    others. -/
theorem Ground.isTruthy (h : s.Ground part) (hunion : s.isUnion part = false)
    (hnot : s.isTruthyLiteral part = true ∨ (s.flagsOf part).intersects .possiblyFalsy = false)
    (hv : v ∈ s.values part) : v.isTruthy = true := by
  obtain ⟨data, hdata, hbasic, hany, hunknown⟩ := h.exists_data hunion
  obtain ⟨w, hv⟩ := hv
  rw [flagsOf_of_isBasic hdata hbasic] at hnot
  exact isTruthy_of_isBasic hdata hbasic hv (fun value hvalue => (h.isSpelled hvalue).isDecimal)
    hany hunknown hnot

/-- A ground part is a keyword type, a literal, or a type of symbols or objects, which are true in
    conditions. -/
theorem Ground.cases_part (h : s.Ground part) (hs : s.Canonical) (hunion : s.isUnion part = false) :
    (∃ kind : Intrinsic, s.lookup part = some (.intrinsic kind) ∧ kind ≠ .never) ∨
      (∃ value, s.literalValue? part = some value ∧ value.sample ∈ s.values part) ∨
      (∃ v ∈ s.values part, v.isTruthy = true) ∧
        (s.flagsOf part).intersects .possiblyFalsy = false := by
  have hsample := hs.inhabits_sample h
  cases h with
  | intrinsic hdata _ _ hnever => exact .inl ⟨_, hdata, hnever⟩
  | literal hdata hvalue =>
    exact .inr (.inl ⟨_, by rw [literalValue?, hdata], s.sampleWorld,
      .literal hdata hvalue.denotes_sample⟩)
  | enumLiteral hdata hvalue =>
    exact .inr (.inl ⟨_, by rw [literalValue?, hdata], s.sampleWorld,
      .enumLiteral hdata hvalue.denotes_sample⟩)
  | union hdata =>
    rw [isUnion, hdata] at hunion
    cases hunion
  | uniqueSymbol hdata | array hdata | tuple hdata | object hdata =>
    refine .inr (.inr ⟨⟨_, ⟨s.sampleWorld, hsample⟩, ?_⟩, ?_⟩)
    · rw [sample_of_isSimple hdata rfl, samplePart, hdata]
      rfl
    · simp only [flagsOf_of_isBasic hdata rfl, TypeData.flags]
      decide

/-- A ground part that is not false has a true value. -/
theorem Ground.exists_truthy (h : s.Ground part) (hs : s.Canonical)
    (hunion : s.isUnion part = false) (hfalsy : s.isFalsy part = false) :
    ∃ v ∈ s.values part, v.isTruthy = true := by
  rw [isFalsy] at hfalsy
  split_ifs at hfalsy with hflags
  rcases h.cases_part hs hunion with ⟨kind, hdata, hnever⟩ | ⟨value, hvalue, hsample⟩ | ⟨hsome, -⟩
  · rw [flagsOf, hdata] at hflags
    obtain ⟨v, hv, htrue⟩ := Intrinsic.exists_truthy hnever (Bool.eq_false_iff.mpr hflags)
    exact ⟨v, ⟨s.sampleWorld, .intrinsic hdata hv⟩, htrue⟩
  · rw [hvalue] at hfalsy
    obtain ⟨w, hdenotes⟩ := hsample
    exact ⟨_, ⟨w, hdenotes⟩, (denotes_of_literalValue? hvalue hdenotes).isTruthy
      (h.isSpelled hvalue).isDecimal (by simpa using hfalsy)⟩
  · exact hsome

/-- A ground part whose flags tell of false values has one unless it is a true literal. -/
theorem Ground.exists_falsy (h : s.Ground part) (hs : s.Canonical)
    (hunion : s.isUnion part = false) (hliteral : s.isTruthyLiteral part = false)
    (hflags : (s.flagsOf part).intersects .possiblyFalsy = true) :
    ∃ v ∈ s.values part, v.isTruthy = false := by
  rcases h.cases_part hs hunion with
    ⟨kind, hdata, hnever⟩ | ⟨value, hvalue, hsample⟩ | ⟨-, hnone⟩
  · rw [flagsOf, hdata] at hflags
    exact ⟨kind.sample, ⟨s.sampleWorld, .intrinsic hdata (Intrinsic.holds_sample hnever)⟩,
      Intrinsic.isTruthy_sample hflags⟩
  · rw [isTruthyLiteral, hvalue] at hliteral
    obtain ⟨w, hdenotes⟩ := hsample
    exact ⟨_, ⟨w, hdenotes⟩, (denotes_of_literalValue? hvalue hdenotes).isTruthy_eq_false hliteral⟩
  · cases hflags.symm.trans hnone

/-- A ground type may count as true exactly if it has a value that does. -/
theorem Ground.isPossiblyTruthy_iff (h : s.Ground id) (hs : s.Canonical) :
    s.isPossiblyTruthy id = true ↔ ∃ v ∈ s.values id, v.isTruthy = true := by
  constructor
  · intro hsome
    obtain ⟨part, hpart, hall⟩ := List.any_eq_true.mp hsome
    have hground := h.of_mem_unionMembers hpart
    rw [hground.intersectionMembers_eq, List.all_cons, List.all_nil, Bool.and_true,
      Bool.not_eq_true'] at hall
    obtain ⟨v, hv, htrue⟩ := hground.exists_truthy hs (hs.isUnion_eq_false hpart) hall
    exact ⟨v, mem_values_iff_unionMembers.mpr ⟨part, hpart, hv⟩, htrue⟩
  · rintro ⟨v, ⟨w, hv⟩, htrue⟩
    by_contra hnot
    cases htrue.symm.trans (isTruthy_eq_false_of_isPossiblyTruthy (Bool.eq_false_iff.mpr hnot) hv)

/-- A ground type may count as false exactly if it has a value that does. -/
theorem Ground.isPossiblyFalsy_iff (h : s.Ground id) (hs : s.Canonical) :
    s.isPossiblyFalsy id = true ↔ ∃ v ∈ s.values id, v.isTruthy = false := by
  simp only [isPossiblyFalsy_eq, List.any_eq_true, Bool.and_eq_true, Bool.not_eq_true']
  constructor
  · rintro ⟨part, hpart, m, hm, hliteral, hflags⟩
    have hground := h.of_mem_unionMembers hpart
    obtain rfl := List.mem_singleton.mp (hground.intersectionMembers_eq ▸ hm)
    obtain ⟨v, hv, hfalse⟩ :=
      hground.exists_falsy hs (hs.isUnion_eq_false hpart) hliteral hflags
    exact ⟨v, mem_values_iff_unionMembers.mpr ⟨m, hpart, hv⟩, hfalse⟩
  · rintro ⟨v, hv, hfalse⟩
    obtain ⟨part, hpart, hv⟩ := mem_values_iff_unionMembers.mp hv
    have hground := h.of_mem_unionMembers hpart
    refine ⟨part, hpart, part, hground.intersectionMembers_eq ▸ List.mem_singleton_self part, ?_⟩
    by_contra hnot
    rw [not_and_or, Bool.not_eq_false, Bool.not_eq_true] at hnot
    cases hfalse.symm.trans (hground.isTruthy (hs.isUnion_eq_false hpart) hnot hv)

theorem Ground.of_mem_members (h : s.Ground id) (hpart : part ∈ c.members s id) :
    s.Ground part := by
  cases c with
  | union => exact h.of_mem_unionMembers hpart
  | intersection =>
    rw [Connective.members, h.intersectionMembers_eq, List.mem_singleton] at hpart
    exact hpart ▸ h

theorem Ground.ne_weakest (h : s.Ground id) (hs : initial.Extends s) (c : Connective) :
    id ≠ c.weakest := by
  rintro rfl
  cases c with
  | union => exact h.lookup_ne.2.2 (hs.lookup_eq_some rfl)
  | intersection => exact h.lookup_ne.2.1 (hs.lookup_eq_some rfl)

section

variable (hs : s.Canonical) (hne : ms ≠ []) (hground : ∀ m ∈ ms, s.Ground m)

include hs hne hground

/-- What is made of ground types has no other members than these types have. -/
theorem Canonical.mem_flatMap_of_ground
    (hpart : part ∈ c.members (c.combine s ms).2 (c.combine s ms).1) :
    part ∈ ms.flatMap (c.members s) := by
  -- A ground type is not the weakest type, which is therefore not left.
  obtain ⟨m, hm⟩ := List.exists_mem_of_ne_nil ms hne
  obtain ⟨other, hother⟩ := hs.exists_mem_members c m
  exact (hs.mem_members_combine_iff.mp hpart).mem_flatMap (List.mem_flatMap.mpr ⟨m, hm, hother⟩)
    (((hground m hm).of_mem_members hother).ne_weakest hs.initial c)

theorem Canonical.ground_union : (s.union ms).2.Ground (s.union ms).1 := by
  refine ground_of_unionMembers fun part hpart => ?_
  obtain ⟨m, hm, hpart⟩ :=
    List.mem_flatMap.mp (hs.mem_flatMap_of_ground (c := .union) hne hground hpart)
  exact ((hground m hm).of_mem_unionMembers hpart).extends (s.extends_union ms)

/-- The members of an intersection of ground types are among these. -/
theorem Canonical.mem_of_mem_intersection
    (hm : m ∈ (s.intersection ms).2.intersectionMembers (s.intersection ms).1) : m ∈ ms := by
  obtain ⟨m', hm', hm⟩ :=
    List.mem_flatMap.mp (hs.mem_flatMap_of_ground (c := .intersection) hne hground hm)
  rw [Connective.members, (hground m' hm').intersectionMembers_eq] at hm
  exact List.mem_singleton.mp hm ▸ hm'

/-- An intersection of ground types is one of these, or it has no union parts. -/
theorem Canonical.intersection_mem_or :
    (s.intersection ms).1 ∈ ms ∨
      (s.intersection ms).2.unionMembers (s.intersection ms).1 = [(s.intersection ms).1] := by
  rcases members_cases .intersection (s.intersection ms).2 (s.intersection ms).1 with
    hdata | ⟨-, hself⟩
  · refine .inr ?_
    rw [unionMembers, hdata]
    rfl
  · refine .inl (hs.mem_of_mem_intersection hne hground ?_)
    rw [Connective.members] at hself
    exact hself ▸ List.mem_singleton_self _

/-- Where an intersection of ground types may not count as true, no value of all of these does. -/
theorem Canonical.isTruthy_eq_false_of_intersection
    (hnot : (s.intersection ms).2.isPossiblyTruthy (s.intersection ms).1 = false)
    (hv : ∀ m ∈ ms, v ∈ s.values m) : v.isTruthy = false := by
  have hst : s.Extends (s.intersection ms).2 := extends_combine .intersection s ms
  rcases hs.intersection_mem_or hne hground with hmem | hself
  · obtain ⟨w, hvalue⟩ := hv _ hmem
    exact isTruthy_eq_false_of_isPossiblyTruthy hnot (hst.inhabits hvalue)
  · rw [isPossiblyTruthy, hself, List.any_cons, List.any_nil, Bool.or_false,
      List.all_eq_false] at hnot
    obtain ⟨m, hm, hfalsy⟩ := hnot
    obtain ⟨w, hvalue⟩ := hv m (hs.mem_of_mem_intersection hne hground hm)
    exact isTruthy_eq_false_of_isFalsy (by simpa using hfalsy) (hst.inhabits hvalue)

/-- Where an intersection of ground types without unions may not count as false, no value of all of
    these does. -/
theorem Canonical.isTruthy_of_intersection
    (hunion : ∀ m ∈ ms, s.isUnion m = false ∨ m = TypeId.boolean)
    (hnot : (s.intersection ms).2.isPossiblyFalsy (s.intersection ms).1 = false)
    (hv : ∀ m ∈ ms, v ∈ s.values m) : v.isTruthy = true := by
  have hst : s.Extends (s.intersection ms).2 := extends_combine .intersection s ms
  have ht := hs.combine .intersection fun m hm => (hground m hm).known
  rcases hs.intersection_mem_or hne hground with hmem | hself
  · -- The intersection is one of the types, which may be `boolean` with its two parts.
    by_contra hfalse
    refine absurd (((hground _ hmem).extends hst).isPossiblyFalsy_iff ht |>.mpr ?_)
      (Bool.eq_false_iff.mp hnot)
    exact ⟨v, hst.values_subset (hv _ hmem), Bool.eq_false_iff.mpr hfalse⟩
  · rw [isPossiblyFalsy_eq] at hnot
    simp only [hself, List.any_cons, List.any_nil, Bool.or_false] at hnot
    obtain ⟨m, hm⟩ := ht.exists_mem_members .intersection (s.intersection ms).1
    have hflags := List.any_eq_false.mp hnot m hm
    rw [Bool.and_eq_true, not_and_or, Bool.not_eq_true', Bool.not_eq_false, Bool.not_eq_true]
      at hflags
    have hm := hs.mem_of_mem_intersection hne hground hm
    rcases hunion m hm with hunion | rfl
    · have hknown := (hground m hm).known
      rw [hst.isTruthyLiteral_eq hknown, hst.flagsOf_eq hknown] at hflags
      exact (hground m hm).isTruthy hunion hflags (hv m hm)
    · -- The flags of `boolean` tell of a false value.
      have hboolean := hs.initial.trans hst
      rw [hboolean.isTruthyLiteral_eq (by decide), hboolean.flagsOf_eq (by decide)] at hflags
      exact absurd hflags (by decide)

end

/-- A union of ground types may count as true exactly if one of these types has a value that does,
    and so for false. Where an intersection of ground types that are no unions other than `boolean`
    may not count as true, the types share no value that does, and so for false. -/
theorem Made.truthiness_exact (h : s.Made) (hne : ms ≠ []) (hground : ∀ m ∈ ms, s.Ground m) :
    ((s.union ms).2.isPossiblyTruthy (s.union ms).1 = true ↔
        ∃ v ∈ ⋃ m ∈ ms, s.values m, v.isTruthy = true) ∧
      ((s.union ms).2.isPossiblyFalsy (s.union ms).1 = true ↔
        ∃ v ∈ ⋃ m ∈ ms, s.values m, v.isTruthy = false) ∧
      ((∀ m ∈ ms, s.isUnion m = false ∨ m = TypeId.boolean) →
        ((s.intersection ms).2.isPossiblyTruthy (s.intersection ms).1 = false →
          ∀ v ∈ ⋂ m ∈ ms, s.values m, v.isTruthy = false) ∧
        ((s.intersection ms).2.isPossiblyFalsy (s.intersection ms).1 = false →
          ∀ v ∈ ⋂ m ∈ ms, s.values m, v.isTruthy = true)) := by
  have hs := h.canonical
  have hknown (m : TypeId) (hm : m ∈ ms) : s.Known m := (hground m hm).known
  have hunion := hs.ground_union hne hground
  have ht := hs.combine .union hknown
  rw [← hs.closed.values_union hknown]
  refine ⟨hunion.isPossiblyTruthy_iff ht, hunion.isPossiblyFalsy_iff ht, fun hnot => ⟨?_, ?_⟩⟩
  · intro htruthy v hv
    exact hs.isTruthy_eq_false_of_intersection hne hground htruthy (Set.mem_iInter₂.mp hv)
  · intro hfalsy v hv
    exact hs.isTruthy_of_intersection hne hground hnot hfalsy (Set.mem_iInter₂.mp hv)

/-- The union of `"a" | undefined` and an array type has a value that counts as false, and all
    values that an array type shares with `object` count as true. -/
theorem truthiness_exact_arrays :
    absorbingStore.Made ∧ (∀ m ∈ [15, 17], absorbingStore.Ground m) ∧
      (∀ m ∈ [TypeId.object, 17], absorbingStore.Ground m) ∧
      (∀ m ∈ [TypeId.object, 17], absorbingStore.isUnion m = false) ∧
      (∃ v ∈ ⋃ m ∈ [15, 17], absorbingStore.values m, v.isTruthy = false) ∧
      ∀ v ∈ ⋂ m ∈ [TypeId.object, 17], absorbingStore.values m, v.isTruthy = true := by
  have hliteral : absorbingStore.Ground 14 :=
    .literal (show absorbingStore.lookup 14 = some (.literal (.string "a")) by decide)
      trivial
  have hundefined : absorbingStore.Ground TypeId.undefined :=
    .intrinsic (made_absorbingStore.normal.initial.lookup_eq_some rfl) (by decide) (by decide)
      (by decide)
  have hobject : absorbingStore.Ground TypeId.object :=
    .intrinsic (made_absorbingStore.normal.initial.lookup_eq_some rfl) (by decide) (by decide)
      (by decide)
  have hunion : absorbingStore.Ground 15 :=
    .union (show absorbingStore.lookup 15 = some (.union [TypeId.undefined, 14]) by decide)
      (by simp [hundefined, hliteral])
  have harray : absorbingStore.Ground 17 :=
    .array (show absorbingStore.lookup 17 = some (.array 15) by decide)
  have hnot : ∀ m ∈ [TypeId.object, 17], absorbingStore.isUnion m = false := by decide
  have hunions : ∀ m ∈ [15, 17], absorbingStore.Ground m := by simp [hunion, harray]
  have hobjects : ∀ m ∈ [TypeId.object, 17], absorbingStore.Ground m := by simp [hobject, harray]
  obtain ⟨-, hfalsy, -⟩ := made_absorbingStore.truthiness_exact (by decide) hunions
  obtain ⟨-, -, hboth⟩ := made_absorbingStore.truthiness_exact (by decide) hobjects
  exact ⟨made_absorbingStore, hunions, hobjects, hnot, hfalsy.mp (by decide),
    (hboth fun m hm => .inl (hnot m hm)).2 (by decide)⟩

end Store

end TypeLint.Types
