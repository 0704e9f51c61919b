import TypeLint.Proofs.Values.Overt

namespace TypeLint.Types

open Values

namespace Flags

theorem intersects_union (a b c : Flags) :
    a.intersects (b ∪ c) = (a.intersects b || a.intersects c) := by
  rw [Bool.eq_iff_iff, Bool.or_eq_true]
  simp only [intersects, bne_iff_ne]
  change a.bits &&& (b.bits ||| c.bits) ≠ 0 ↔ _
  rw [Nat.and_or_distrib_left, ← not_and_or, not_iff_not, Nat.or_eq_zero_iff]

end Flags

/-- The keyword types whose values are all false in conditions. -/
theorem TypeData.eq_intrinsic_of_flags {data : TypeData}
    (h : data.flags.intersects (Flags.void ∪ Flags.nullable) = true) :
    data = .intrinsic .void ∨ data = .intrinsic .undefined ∨ data = .intrinsic .null := by
  cases data with
  | intrinsic kind =>
    revert h
    cases kind <;> decide
  | literal value => cases value <;> exact absurd h (by simp only [flags, LiteralValue.flags]; decide)
  | enumLiteral enumName member value =>
    cases value <;> exact absurd h (by simp only [flags, LiteralValue.flags]; decide)
  | _ => exact absurd h (by simp only [flags]; decide)

namespace Store

variable {w : World} {s : Store} {v : Value} {id part : TypeId}

theorem hasFlag_union (a b : Flags) :
    s.hasFlag id (a ∪ b) = (s.hasFlag id a || s.hasFlag id b) := by
  rw [Bool.eq_iff_iff, Bool.or_eq_true]
  simp only [hasFlag, List.any_eq_true, Flags.intersects_union, Bool.or_eq_true]
  grind

theorem Normal.isUnion_eq_false (hn : s.Normal) (hpart : part ∈ s.unionMembers id) :
    s.isUnion part = false := by
  rw [unionMembers] at hpart
  split at hpart
  · next members hdata => exact (hn.data _ _ hdata part hpart).notUnion
  · next hnot =>
    obtain rfl := List.mem_singleton.mp hpart
    rw [isUnion]
    split
    · next members hdata => exact (hnot members hdata).elim
    · rfl

/-- An overt union part is basic and not `void`, or it is an intersection with a solid member. -/
theorem Normal.part_of_isOvert (hn : s.Normal) (hpart : part ∈ s.unionMembers id)
    (hovert : s.isOvert part = true) (hknown : s.Known part) :
    (∃ data, s.lookup part = some data ∧ data.isBasic = true ∧ data ≠ .intrinsic .void) ∨
      ∃ m ∈ s.intersectionMembers part, s.IntersectionPart m ∧ s.isSolid m = true := by
  obtain ⟨data, hdata⟩ := known_iff.mp hknown
  have hunion := hn.isUnion_eq_false hpart
  rw [isUnion, hdata] at hunion
  rw [isOvert, hdata] at hovert
  cases data with
  | intrinsic kind =>
    refine .inl ⟨_, hdata, rfl, fun heq => ?_⟩
    cases heq
    cases hovert
  | parameter name constraint => cases hovert
  | union members => cases hunion
  | intersection members =>
    obtain ⟨m, hm, hsolid⟩ := List.any_eq_true.mp hovert
    refine .inr ⟨m, ?_, (hn.data _ _ hdata).2 m hm, hsolid⟩
    rw [intersectionMembers, hdata]
    exact hm
  | _ => exact .inl ⟨_, hdata, rfl, fun heq => by cases heq⟩

/-- The flags of an overt union part tell of a nullish value. -/
theorem Normal.flagsOf_of_isNullish (hn : s.Normal) (hpart : part ∈ s.unionMembers id)
    (hovert : s.isOvert part = true) (hv : Inhabits w s v part) (hnullish : v.isNullish = true) :
    (s.flagsOf part).intersects .anyOrUnknown = true ∨
      v = .undefined ∧ s.flagsOf part = .undefined ∨ v = .null ∧ s.flagsOf part = .null := by
  rcases hn.part_of_isOvert hpart hovert hv.known with
    ⟨data, hdata, hbasic, hvoid⟩ | ⟨m, hm, hmember, hsolid⟩
  · rw [flagsOf_of_isBasic hdata hbasic]
    obtain ⟨kind, rfl, hkind⟩ := exists_kind_of_isNullish hdata hbasic hv hnullish
    rcases hkind.kind_of_isNullish hnullish with rfl | rfl | ⟨rfl, rfl | rfl⟩ | ⟨rfl, rfl⟩
    · exact .inl rfl
    · exact .inl rfl
    · exact (hvoid rfl).elim
    · exact .inr (.inl ⟨rfl, rfl⟩)
    · exact .inr (.inr ⟨rfl, rfl⟩)
  · have hvalue := inhabits_iff_intersectionMembers.mp hv m hm
    cases hnullish.symm.trans (hmember.isNullish_eq_false hn hsolid hvalue)

/-- The flags of an overt type tell which nullish values it has, unless it holds everything. -/
theorem Normal.hasFlag_of_isNullish (hn : s.Normal) (hovert : s.Overt id)
    (hany : s.hasFlag id .anyOrUnknown = false) (hv : Inhabits w s v id)
    (hnullish : v.isNullish = true) :
    v = .undefined ∧ s.hasFlag id .undefined = true ∨ v = .null ∧ s.hasFlag id .null = true := by
  obtain ⟨part, hpart, hvalue⟩ := inhabits_iff_unionMembers.mp hv
  have hnone : (s.flagsOf part).intersects .anyOrUnknown = false := by
    simpa using List.any_eq_false.mp hany part hpart
  rcases hn.flagsOf_of_isNullish hpart (hovert part hpart) hvalue hnullish with
    hflag | ⟨rfl, hflag⟩ | ⟨rfl, hflag⟩
  · cases hflag.symm.trans hnone
  · exact .inl ⟨rfl, List.any_eq_true.mpr ⟨part, hpart, by rw [hflag]; rfl⟩⟩
  · exact .inr ⟨rfl, List.any_eq_true.mpr ⟨part, hpart, by rw [hflag]; rfl⟩⟩

/-- An overt type that is not nullable has no nullish value, unless it holds everything. -/
theorem Normal.isNullish_eq_false (hn : s.Normal) (hovert : s.Overt id)
    (hany : s.hasFlag id .anyOrUnknown = false) (hnot : s.isNullable id = false)
    (hv : Inhabits w s v id) : v.isNullish = false := by
  rw [isNullable, Flags.nullable, hasFlag_union, Bool.or_eq_false_iff] at hnot
  refine Bool.eq_false_iff.mpr fun hnullish => ?_
  rcases hn.hasFlag_of_isNullish hovert hany hv hnullish with ⟨-, hflag⟩ | ⟨-, hflag⟩
  · cases hflag.symm.trans hnot.2
  · cases hflag.symm.trans hnot.1

/-- Only `void`, `undefined` and `null` have their flags. -/
theorem lookup_of_flagsOf
    (hflags : (s.flagsOf id).intersects (Flags.void ∪ Flags.nullable) = true) :
    s.lookup id = some (.intrinsic .void) ∨ s.lookup id = some (.intrinsic .undefined) ∨
      s.lookup id = some (.intrinsic .null) := by
  rw [flagsOf] at hflags
  cases hdata : s.lookup id with
  | none =>
    rw [hdata] at hflags
    have hnone : Flags.empty.intersects (Flags.void ∪ Flags.nullable) = false := by decide
    cases hnone.symm.trans hflags
  | some data =>
    rw [hdata] at hflags
    simp only [Option.some.injEq]
    refine TypeData.eq_intrinsic_of_flags ?_
    cases data with
    | union members =>
      -- Neither the flag of unions nor that of `boolean` is asked for.
      have hnone : ¬(Flags.unionType ∪ Flags.boolean).intersects (Flags.void ∪ Flags.nullable) ∧
          ¬Flags.unionType.intersects (Flags.void ∪ Flags.nullable) := by decide
      split_ifs at hflags
      · exact (hnone.1 hflags).elim
      · exact (hnone.2 hflags).elim
    | _ => exact hflags

/-- The flags of `void`, `undefined` and `null` tell that all values are nullish. -/
theorem isNullish_of_flagsOf (hflags : (s.flagsOf id).intersects (Flags.void ∪ Flags.nullable) = true)
    (hv : Inhabits w s v id) : v.isNullish = true := by
  rcases lookup_of_flagsOf hflags with hdata | hdata | hdata <;>
    · rw [(inhabits_intrinsic_iff hdata).mp hv]
      rfl

/-- A type whose union parts are all nullish has only nullish values. -/
theorem isNullish_of_isAlwaysNullish (halways : s.isAlwaysNullish id = true)
    (hv : Inhabits w s v id) : v.isNullish = true := by
  obtain ⟨part, hpart, hvalue⟩ := inhabits_iff_unionMembers.mp hv
  refine isNullish_of_flagsOf ?_ hvalue
  rw [Flags.intersects_union, Bool.or_eq_true]
  exact .inr (List.all_eq_true.mp halways part hpart)

theorem denotes_of_literalValue? {value : LiteralValue} (h : s.literalValue? id = some value)
    (hv : Inhabits w s v id) : value.Denotes v := by
  rw [literalValue?] at h
  split at h
  · next hdata =>
    cases h
    exact (inhabits_literal_iff hdata).mp hv
  · next hdata =>
    cases h
    exact (inhabits_enumLiteral_iff hdata).mp hv
  · cases h

theorem Normal.isTruthy_of_isPossiblyFalsy (hn : s.Normal) (hovert : s.Overt id)
    (hdecimal : s.DecimalParts id) (hany : s.hasFlag id .anyOrUnknown = false)
    (hnot : s.isPossiblyFalsy id = false) (hv : Inhabits w s v id) : v.isTruthy = true := by
  obtain ⟨part, hpart, hvalue⟩ := inhabits_iff_unionMembers.mp hv
  have hatoms : ∀ m ∈ s.intersectionMembers part, m ∈ s.atomicParts id := fun m hm =>
    List.mem_flatMap.mpr ⟨part, hpart, hm⟩
  have hfalsy : ∀ m ∈ s.atomicParts id,
      s.isTruthyLiteral m = true ∨ (s.flagsOf m).intersects .possiblyFalsy = false := by
    intro m hm
    by_contra hno
    rw [not_or, Bool.not_eq_true, Bool.not_eq_false] at hno
    refine absurd (List.any_eq_true.mpr ⟨m, List.mem_filter.mpr ⟨hm, ?_⟩, hno.2⟩)
      (Bool.eq_false_iff.mp hnot)
    rw [hno.1]
    rfl
  rcases hn.part_of_isOvert hpart (hovert part hpart) hvalue.known with
    ⟨data, hdata, hbasic, -⟩ | ⟨m, hm, hmember, hsolid⟩
  · have hself : part ∈ s.intersectionMembers part := by
      rw [intersectionMembers, hdata]
      cases data <;> first | exact List.mem_singleton_self part | cases hbasic
    have hflags := hfalsy part (hatoms part hself)
    have hnone := List.any_eq_false.mp hany part hpart
    rw [flagsOf_of_isBasic hdata hbasic] at hflags hnone
    refine isTruthy_of_isBasic hdata hbasic hvalue (hdecimal part (hatoms part hself)) ?_ ?_ hflags
    · rintro rfl
      exact hnone rfl
    · rintro rfl
      exact hnone rfl
  · exact hmember.isTruthy hn hsolid (inhabits_iff_intersectionMembers.mp hvalue m hm)
      (hdecimal m (hatoms m hm)) (hfalsy m (hatoms m hm))

theorem isTruthy_eq_false_of_isFalsy (hfalsy : s.isFalsy id = true) (hv : Inhabits w s v id) :
    v.isTruthy = false := by
  rw [isFalsy] at hfalsy
  split_ifs at hfalsy with hflags
  · exact Value.isTruthy_of_isNullish (isNullish_of_flagsOf hflags hv)
  · cases hvalue : s.literalValue? id with
    | none =>
      rw [hvalue] at hfalsy
      cases hfalsy
    | some value =>
      rw [hvalue] at hfalsy
      exact (denotes_of_literalValue? hvalue hv).isTruthy_eq_false (by simpa using hfalsy)

/-- A type none of whose parts may count as true has no such value. -/
theorem isTruthy_eq_false_of_isPossiblyTruthy (hnot : s.isPossiblyTruthy id = false)
    (hv : Inhabits w s v id) : v.isTruthy = false := by
  obtain ⟨part, hpart, hvalue⟩ := inhabits_iff_unionMembers.mp hv
  have hsome := List.any_eq_false.mp hnot part hpart
  rw [Bool.not_eq_true, List.all_eq_false] at hsome
  obtain ⟨m, hm, hfalsy⟩ := hsome
  rw [Bool.not_eq_true, Bool.not_eq_false'] at hfalsy
  exact isTruthy_eq_false_of_isFalsy hfalsy (inhabits_iff_intersectionMembers.mp hvalue m hm)

end Store

end TypeLint.Types
