import TypeLint.Proofs.Values.Literals

namespace TypeLint.Types

open Values

/-- The type is made of no other types whose values it has. -/
def TypeData.isBasic : TypeData → Bool
  | parameter _ _ | union _ | intersection _ => false
  | _ => true

/-- A literal type may have a value that counts as false as far as its flags tell. -/
theorem LiteralValue.flags_intersects_possiblyFalsy (value : LiteralValue) :
    value.flags.intersects .possiblyFalsy = true ∧
      (Flags.enumLiteral ∪ value.flags).intersects .possiblyFalsy = true := by
  cases value <;> (simp only [LiteralValue.flags]; decide)

/-- The keyword types that have nullish values. -/
theorem Intrinsic.Holds.kind_of_isNullish {kind : Intrinsic} {v : Value} (h : kind.Holds v)
    (hnullish : v.isNullish = true) :
    kind = .any ∨ kind = .unknown ∨ v = .undefined ∧ (kind = .void ∨ kind = .undefined) ∨
      v = .null ∧ kind = .null := by
  cases kind with
  | any => exact .inl rfl
  | unknown => exact .inr (.inl rfl)
  | never => exact h.elim
  | void => exact .inr (.inr (.inl ⟨h, .inl rfl⟩))
  | undefined => exact .inr (.inr (.inl ⟨h, .inr rfl⟩))
  | null => exact .inr (.inr (.inr ⟨h, rfl⟩))
  | _ =>
    obtain ⟨_, rfl⟩ := h
    cases hnullish

/-- A keyword type whose flags do not tell of values that count as false has none. -/
theorem Intrinsic.Holds.isTruthy {kind : Intrinsic} {v : Value} (h : kind.Holds v)
    (hany : kind ≠ .any) (hunknown : kind ≠ .unknown)
    (hfalsy : kind.flags.intersects .possiblyFalsy = false) : v.isTruthy = true := by
  cases kind with
  | any => exact (hany rfl).elim
  | unknown => exact (hunknown rfl).elim
  | never => exact h.elim
  | symbol | object =>
    obtain ⟨_, rfl⟩ := h
    rfl
  | _ => exact absurd hfalsy (by decide)

namespace Store

/-- No value of the type is nullish, and the flags of the type tell whether one counts as false. -/
def isSolid (s : Store) (id : TypeId) : Bool :=
  match s.lookup id with
  | some (.intrinsic .void) | some (.intrinsic .undefined) | some (.intrinsic .null)
  | some (.parameter _ _) => false
  | some (.union _) => id == TypeId.boolean
  | _ => true

/-- The flags of the union part, or those of one of its members, rule values out that are nullish
    or count as false if the type has no such values. -/
def isOvert (s : Store) (part : TypeId) : Bool :=
  match s.lookup part with
  | some (.intrinsic .void) | some (.parameter _ _) => false
  | some (.intersection members) => members.any s.isSolid
  | _ => true

/-- All union parts are overt. -/
def Overt (s : Store) (id : TypeId) : Prop := ∀ part ∈ s.unionMembers id, s.isOvert part = true

instance (s : Store) (id : TypeId) : Decidable (s.Overt id) := List.decidableBAll ..

/-- The big integers among the parts of a type are spelled in decimal. -/
def DecimalParts (s : Store) (id : TypeId) : Prop :=
  ∀ part ∈ s.atomicParts id, ∀ value, s.literalValue? part = some value → value.IsDecimal

variable {w : World} {s : Store} {v : Value} {id part : TypeId} {data : TypeData}

theorem flagsOf_of_isBasic (h : s.lookup id = some data) (hbasic : data.isBasic = true) :
    s.flagsOf id = data.flags := by
  rw [flagsOf, h]
  cases data <;> first | rfl | cases hbasic

/-- The values of a basic type are those of a keyword, that of a literal, or symbols and objects,
    which are true in conditions. -/
theorem inhabits_basic (h : s.lookup id = some data) (hbasic : data.isBasic = true)
    (hv : Inhabits w s v id) :
    (∃ kind, data = .intrinsic kind ∧ kind.Holds v) ∨
      (∃ value, s.literalValue? id = some value ∧ value.Denotes v ∧
        data.flags.intersects .possiblyFalsy = true) ∨
      v.isTruthy = true ∧ v.isNullish = false := by
  cases hv with
  | intrinsic h' hv =>
    cases h.symm.trans h'
    exact .inl ⟨_, rfl, hv⟩
  | @literal _ _ value h' hv =>
    cases h.symm.trans h'
    exact .inr (.inl ⟨value, by rw [literalValue?, h], hv, value.flags_intersects_possiblyFalsy.1⟩)
  | @enumLiteral _ _ _ _ value h' hv =>
    cases h.symm.trans h'
    exact .inr (.inl ⟨value, by rw [literalValue?, h], hv, value.flags_intersects_possiblyFalsy.2⟩)
  | uniqueSymbol | array | tuple | object => exact .inr (.inr ⟨rfl, rfl⟩)
  | free h' | bounded h' | union h' | intersection h' =>
    cases h.symm.trans h'
    cases hbasic

/-- A nullish value of a basic type is one of a keyword. -/
theorem exists_kind_of_isNullish (h : s.lookup id = some data) (hbasic : data.isBasic = true)
    (hv : Inhabits w s v id) (hnullish : v.isNullish = true) :
    ∃ kind : Intrinsic, data = .intrinsic kind ∧ kind.Holds v := by
  rcases inhabits_basic h hbasic hv with hkind | ⟨value, -, hvalue, -⟩ | ⟨-, hnot⟩
  · exact hkind
  · cases hnullish.symm.trans hvalue.isNullish_eq_false
  · cases hnullish.symm.trans hnot

/-- The flags of a basic type tell that it has a value that counts as false, unless it is a literal
    that counts as true. -/
theorem isTruthy_of_isBasic (h : s.lookup id = some data) (hbasic : data.isBasic = true)
    (hv : Inhabits w s v id) (hdecimal : ∀ value, s.literalValue? id = some value → value.IsDecimal)
    (hany : data ≠ .intrinsic .any) (hunknown : data ≠ .intrinsic .unknown)
    (hfalsy : s.isTruthyLiteral id = true ∨ data.flags.intersects .possiblyFalsy = false) :
    v.isTruthy = true := by
  rcases inhabits_basic h hbasic hv with
    ⟨kind, rfl, hkind⟩ | ⟨value, hvalue, hdenotes, hliteral⟩ | ⟨htrue, -⟩
  · refine hkind.isTruthy (fun heq => hany (heq ▸ rfl)) (fun heq => hunknown (heq ▸ rfl))
      (hfalsy.resolve_left ?_)
    rw [isTruthyLiteral, literalValue?, h]
    exact Bool.false_ne_true
  · refine hdenotes.isTruthy (hdecimal value hvalue) ?_
    rcases hfalsy with htrue | hnone
    · rwa [isTruthyLiteral, hvalue] at htrue
    · cases hliteral.symm.trans hnone
  · exact htrue

/-- The keyword types `any` and `unknown` are no members of intersections. -/
theorem IntersectionPart.lookup_ne (hn : s.Normal) (hm : s.IntersectionPart id) :
    s.lookup id ≠ some (.intrinsic .any) ∧ s.lookup id ≠ some (.intrinsic .unknown) :=
  ⟨fun h => hm.ne_any (Store.unique h (hn.initial _ (by decide))),
    fun h => hm.ne_unknown (Store.unique h (hn.initial _ (by decide)))⟩

/-- A solid member is basic, or it is `boolean`. -/
theorem IntersectionPart.isBasic_or (hm : s.IntersectionPart id) (hsolid : s.isSolid id = true) :
    (∃ data, s.lookup id = some data ∧ data.isBasic = true) ∨ id = TypeId.boolean := by
  obtain ⟨data, hdata⟩ := known_iff.mp hm.known
  rw [isSolid, hdata] at hsolid
  cases data with
  | union members => exact .inr (beq_iff_eq.mp hsolid)
  | parameter name constraint => cases hsolid
  | intersection members =>
    have := hm.notIntersection
    rw [isIntersection, hdata] at this
    cases this
  | _ => exact .inl ⟨_, hdata, rfl⟩

theorem IntersectionPart.isNullish_eq_false (hn : s.Normal) (hm : s.IntersectionPart id)
    (hsolid : s.isSolid id = true) (hv : Inhabits w s v id) : v.isNullish = false := by
  rcases hm.isBasic_or hsolid with ⟨data, hdata, hbasic⟩ | rfl
  · refine Bool.eq_false_iff.mpr fun hnullish => ?_
    obtain ⟨kind, rfl, hkind⟩ := exists_kind_of_isNullish hdata hbasic hv hnullish
    obtain ⟨hany, hunknown⟩ := hm.lookup_ne hn
    rw [isSolid, hdata] at hsolid
    rcases hkind.kind_of_isNullish hnullish with rfl | rfl | ⟨-, rfl | rfl⟩ | ⟨-, rfl⟩
    · exact hany hdata
    · exact hunknown hdata
    · cases hsolid
    · cases hsolid
    · cases hsolid
  · have hboolean := hn.initial TypeId.boolean (by decide)
    obtain ⟨m, hmem, hvalue⟩ := (inhabits_union_iff hboolean).mp hv
    rcases List.mem_pair.mp hmem with rfl | rfl
    · exact ((inhabits_literal_iff (hn.initial _ (by decide))).mp hvalue).isNullish_eq_false
    · exact ((inhabits_literal_iff (hn.initial _ (by decide))).mp hvalue).isNullish_eq_false

theorem IntersectionPart.isTruthy (hn : s.Normal) (hm : s.IntersectionPart id)
    (hsolid : s.isSolid id = true) (hv : Inhabits w s v id)
    (hdecimal : ∀ value, s.literalValue? id = some value → value.IsDecimal)
    (hfalsy : s.isTruthyLiteral id = true ∨ (s.flagsOf id).intersects .possiblyFalsy = false) :
    v.isTruthy = true := by
  rcases hm.isBasic_or hsolid with ⟨data, hdata, hbasic⟩ | rfl
  · rw [flagsOf_of_isBasic hdata hbasic] at hfalsy
    obtain ⟨hany, hunknown⟩ := hm.lookup_ne hn
    exact isTruthy_of_isBasic hdata hbasic hv hdecimal (fun heq => hany (heq ▸ hdata))
      (fun heq => hunknown (heq ▸ hdata)) hfalsy
  · have hboolean := hn.initial TypeId.boolean (by decide)
    rw [isTruthyLiteral, literalValue?, flagsOf, hboolean] at hfalsy
    exact absurd hfalsy (by decide)

end Store

end TypeLint.Types
