import TypeLint.Proofs.Types.HashConsing

namespace TypeLint.Types

/-- The element is in the list, and none of the list stands above it. -/
def Topmost {α : Type} (above : α → α → Prop) (as : List α) (a : α) : Prop :=
  a ∈ as ∧ ∀ b ∈ as, ¬above b a

section

variable {α : Type} {above : α → α → Prop} {as bs : List α} {a : α}

theorem Topmost.of_subset (h : Topmost above bs a) (ha : a ∈ as) (hsub : ∀ b ∈ as, b ∈ bs) :
    Topmost above as a :=
  ⟨ha, fun b hb => h.2 b (hsub b hb)⟩

variable [IsStrictOrder α above]

variable (above) in
/-- An element of a list is topmost, or a topmost one stands above it. -/
theorem topmost_or_exists (ha : a ∈ as) :
    Topmost above as a ∨ ∃ b, Topmost above as b ∧ above b a := by
  have hwf : ({b | b ∈ as} : Set α).WellFoundedOn above := (List.finite_toSet as).wellFoundedOn
  refine hwf.induction (P := fun a => Topmost above as a ∨ ∃ b, Topmost above as b ∧ above b a)
    ha fun a ha ih => ?_
  by_cases hnone : ∀ b ∈ as, ¬above b a
  · exact .inl ⟨ha, hnone⟩
  · push Not at hnone
    obtain ⟨b, hb, hba⟩ := hnone
    rcases ih b hb hba with htop | ⟨c, hc, hcb⟩
    · exact .inr ⟨b, htop, hba⟩
    · exact .inr ⟨c, hc, trans_of above hcb hba⟩

/-- A part of a list that has all topmost elements of it has the same ones. -/
theorem topmost_iff_of_subset (hsub : ∀ b ∈ as, b ∈ bs) (htop : ∀ b, Topmost above bs b → b ∈ as) :
    Topmost above as a ↔ Topmost above bs a := by
  constructor
  · rintro ⟨ha, hnone⟩
    refine ⟨hsub a ha, fun b hb hba => ?_⟩
    rcases topmost_or_exists above hb with hb | ⟨c, hc, hcb⟩
    · exact hnone b (htop b hb) hba
    · exact hnone c (htop c hc) (trans_of above hcb hba)
  · exact fun h => h.of_subset (htop a h) hsub

end

theorem pairwise_insertId {id : TypeId} {ids : List TypeId} (h : ids.Pairwise (· < ·)) :
    (insertId id ids).Pairwise (· < ·) := by
  induction ids with
  | nil => exact List.pairwise_singleton _ _
  | cons first rest ih =>
    obtain ⟨hfirst, hrest⟩ := List.pairwise_cons.mp h
    rw [insertId]
    split_ifs with hlt heq
    · refine List.pairwise_cons.mpr ⟨fun other hother => ?_, h⟩
      rcases List.mem_cons.mp hother with rfl | hother
      · exact hlt
      · exact hlt.trans (hfirst other hother)
    · exact h
    · refine List.pairwise_cons.mpr ⟨fun other hother => ?_, ih hrest⟩
      rcases mem_insertId.mp hother with rfl | hother
      · exact lt_of_le_of_ne (not_lt.mp hlt) (Ne.symm heq)
      · exact hfirst other hother

theorem pairwise_sortIds (ids : List TypeId) : (sortIds ids).Pairwise (· < ·) := by
  induction ids with
  | nil => exact .nil
  | cons first rest ih => exact pairwise_insertId ih

/-- The keyword type that a literal adds nothing to. -/
def LiteralValue.primitive? : LiteralValue → Option TypeId
  | string _ => some TypeId.string
  | number _ => some TypeId.number
  | bigint _ => some TypeId.bigint
  | boolean _ => none

namespace Store

/-- The second type is a literal that adds nothing to the first one, its keyword type. -/
def IsPrimitiveOf (s : Store) (primitive id : TypeId) : Prop :=
  ∃ value, s.lookup id = some (.literal value) ∧ value.primitive? = some primitive

variable {s s' : Store} {primitive id m : TypeId} {ids members : List TypeId}

theorem isAbsorbed_iff :
    s.isAbsorbed members id = true ↔ ∃ primitive ∈ members, s.IsPrimitiveOf primitive id := by
  have hmem {value : LiteralValue} {keyword : TypeId} (hdata : s.lookup id = some (.literal value))
      (hkeyword : value.primitive? = some keyword) :
      members.contains keyword = true ↔ ∃ primitive ∈ members, s.IsPrimitiveOf primitive id := by
    simp [IsPrimitiveOf, hdata, hkeyword]
  rw [isAbsorbed]
  split
  · next hdata => exact hmem hdata rfl
  · next hdata => exact hmem hdata rfl
  · next hdata => exact hmem hdata rfl
  · next hstring hnumber hbigint =>
    refine iff_of_false Bool.false_ne_true ?_
    rintro ⟨primitive, -, value, hdata, hprimitive⟩
    cases value with
    | string value => exact hstring value hdata
    | number value => exact hnumber value hdata
    | bigint digits => exact hbigint digits hdata
    | boolean value => cases hprimitive

theorem IsPrimitiveOf.eq_or (h : s.IsPrimitiveOf primitive id) :
    primitive = TypeId.string ∨ primitive = TypeId.number ∨ primitive = TypeId.bigint := by
  obtain ⟨value, -, hprimitive⟩ := h
  cases value with
  | string => exact .inl (Option.some.inj hprimitive).symm
  | number => exact .inr (.inl (Option.some.inj hprimitive).symm)
  | bigint => exact .inr (.inr (Option.some.inj hprimitive).symm)
  | boolean => cases hprimitive

theorem IsPrimitiveOf.lt (h : s.IsPrimitiveOf primitive id) : primitive < TypeId.trueLiteral := by
  rcases h.eq_or with rfl | rfl | rfl <;> decide

theorem exists_kind_of_lt {keyword : TypeId} (h : keyword < TypeId.trueLiteral) :
    ∃ kind, initial.lookup keyword = some (.intrinsic kind) := by
  change keyword < 11 at h
  interval_cases keyword <;> exact ⟨_, rfl⟩

/-- A keyword type is no literal that another one absorbs. -/
theorem IsPrimitiveOf.ne_keyword (h : s.IsPrimitiveOf primitive id) (hs : initial.Extends s)
    {keyword : TypeId} (hkeyword : keyword < TypeId.trueLiteral) : id ≠ keyword := by
  rintro rfl
  obtain ⟨value, hdata, -⟩ := h
  obtain ⟨kind, hkind⟩ := exists_kind_of_lt hkeyword
  cases hdata.symm.trans (hs.lookup_eq_some hkind)

end Store

/-- The two ways of making one type of several. -/
inductive Connective where
  | union
  | intersection
  deriving DecidableEq, Repr

namespace Connective

/-- The structure of the type that is made. -/
def data : Connective → List TypeId → TypeData
  | union => .union
  | intersection => .intersection

/-- The members of a type that has been made so, or a type itself. -/
def members : Connective → Store → TypeId → List TypeId
  | union => Store.unionMembers
  | intersection => Store.intersectionMembers

/-- Makes one type of some types. -/
def combine : Connective → Store → List TypeId → TypeId × Store
  | union => Store.union
  | intersection => Store.intersection

/-- The type that absorbs all others. -/
def strongest : Connective → TypeId
  | union => TypeId.any
  | intersection => TypeId.never

/-- The type that absorbs all others but the strongest one. -/
def second : Connective → TypeId
  | union => TypeId.unknown
  | intersection => TypeId.any

/-- The type that all others absorb. -/
def weakest : Connective → TypeId
  | union => TypeId.never
  | intersection => TypeId.unknown

/-- With the first type among the members the second one is left out. -/
inductive Absorbs (c : Connective) (s : Store) (a b : TypeId) : Prop where
  | strongest (ha : a = c.strongest) (hb : b ≠ c.strongest)
  | second (ha : a = c.second) (hstrongest : b ≠ c.strongest) (hsecond : b ≠ c.second)
  | weakest (ha : a ≠ c.weakest) (hb : b = c.weakest)
  | literal (hunion : c = .union) (h : s.IsPrimitiveOf a b)

/-- The type is left of the members of some types: no other one absorbs it. The weakest type is left
    if there is nothing else. -/
def Left (c : Connective) (s : Store) (ids : List TypeId) (m : TypeId) : Prop :=
  Topmost (c.Absorbs s) (c.weakest :: ids.flatMap (c.members s)) m

variable {c : Connective} {s s' : Store} {a b m : TypeId} {as ids ids' : List TypeId}

theorem strongest_ne_weakest (c : Connective) : c.strongest ≠ c.weakest := by cases c <;> decide

theorem second_ne_weakest (c : Connective) : c.second ≠ c.weakest := by cases c <;> decide

/-- The three types that have a part of their own are no literals and absorb none. -/
theorem isKeyword (c : Connective) :
    c.strongest < TypeId.trueLiteral ∧ c.second < TypeId.trueLiteral ∧
      c.weakest < TypeId.trueLiteral := by
  cases c <;> decide

theorem ne_weakest_of_isPrimitiveOf (h : s.IsPrimitiveOf a b) (c : Connective) :
    a ≠ c.weakest := by
  rcases h.eq_or with rfl | rfl | rfl <;> cases c <;> decide

theorem Absorbs.ne (hs : Store.initial.Extends s) (h : c.Absorbs s a b) : a ≠ b := by
  cases h with
  | strongest ha hb => exact fun heq => hb (heq ▸ ha)
  | second ha _ hb => exact fun heq => hb (heq ▸ ha)
  | weakest ha hb => exact fun heq => ha (heq ▸ hb)
  | literal _ h => exact (h.ne_keyword hs h.lt).symm

/-- What absorbs another type than the weakest one is a keyword type. -/
theorem Absorbs.isKeyword (h : c.Absorbs s a b) : a < TypeId.trueLiteral ∨ b = c.weakest := by
  cases h with
  | strongest ha => exact .inl (ha ▸ c.isKeyword.1)
  | second ha => exact .inl (ha ▸ c.isKeyword.2.1)
  | weakest _ hb => exact .inr hb
  | literal _ h => exact .inl h.lt

/-- What absorbs something is not the weakest type. -/
theorem Absorbs.ne_weakest (h : c.Absorbs s a b) : a ≠ c.weakest := by
  cases h with
  | strongest ha => exact ha ▸ c.strongest_ne_weakest
  | second ha => exact ha ▸ c.second_ne_weakest
  | weakest ha => exact ha
  | literal _ h => exact ne_weakest_of_isPrimitiveOf h c

/-- What is absorbed is not the strongest type. -/
theorem Absorbs.ne_strongest (hs : Store.initial.Extends s) (h : c.Absorbs s a b) :
    b ≠ c.strongest := by
  cases h with
  | strongest _ hb => exact hb
  | second _ hb => exact hb
  | weakest _ hb => exact hb ▸ c.strongest_ne_weakest.symm
  | literal _ h => exact h.ne_keyword hs c.isKeyword.1

/-- Only the strongest type absorbs the second one. -/
theorem Absorbs.eq_strongest (hs : Store.initial.Extends s) (h : c.Absorbs s a c.second) :
    a = c.strongest := by
  cases h with
  | strongest ha => exact ha
  | second _ _ hb => exact (hb rfl).elim
  | weakest _ hb => exact (c.second_ne_weakest hb).elim
  | literal _ h => exact (h.ne_keyword hs c.isKeyword.2.1 rfl).elim

theorem Absorbs.trans (hs : Store.initial.Extends s) {d : TypeId} (hab : c.Absorbs s a b)
    (hbd : c.Absorbs s b d) : c.Absorbs s a d := by
  cases hab with
  | strongest ha => exact .strongest ha (hbd.ne_strongest hs)
  | second ha hstrongest hsecond =>
    refine .second ha (hbd.ne_strongest hs) fun hd => ?_
    exact hstrongest ((hd ▸ hbd).eq_strongest hs)
  | weakest _ hb => exact (hbd.ne_weakest hb).elim
  | literal hunion h =>
    -- What a keyword type absorbs is a literal, which absorbs only the weakest type.
    cases hbd with
    | strongest hb => exact (h.ne_keyword hs c.isKeyword.1 hb).elim
    | second hb => exact (h.ne_keyword hs c.isKeyword.2.1 hb).elim
    | weakest _ hd => exact .weakest (Absorbs.literal hunion h).ne_weakest hd
    | literal _ hd => exact (h.ne_keyword hs hd.lt rfl).elim

theorem isStrictOrder_absorbs (hs : Store.initial.Extends s) (c : Connective) :
    IsStrictOrder TypeId (c.Absorbs s) where
  irrefl _ h := h.ne hs rfl
  trans _ _ _ hab hbd := hab.trans hs hbd

/-- Beside a member other than the weakest type only members are left. -/
theorem Left.mem_flatMap {other : TypeId} (h : c.Left s ids m)
    (hother : other ∈ ids.flatMap (c.members s)) (hne : other ≠ c.weakest) :
    m ∈ ids.flatMap (c.members s) := by
  refine (List.mem_cons.mp h.1).resolve_left fun hm => ?_
  exact h.2 other (List.mem_cons_of_mem _ hother) (.weakest hne hm)

theorem topmost_strongest_iff (hs : Store.initial.Extends s) (hmem : c.strongest ∈ as) :
    Topmost (c.Absorbs s) as m ↔ m = c.strongest := by
  constructor
  · intro h
    by_contra hne
    exact h.2 _ hmem (.strongest rfl hne)
  · rintro rfl
    exact ⟨hmem, fun b _ h => h.ne_strongest hs rfl⟩

theorem topmost_second_iff (hs : Store.initial.Extends s) (hmem : c.second ∈ as)
    (hnot : c.strongest ∉ as) : Topmost (c.Absorbs s) as m ↔ m = c.second := by
  constructor
  · intro h
    by_contra hne
    exact h.2 _ hmem (.second rfl (fun heq => hnot (heq ▸ h.1)) hne)
  · rintro rfl
    exact ⟨hmem, fun b hb h => hnot (h.eq_strongest hs ▸ hb)⟩

/-- Without the two types that absorb the rest, what is left are the members that are neither the
    weakest type nor literals beside their keyword type. -/
theorem topmost_iff_of_ne_weakest {flat : List TypeId} (hstrongest : c.strongest ∉ flat)
    (hsecond : c.second ∉ flat) (hm : m ≠ c.weakest) :
    Topmost (c.Absorbs s) (c.weakest :: flat) m ↔
      m ∈ flat ∧ ¬(c = .union ∧ ∃ primitive ∈ flat, s.IsPrimitiveOf primitive m) := by
  constructor
  · rintro ⟨hmem, hnone⟩
    refine ⟨(List.mem_cons.mp hmem).resolve_left hm, ?_⟩
    rintro ⟨hunion, primitive, hprimitive, h⟩
    exact hnone primitive (List.mem_cons_of_mem _ hprimitive) (.literal hunion h)
  · rintro ⟨hmem, hnone⟩
    refine ⟨List.mem_cons_of_mem _ hmem, fun b hb h => ?_⟩
    have hb := (List.mem_cons.mp hb).resolve_left h.ne_weakest
    cases h with
    | strongest hb' => exact hstrongest (hb' ▸ hb)
    | second hb' => exact hsecond (hb' ▸ hb)
    | weakest _ hm' => exact hm hm'
    | literal hunion h => exact hnone ⟨hunion, b, hb, h⟩

/-- The weakest type is left if nothing else is. -/
theorem topmost_weakest_iff (hs : Store.initial.Extends s) {flat : List TypeId} :
    Topmost (c.Absorbs s) (c.weakest :: flat) c.weakest ↔
      ∀ m, m ≠ c.weakest → ¬Topmost (c.Absorbs s) (c.weakest :: flat) m := by
  have := isStrictOrder_absorbs hs c
  constructor
  · exact fun h m hm htop => h.2 m htop.1 (.weakest hm rfl)
  · intro h
    rcases topmost_or_exists (c.Absorbs s) (List.mem_cons_self (a := c.weakest) (l := flat)) with
      htop | ⟨b, htop, hb⟩
    · exact htop
    · exact (h b hb.ne_weakest htop).elim

/-- The members that are kept where none absorbs all of the rest. -/
def kept (c : Connective) (s : Store) (flat : List TypeId) : List TypeId :=
  match c with
  | union => (flat.filter (· != TypeId.never)).filter fun m => !s.isAbsorbed flat m
  | intersection => flat.filter (· != TypeId.unknown)

theorem mem_kept_iff {flat : List TypeId} :
    m ∈ c.kept s flat ↔ m ≠ c.weakest ∧ m ∈ flat ∧
      ¬(c = .union ∧ ∃ primitive ∈ flat, s.IsPrimitiveOf primitive m) := by
  cases c with
  | union =>
    simp only [kept, weakest, ← Store.isAbsorbed_iff, List.mem_filter, bne_iff_ne, ne_eq,
      Bool.not_eq_true', true_and, Bool.not_eq_true]
    tauto
  | intersection => simp [kept, weakest, and_comm]

theorem combine_eq (c : Connective) (s : Store) (ids : List TypeId) :
    c.combine s ids =
      if c.strongest ∈ ids.flatMap (c.members s) then (c.strongest, s)
      else if c.second ∈ ids.flatMap (c.members s) then (c.second, s)
      else s.compose c.weakest c.data (sortIds (c.kept s (ids.flatMap (c.members s)))) := by
  cases c with
  | union => simp only [combine, Store.union, List.contains_iff_mem]; rfl
  | intersection => simp only [combine, Store.intersection, List.contains_iff_mem]; rfl

/-- What is composed of the members that are kept is composed of those that are left. -/
theorem exists_parts_of_kept (hs : Store.initial.Extends s) {flat : List TypeId}
    (hstrongest : c.strongest ∉ flat) (hsecond : c.second ∉ flat) :
    ∃ parts : List TypeId, parts.Pairwise (· < ·) ∧
      (∀ m, m ∈ parts ↔ Topmost (c.Absorbs s) (c.weakest :: flat) m) ∧
      s.compose c.weakest c.data (sortIds (c.kept s flat)) =
        s.compose c.weakest c.data parts := by
  have hleft (m : TypeId) (hm : m ≠ c.weakest) :
      Topmost (c.Absorbs s) (c.weakest :: flat) m ↔ m ∈ c.kept s flat := by
    rw [mem_kept_iff, topmost_iff_of_ne_weakest hstrongest hsecond hm, and_iff_right hm]
  by_cases hempty : c.kept s flat = []
  · refine ⟨[c.weakest], List.pairwise_singleton _ _, fun m => ?_, by rw [hempty]; rfl⟩
    rw [List.mem_singleton]
    by_cases hm : m = c.weakest
    · rw [hm, topmost_weakest_iff hs]
      refine iff_of_true rfl fun m hm htop => ?_
      exact List.not_mem_nil (hempty ▸ (hleft m hm).mp htop)
    · refine iff_of_false hm fun htop => ?_
      exact List.not_mem_nil (hempty ▸ (hleft m hm).mp htop)
  · refine ⟨sortIds (c.kept s flat), pairwise_sortIds _, fun m => ?_, rfl⟩
    rw [mem_sortIds]
    by_cases hm : m = c.weakest
    · obtain ⟨other, hother⟩ := List.exists_mem_of_ne_nil _ hempty
      have hne := (mem_kept_iff.mp hother).1
      rw [hm, topmost_weakest_iff hs]
      exact iff_of_false (fun h => (mem_kept_iff.mp h).1 rfl)
        fun h => h other hne ((hleft other hne).mpr hother)
    · exact (hleft m hm).symm

/-- What is made of some types is composed of what is left of their members, in ascending order. -/
theorem exists_combine_eq_compose (hs : Store.initial.Extends s) (c : Connective)
    (ids : List TypeId) :
    ∃ parts : List TypeId, parts.Pairwise (· < ·) ∧ (∀ m, m ∈ parts ↔ c.Left s ids m) ∧
      c.combine s ids = s.compose c.weakest c.data parts := by
  rw [combine_eq]
  unfold Left
  generalize ids.flatMap (c.members s) = flat
  split_ifs with hstrongest hsecond
  · refine ⟨[c.strongest], List.pairwise_singleton _ _, fun m => ?_, rfl⟩
    rw [List.mem_singleton, topmost_strongest_iff hs (List.mem_cons_of_mem _ hstrongest)]
  · refine ⟨[c.second], List.pairwise_singleton _ _, fun m => ?_, rfl⟩
    rw [List.mem_singleton, topmost_second_iff hs (List.mem_cons_of_mem _ hsecond)]
    exact List.not_mem_cons_of_ne_of_not_mem c.strongest_ne_weakest hstrongest
  · exact exists_parts_of_kept hs hstrongest hsecond

end Connective

end TypeLint.Types
