import TypeLint.Proofs.Types.Connective

namespace TypeLint.Types

/-- Where two relations agree on a list, it has the same topmost elements by both. -/
theorem topmost_congr {α : Type} {above above' : α → α → Prop} {as : List α} {a : α}
    (h : ∀ a ∈ as, ∀ b ∈ as, above b a ↔ above' b a) : Topmost above as a ↔ Topmost above' as a :=
  and_congr_right fun ha => forall₂_congr fun b hb => not_congr (h a ha b hb)

namespace Store

variable {c : Connective} {s s' t : Store} {a b id m : TypeId} {ids ids' : List TypeId}

theorem members_cases (c : Connective) (s : Store) (id : TypeId) :
    s.lookup id = some (c.data (c.members s id)) ∨
      (∀ members, s.lookup id ≠ some (c.data members)) ∧ c.members s id = [id] := by
  cases c with
  | union =>
    simp only [Connective.members, Connective.data, unionMembers]
    split
    · next hdata => exact .inl hdata
    · next hnot => exact .inr ⟨hnot, rfl⟩
  | intersection =>
    simp only [Connective.members, Connective.data, intersectionMembers]
    split
    · next hdata => exact .inl hdata
    · next hnot => exact .inr ⟨hnot, rfl⟩

theorem members_of_lookup {members : List TypeId} (h : s.lookup id = some (c.data members)) :
    c.members s id = members := by
  cases c <;> simp only [Connective.members, unionMembers, intersectionMembers] <;>
    rw [h] <;> rfl

theorem Extends.members_eq (hs : s.Extends s') (hid : s.Known id) :
    c.members s' id = c.members s id := by
  cases c with
  | union => exact hs.unionMembers_eq hid
  | intersection => exact hs.intersectionMembers_eq hid

theorem Closed.known_of_mem_members (h : s.Closed) (hid : s.Known id) (hm : m ∈ c.members s id) :
    s.Known m := by
  cases c with
  | union => exact h.known_of_mem_unionMembers hid hm
  | intersection => exact h.known_of_mem_intersectionMembers hid hm

/-- A member of a type has no members of its own. -/
theorem Normal.members_of_mem (h : s.Normal) (hm : m ∈ c.members s id) : c.members s m = [m] := by
  rcases members_cases c s id with hdata | ⟨hnot, hself⟩
  · refine ((members_cases c s m).resolve_left fun hdata' => ?_).2
    cases c with
    | union =>
      have hunion := (h.data _ _ hdata m hm).notUnion
      rw [isUnion, hdata'] at hunion
      cases hunion
    | intersection =>
      have hintersection := ((h.data _ _ hdata).2 m hm).notIntersection
      rw [isIntersection, hdata'] at hintersection
      cases hintersection
  · rw [hself] at hm
    rw [List.mem_singleton.mp hm, hself]

theorem members_of_lt (hs : initial.Extends s) (hid : id < TypeId.trueLiteral) (c : Connective) :
    c.members s id = [id] := by
  obtain ⟨kind, hkind⟩ := exists_kind_of_lt hid
  refine ((members_cases c s id).resolve_left fun hdata => ?_).2
  cases c <;> cases hdata.symm.trans (hs.lookup_eq_some hkind)

theorem known_weakest (hs : initial.Extends s) (c : Connective) : s.Known c.weakest :=
  hs.known (by cases c <;> decide)

theorem Extends.isPrimitiveOf_iff (hs : s.Extends s') (hb : s.Known b) :
    s'.IsPrimitiveOf a b ↔ s.IsPrimitiveOf a b := by
  rw [IsPrimitiveOf, IsPrimitiveOf, hs b hb]

theorem Extends.absorbs_iff (hs : s.Extends s') (hb : s.Known b) :
    c.Absorbs s' a b ↔ c.Absorbs s a b := by
  constructor <;> rintro (⟨ha, hne⟩ | ⟨ha, hne, hne'⟩ | ⟨ha, hweakest⟩ | ⟨hunion, h⟩)
  · exact .strongest ha hne
  · exact .second ha hne hne'
  · exact .weakest ha hweakest
  · exact .literal hunion ((hs.isPrimitiveOf_iff hb).mp h)
  · exact .strongest ha hne
  · exact .second ha hne hne'
  · exact .weakest ha hweakest
  · exact .literal hunion ((hs.isPrimitiveOf_iff hb).mpr h)

theorem Closed.known_of_mem_flatMap (h : s.Closed) (hids : ∀ id ∈ ids, s.Known id)
    (hm : m ∈ c.weakest :: ids.flatMap (c.members s)) : s.Known m := by
  rcases List.mem_cons.mp hm with rfl | hm
  · exact known_weakest h.initial c
  · obtain ⟨id, hid, hm⟩ := List.mem_flatMap.mp hm
    exact h.known_of_mem_members (hids id hid) hm

theorem Extends.left_iff (hs : s.Extends s') (h : s.Closed) (hids : ∀ id ∈ ids, s.Known id) :
    c.Left s' ids m ↔ c.Left s ids m := by
  unfold Connective.Left
  rw [List.flatMap_congr fun id hid => hs.members_eq (hids id hid)]
  exact topmost_congr fun a ha b _ => hs.absorbs_iff (h.known_of_mem_flatMap hids ha)

theorem exists_left (hs : initial.Extends s) (c : Connective) (ids : List TypeId) :
    ∃ m, c.Left s ids m := by
  have := c.isStrictOrder_absorbs hs
  rcases topmost_or_exists (c.Absorbs s)
    (List.mem_cons_self (a := c.weakest) (l := ids.flatMap (c.members s))) with h | ⟨m, h, -⟩
  · exact ⟨_, h⟩
  · exact ⟨m, h⟩

/-- What is made of some types depends on nothing but what is left of their members. -/
theorem combine_congr (hs : initial.Extends s) (h : ∀ m, c.Left s ids m ↔ c.Left s ids' m) :
    c.combine s ids = c.combine s ids' := by
  obtain ⟨parts, hsorted, hparts, heq⟩ := c.exists_combine_eq_compose hs ids
  obtain ⟨parts', hsorted', hparts', heq'⟩ := c.exists_combine_eq_compose hs ids'
  rw [heq, heq', hsorted.eq_of_mem_iff hsorted' fun m => by rw [hparts, hparts', h]]

/-- The members are several, they ascend, and none of them absorbs another. -/
structure Reduced (s : Store) (c : Connective) (members : List TypeId) : Prop where
  several : 2 ≤ members.length
  ascending : members.Pairwise (· < ·)
  irredundant : ∀ a ∈ members, ∀ b ∈ members, ¬c.Absorbs s a b

/-- A store in normal form in which all that is made of several types is made of reduced members. -/
structure Canonical (s : Store) : Prop extends Normal s where
  reduced : ∀ (c : Connective) (id : TypeId) (members : List TypeId),
    s.lookup id = some (c.data members) → s.Reduced c members

theorem Canonical.closed (h : s.Canonical) : s.Closed := h.toNormal.closed

section

variable (h : s.Canonical)

include h

theorem Canonical.pairwise_members (c : Connective) (id : TypeId) :
    (c.members s id).Pairwise (· < ·) := by
  rcases members_cases c s id with hdata | ⟨-, hself⟩
  · exact (h.reduced c id _ hdata).ascending
  · exact hself ▸ List.pairwise_singleton _ _

theorem Canonical.not_absorbs (ha : a ∈ c.members s id) (hb : b ∈ c.members s id) :
    ¬c.Absorbs s a b := by
  rcases members_cases c s id with hdata | ⟨-, hself⟩
  · exact (h.reduced c id _ hdata).irredundant a ha b hb
  · rw [hself, List.mem_singleton] at ha hb
    exact fun habsorbs => habsorbs.ne h.initial (ha.trans hb.symm)

theorem Canonical.exists_mem_members (c : Connective) (id : TypeId) : ∃ m, m ∈ c.members s id := by
  rcases members_cases c s id with hdata | ⟨-, hself⟩
  · exact List.exists_mem_of_length_pos
      (Nat.lt_of_lt_of_le Nat.zero_lt_two (h.reduced c id _ hdata).several)
  · exact ⟨id, hself ▸ List.mem_singleton_self id⟩

/-- A type is composed of its members. -/
theorem Canonical.compose_members (c : Connective) (id : TypeId) :
    s.compose c.weakest c.data (c.members s id) = (id, s) := by
  rcases members_cases c s id with hdata | ⟨-, hself⟩
  · have hseveral := (h.reduced c id _ hdata).several
    have hintern := Store.intern_eq hdata
    generalize c.members s id = members at hseveral hintern ⊢
    match members with
    | [] => cases hseveral
    | [_] => exact absurd hseveral (by simp)
    | _ :: _ :: _ => exact hintern
  · rw [hself]
    rfl

/-- Where the members of a type are what is left of some types, it is what is made of them. -/
theorem Canonical.combine_eq_of_members (hmem : ∀ m, m ∈ c.members s id ↔ c.Left s ids m) :
    c.combine s ids = (id, s) := by
  obtain ⟨parts, hsorted, hparts, heq⟩ := c.exists_combine_eq_compose h.initial ids
  rw [heq, ← h.compose_members c id]
  rw [hsorted.eq_of_mem_iff (h.pairwise_members c id) fun m => by rw [hparts, hmem]]

/-- Of a type its members are left. -/
theorem Canonical.left_singleton_iff (c : Connective) (id m : TypeId) :
    c.Left s [id] m ↔ m ∈ c.members s id := by
  rw [Connective.Left, List.flatMap_singleton]
  obtain ⟨other, hother⟩ := h.exists_mem_members c id
  constructor
  · rintro ⟨hm, hnone⟩
    rcases List.mem_cons.mp hm with rfl | hm
    · by_cases hweakest : other = c.weakest
      · exact hweakest ▸ hother
      · exact (hnone other (List.mem_cons_of_mem _ hother) (.weakest hweakest rfl)).elim
    · exact hm
  · intro hm
    refine ⟨List.mem_cons_of_mem _ hm, fun a ha habsorbs => ?_⟩
    have ha := (List.mem_cons.mp ha).resolve_left habsorbs.ne_weakest
    exact h.not_absorbs ha hm habsorbs

/-- Of the members of a type all are left. -/
theorem Canonical.left_members_iff (c : Connective) (id m : TypeId) :
    c.Left s (c.members s id) m ↔ m ∈ c.members s id := by
  have hflat : (c.members s id).flatMap (c.members s) = [id].flatMap (c.members s) := by
    rw [List.flatMap_congr fun m hm => h.members_of_mem hm, List.flatMap_singleton',
      List.flatMap_singleton]
  rw [Connective.Left, hflat]
  exact h.left_singleton_iff c id m

theorem Canonical.combine_members (c : Connective) (id : TypeId) :
    c.combine s (c.members s id) = (id, s) :=
  h.combine_eq_of_members fun m => (h.left_members_iff c id m).symm

/-- Two types with the same members are the same. -/
theorem Canonical.eq_of_members {id' : TypeId}
    (hmem : ∀ m, m ∈ c.members s id ↔ m ∈ c.members s id') : id = id' := by
  have heq := (h.pairwise_members c id).eq_of_mem_iff (h.pairwise_members c id') hmem
  have hid := h.compose_members c id
  rw [heq, h.compose_members c id'] at hid
  exact (Prod.mk.inj hid).1.symm

end

theorem Reduced.extends (hs : s.Extends s') {members : List TypeId}
    (hknown : ∀ m ∈ members, s.Known m) (h : s.Reduced c members) : s'.Reduced c members where
  several := h.several
  ascending := h.ascending
  irredundant a ha b hb :=
    fun habsorbs => h.irredundant a ha b hb ((hs.absorbs_iff (hknown b hb)).mp habsorbs)

theorem known_of_normalData {members : List TypeId} (h : s.NormalData (c.data members)) :
    ∀ m ∈ members, s.Known m := by
  cases c with
  | union => exact fun m hm => (h m hm).known
  | intersection => exact fun m hm => (h.2 m hm).known

theorem Connective.data_injective {c c' : Connective} {members members' : List TypeId}
    (h : c.data members = c'.data members') : c = c' ∧ members = members' := by
  cases c <;> cases c' <;> cases h <;> exact ⟨rfl, rfl⟩

/-- What was known before a store grew by a reduced type stays reduced, and so is the new one. -/
theorem Canonical.reduced_of_extends (h : s.Canonical) (hs : s.Extends s') {members : List TypeId}
    (hmembers : s.lookup id = some (c.data members) ∨
      (∀ m ∈ members, s.Known m) ∧ s.Reduced c members) : s'.Reduced c members := by
  rcases hmembers with hold | ⟨hknown, hreduced⟩
  · exact (h.reduced c id members hold).extends hs (known_of_normalData (h.data _ _ hold))
  · exact hreduced.extends hs hknown

theorem Canonical.intern (h : s.Canonical) {data : TypeData} (hsimple : data.isSimple = true)
    (hknown : ∀ m ∈ data.mentioned, s.Known m) : (s.intern data).2.Canonical where
  toNormal := h.toNormal.intern (normalData_of_isSimple hsimple hknown)
  reduced c id members hlookup := by
    rcases lookup_of_lookup_intern hlookup with hold | ⟨-, rfl, -⟩
    · exact h.reduced_of_extends (s.extends_intern data) (.inl hold)
    · cases c <;> cases hsimple

theorem lookup_of_lookup_compose {ofNone : TypeId} {make : List TypeId → TypeData}
    {members : List TypeId} {data : TypeData}
    (h : (s.compose ofNone make members).2.lookup id = some data) :
    s.lookup id = some data ∨ 2 ≤ members.length ∧ data = make members := by
  match members with
  | [] => exact .inl h
  | [_] => exact .inl h
  | _ :: _ :: _ =>
    rcases lookup_of_lookup_intern h with hold | ⟨-, hnew, -⟩
    · exact .inl hold
    · exact .inr ⟨Nat.le_add_left 2 _, hnew⟩

theorem Canonical.combine (h : s.Canonical) (c : Connective) (hids : ∀ id ∈ ids, s.Known id) :
    (c.combine s ids).2.Canonical where
  toNormal := by
    cases c with
    | union => exact h.toNormal.union hids
    | intersection => exact h.toNormal.intersection hids
  reduced c' id members hlookup := by
    obtain ⟨parts, hsorted, hparts, heq⟩ := c.exists_combine_eq_compose h.initial ids
    rw [heq] at hlookup ⊢
    refine h.reduced_of_extends (s.extends_compose _ _ _)
      ((lookup_of_lookup_compose hlookup).imp_right ?_)
    rintro ⟨hseveral, hdata⟩
    obtain ⟨rfl, rfl⟩ := Connective.data_injective hdata
    refine ⟨fun m hm => h.closed.known_of_mem_flatMap hids ((hparts m).mp hm).1, hseveral, hsorted,
      fun a ha b hb => ?_⟩
    exact ((hparts b).mp hb).2 a ((hparts a).mp ha).1

theorem canonical_initial : Store.initial.Canonical where
  toNormal := normal_initial
  reduced c id members hlookup := by
    have hall : ∀ data ∈ Store.initial.types.toList,
        data = .union [TypeId.trueLiteral, TypeId.falseLiteral] ∨ data.isSimple = true := by decide
    rcases hall _ (Array.mem_toList_iff.mpr (mem_types_of_lookup hlookup)) with hboolean | hsimple
    · obtain ⟨rfl, rfl⟩ :=
        Connective.data_injective (show c.data members = Connective.union.data _ from hboolean)
      refine ⟨by decide, by decide, fun a ha b hb habsorbs => ?_⟩
      have hnone : ∀ m ∈ [TypeId.trueLiteral, TypeId.falseLiteral],
          ¬m < TypeId.trueLiteral ∧ m ≠ TypeId.never := by decide
      exact habsorbs.isKeyword.elim (hnone a ha).1 (hnone b hb).2
    · cases c <;> cases hsimple

section

variable (h : s.Normal)

include h

/-- What is left of some types has no members of its own. -/
theorem Normal.members_of_left (hm : c.Left s ids m) : c.members s m = [m] := by
  rcases List.mem_cons.mp hm.1 with rfl | hmem
  · exact members_of_lt h.initial c.isKeyword.2.2 c
  · obtain ⟨id, -, hmem⟩ := List.mem_flatMap.mp hmem
    exact h.members_of_mem hmem

/-- The members of what is made of some types are what is left of these. -/
theorem Normal.mem_members_combine_iff :
    m ∈ c.members (c.combine s ids).2 (c.combine s ids).1 ↔ c.Left s ids m := by
  obtain ⟨parts, -, hparts, heq⟩ := c.exists_combine_eq_compose h.initial ids
  rw [heq, ← hparts]
  match parts with
  | [] =>
    obtain ⟨m, hm⟩ := exists_left h.initial c ids
    cases (hparts m).mpr hm
  | [only] =>
    have hself := h.members_of_left ((hparts only).mp (List.mem_singleton_self only))
    exact hself.symm ▸ Iff.rfl
  | first :: second :: rest =>
    have hdata := s.lookup_intern (c.data (first :: second :: rest))
    exact (members_of_lookup hdata).symm ▸ Iff.rfl

/-- A member of what has been made of some types is a member of one of them, or the type that all
    others absorb. -/
theorem Normal.mem_members_of_combine (hmade : c.combine s ids = (id, s))
    (hm : m ∈ c.members s id) : m = c.weakest ∨ ∃ i ∈ ids, m ∈ c.members s i := by
  have hleft : m ∈ c.members (c.combine s ids).2 (c.combine s ids).1 ↔ c.Left s ids m :=
    h.mem_members_combine_iff
  rw [hmade] at hleft
  exact (List.mem_cons.mp (hleft.mp hm).1).imp_right List.mem_flatMap.mp

theorem Normal.known_combine (hids : ∀ id ∈ ids, s.Known id) :
    (c.combine s ids).2.Known (c.combine s ids).1 := by
  obtain ⟨parts, -, hparts, heq⟩ := c.exists_combine_eq_compose h.initial ids
  rw [heq]
  match parts with
  | [] => exact known_weakest h.initial c
  | [only] =>
    exact h.closed.known_of_mem_flatMap hids ((hparts only).mp (List.mem_singleton_self only)).1
  | first :: second :: rest => exact known_of_lookup (s.lookup_intern _)

end

theorem extends_combine (c : Connective) (s : Store) (ids : List TypeId) :
    s.Extends (c.combine s ids).2 := by
  cases c with
  | union => exact s.extends_union ids
  | intersection => exact s.extends_intersection ids

/-- At any later time the members of what has been made of some types are what is left of these. -/
theorem Normal.mem_members_iff_left (h : s.Normal) (hids : ∀ id ∈ ids, s.Known id)
    (ht : (c.combine s ids).2.Extends t) :
    m ∈ c.members t (c.combine s ids).1 ↔ c.Left t ids m := by
  rw [ht.members_eq (h.known_combine hids), h.mem_members_combine_iff,
    ((extends_combine c s ids).trans ht).left_iff h.closed hids]

theorem Made.combine (h : s.Made) (c : Connective) (hids : ∀ id ∈ ids, s.Known id) :
    (c.combine s ids).2.Made := by
  cases c with
  | union => exact .union h hids
  | intersection => exact .intersection h hids

/-- What the constructors build is canonical. -/
theorem Made.canonical (h : s.Made) : s.Canonical := by
  induction h with
  | initial => exact canonical_initial
  | intern _ hsimple hknown ih => exact ih.intern hsimple hknown
  | union _ hknown ih => exact ih.combine .union hknown
  | intersection _ hknown ih => exact ih.combine .intersection hknown

/-- The types that a request speaks of. -/
def Request.arguments : Request → List TypeId
  | .intern data => data.mentioned
  | .literalString _ | .literalNumber _ | .literalBigint _ | .literalBoolean _
  | .enumLiteral _ _ _ | .enumType _ _ | .uniqueSymbol _ => []
  | .parameter _ constraint => constraint.toList
  | .array element => [element]
  | .tuple elements => elements
  | .object shape => (TypeData.object shape).mentioned
  | .function returnType => [returnType]
  | .union members | .intersection members => members

/-- The request calls a constructor and does not hand a structure in as it is. -/
def Request.isConstructor : Request → Bool
  | .intern _ => false
  | _ => true

/-- Each of the requests calls a constructor, and only with types that the store knows then. -/
def Proper (s : Store) : List Request → Prop
  | [] => True
  | request :: rest =>
    request.isConstructor = true ∧ (∀ m ∈ request.arguments, s.Known m) ∧
      (s.answer request).2.Proper rest

theorem Made.enumMembers (h : s.Made) (enumName : String) (members : List (String × LiteralValue)) :
    (s.enumMembers enumName members).2.Made ∧
      ∀ id ∈ (s.enumMembers enumName members).1, (s.enumMembers enumName members).2.Known id := by
  induction members generalizing s with
  | nil => exact ⟨h, List.forall_mem_nil _⟩
  | cons member rest ih =>
    have hfirst : (s.intern (.enumLiteral enumName member.1 member.2)).2.Made :=
      .intern h rfl (List.forall_mem_nil _)
    obtain ⟨hmade, hknown⟩ := ih hfirst
    refine ⟨hmade, List.forall_mem_cons.mpr ⟨?_, hknown⟩⟩
    exact (extends_enumMembers _ enumName rest).known (known_of_lookup (s.lookup_intern _))

theorem Made.answer (h : s.Made) {request : Request} (hrequest : request.isConstructor = true)
    (hknown : ∀ m ∈ request.arguments, s.Known m) : (s.answer request).2.Made := by
  cases request with
  | intern data => cases hrequest
  | literalBoolean value => exact h
  | enumType enumName members =>
    obtain ⟨hmade, hids⟩ := h.enumMembers enumName members
    exact .union hmade hids
  | union members => exact .union h hknown
  | intersection members => exact .intersection h hknown
  | function returnType => exact .intern h rfl hknown
  | _ => exact .intern h rfl hknown

/-- What is behind proper requests is made. -/
theorem Made.serve (h : s.Made) {requests : List Request} (hproper : s.Proper requests) :
    (s.serve requests).Made := by
  induction requests generalizing s with
  | nil => exact h
  | cons request rest ih => exact ih (h.answer hproper.1 hproper.2.1) hproper.2.2

instance decidableProper (s : Store) : (requests : List Request) → Decidable (s.Proper requests)
  | [] => .isTrue trivial
  | request :: rest =>
    have := decidableProper (s.answer request).2 rest
    inferInstanceAs (Decidable (_ ∧ _ ∧ _))

/-- In a store that is made, every union and every intersection has several members in ascending
    order, none of them of its own kind and none `any`, `unknown` or `never`, and no union has a
    literal beside its keyword type. The union of the members of a type is that type again, and
    unions with the same members are the same type. -/
theorem Made.canonical_members (h : s.Made) :
    (∀ id members, s.lookup id = some (.union members) →
      2 ≤ members.length ∧ members.Pairwise (· < ·) ∧
      ∀ m ∈ members, s.isUnion m = false ∧ m ≠ TypeId.any ∧ m ≠ TypeId.unknown ∧
        m ≠ TypeId.never ∧ ∀ primitive ∈ members, ¬s.IsPrimitiveOf primitive m) ∧
    (∀ id members, s.lookup id = some (.intersection members) →
      2 ≤ members.length ∧ members.Pairwise (· < ·) ∧
      ∀ m ∈ members, s.isIntersection m = false ∧ m ≠ TypeId.any ∧ m ≠ TypeId.unknown ∧
        m ≠ TypeId.never) ∧
    (∀ id, s.Known id → s.union (s.unionMembers id) = (id, s)) ∧
    ∀ id id' members members', s.lookup id = some (.union members) →
      s.lookup id' = some (.union members') → (∀ m, m ∈ members ↔ m ∈ members') → id = id' := by
  have hcanonical := h.canonical
  refine ⟨fun id members hdata => ?_, fun id members hdata => ?_,
    fun id _ => hcanonical.combine_members .union id,
    fun id id' members members' hdata hdata' hmem => ?_⟩
  · have hreduced := hcanonical.reduced .union id members hdata
    refine ⟨hreduced.several, hreduced.ascending, fun m hm => ?_⟩
    have hpart := hcanonical.data _ _ hdata m hm
    exact ⟨hpart.notUnion, hpart.ne_any, hpart.ne_unknown, hpart.ne_never,
      fun primitive hprimitive habsorbs =>
        hreduced.irredundant primitive hprimitive m hm (.literal rfl habsorbs)⟩
  · have hreduced := hcanonical.reduced .intersection id members hdata
    refine ⟨hreduced.several, hreduced.ascending, fun m hm => ?_⟩
    have hpart := (hcanonical.data _ _ hdata).2 m hm
    exact ⟨hpart.notIntersection, hpart.ne_any, hpart.ne_unknown, hpart.ne_never⟩
  · refine hcanonical.eq_of_members (c := .union) fun m => ?_
    rw [members_of_lookup (c := .union) hdata, members_of_lookup (c := .union) hdata', hmem]

/-- A store with `"a"`, `"a" | undefined`, the union of that with `string`, which absorbs the
    literal, an array type and the intersection of the array type with the first union. -/
def absorbingStore : Store :=
  initial.serve [.literalString "a", .union [14, TypeId.undefined], .union [15, TypeId.string],
    .array 15, .intersection [17, 15]]

theorem made_absorbingStore : absorbingStore.Made := Made.initial.serve (by decide)

theorem canonical_members_absorbed :
    absorbingStore.Made ∧
      absorbingStore.lookup 16 = some (.union [TypeId.undefined, TypeId.string]) ∧
      absorbingStore.lookup 18 = some (.intersection [15, 17]) ∧ [15, 17].Pairwise (· < ·) ∧
      (∀ primitive ∈ [TypeId.undefined, 14], ¬absorbingStore.IsPrimitiveOf primitive 14) ∧
      absorbingStore.union [TypeId.undefined, TypeId.string] = (16, absorbingStore) := by
  have hliteral : absorbingStore.lookup 15 = some (.union [TypeId.undefined, 14]) := by
    decide
  have hunion : absorbingStore.lookup 16 = some (.union [TypeId.undefined, TypeId.string]) := by
    decide
  have hintersection : absorbingStore.lookup 18 = some (.intersection [15, 17]) := by
    decide
  obtain ⟨hunions, hintersections, hagain, -⟩ := made_absorbingStore.canonical_members
  refine ⟨made_absorbingStore, hunion, hintersection, (hintersections _ _ hintersection).2.1,
    ((hunions _ _ hliteral).2.2 14 (by decide)).2.2.2.2, ?_⟩
  have hmembers := hagain 16 (known_of_lookup hunion)
  rwa [unionMembers, hunion] at hmembers

end Store

end TypeLint.Types
