import TypeLint.Proofs.Types.Growth

namespace TypeLint.Types

@[simp]
theorem mem_insertId {id other : TypeId} {ids : List TypeId} :
    other ∈ insertId id ids ↔ other = id ∨ other ∈ ids := by
  induction ids with
  | nil => exact List.mem_cons
  | cons first rest ih =>
    rw [insertId]
    split_ifs with hlt heq
    · exact List.mem_cons
    · rw [heq, List.mem_cons, or_self_left]
    · rw [List.mem_cons, ih, List.mem_cons, or_left_comm]

@[simp]
theorem mem_sortIds {id : TypeId} {ids : List TypeId} : id ∈ sortIds ids ↔ id ∈ ids := by
  induction ids with
  | nil => exact Iff.rfl
  | cons first rest ih =>
    have hfirst : sortIds (first :: rest) = insertId first (sortIds rest) := rfl
    rw [hfirst, mem_insertId, ih, List.mem_cons]

namespace Store

variable {s s' : Store} {id : TypeId}

theorem mem_types_of_lookup {data : TypeData} (h : s.lookup id = some data) :
    data ∈ s.types := by
  obtain ⟨hlt, rfl⟩ := Array.getElem?_eq_some_iff.mp h
  exact Array.getElem_mem hlt

theorem closed_initial : initial.Closed where
  initial := .refl initial
  mentioned id data hdata := by
    have hall : ∀ data ∈ initial.types.toList, ∀ m ∈ data.mentioned, initial.Known m := by decide
    exact hall data (Array.mem_toList_iff.mpr (mem_types_of_lookup hdata))

section

variable (h : initial.Extends s)

include h

theorem unionMembers_undefined : s.unionMembers TypeId.undefined = [TypeId.undefined] :=
  h.unionMembers_eq (by decide)

theorem flagsOf_undefined : s.flagsOf TypeId.undefined = .undefined := h.flagsOf_eq (by decide)

theorem isAbsorbed_undefined (members : List TypeId) :
    s.isAbsorbed members TypeId.undefined = false := by
  rw [isAbsorbed, h _ (by decide)]
  rfl

theorem isNullable_any : s.isNullable TypeId.any = false :=
  h.isNullable_eq closed_initial (by decide)

theorem isNullable_unknown : s.isNullable TypeId.unknown = false :=
  h.isNullable_eq closed_initial (by decide)

/-- A composed union of a list with `undefined` in it is nullable. -/
theorem isNullable_compose {ofNone : TypeId} {members : List TypeId}
    (hmem : TypeId.undefined ∈ members) :
    (s.compose ofNone .union members).2.isNullable (s.compose ofNone .union members).1 = true := by
  rw [isNullable, hasFlag, List.any_eq_true]
  refine ⟨TypeId.undefined, ?_, ?_⟩
  · rcases members with _ | ⟨first, _ | ⟨second, rest⟩⟩
    · cases hmem
    · obtain rfl := List.mem_singleton.mp hmem
      exact (unionMembers_undefined h).symm ▸ List.mem_singleton_self TypeId.undefined
    · have hdata : (s.compose ofNone .union (first :: second :: rest)).2.lookup
          (s.compose ofNone .union (first :: second :: rest)).1 =
            some (.union (first :: second :: rest)) := s.lookup_intern _
      rw [unionMembers, hdata]
      exact hmem
  · rw [flagsOf_undefined (h.trans (s.extends_compose ofNone .union members))]
    decide

/-- A union that `undefined` is put into is nullable unless it holds everything anyway. -/
theorem isNullable_union_undefined (id : TypeId) :
    (s.union [id, TypeId.undefined]).2.isNullable (s.union [id, TypeId.undefined]).1 =
      !((s.unionMembers id).contains TypeId.any ||
        (s.unionMembers id).contains TypeId.unknown) := by
  have hcontains (other : TypeId) (hother : other ≠ TypeId.undefined) :
      (s.unionMembers id ++ [TypeId.undefined]).contains other =
        (s.unionMembers id).contains other := by
    rw [List.contains_append, List.contains_cons, beq_false_of_ne hother]
    exact Bool.or_false _
  simp only [union, List.flatMap_cons, List.flatMap_nil, List.append_nil,
    unionMembers_undefined h, hcontains TypeId.any (by decide),
    hcontains TypeId.unknown (by decide)]
  split_ifs with hany hunknown
  · rw [isNullable_any h, hany]
    rfl
  · rw [isNullable_unknown h, hunknown, Bool.or_true]
    rfl
  · rw [Bool.not_eq_true] at hany hunknown
    rw [hany, hunknown]
    refine isNullable_compose h (mem_sortIds.mpr ?_)
    rw [List.mem_filter, isAbsorbed_undefined h, List.mem_filter]
    exact ⟨⟨List.mem_append_right _ (List.mem_singleton_self _), rfl⟩, rfl⟩

end

end Store

/-- The type is made of others neither as a union nor as an intersection. -/
def TypeData.isSimple : TypeData → Bool
  | union _ | intersection _ => false
  | _ => true

namespace Store

/-- The store has been built from the keyword types by its constructors, which took types that
    it knew. -/
inductive Made : Store → Prop where
  | initial : Made initial
  | intern {s : Store} {data : TypeData} (h : Made s) (hsimple : data.isSimple = true)
      (hknown : ∀ m ∈ data.mentioned, s.Known m) : Made (s.intern data).2
  | union {s : Store} {members : List TypeId} (h : Made s) (hknown : ∀ m ∈ members, s.Known m) :
      Made (s.union members).2
  | intersection {s : Store} {members : List TypeId} (h : Made s)
      (hknown : ∀ m ∈ members, s.Known m) : Made (s.intersection members).2

variable {s s' : Store} {id : TypeId}

/-- A type that a union may have as a member. -/
structure UnionPart (s : Store) (id : TypeId) : Prop where
  known : s.Known id
  notUnion : s.isUnion id = false
  ne_any : id ≠ TypeId.any
  ne_unknown : id ≠ TypeId.unknown
  ne_never : id ≠ TypeId.never

/-- A type that an intersection may have as a member. -/
structure IntersectionPart (s : Store) (id : TypeId) : Prop where
  known : s.Known id
  notIntersection : s.isIntersection id = false
  ne_any : id ≠ TypeId.any
  ne_unknown : id ≠ TypeId.unknown
  ne_never : id ≠ TypeId.never

/-- The structure of a type is in normal form. -/
def NormalData (s : Store) : TypeData → Prop
  | .union members => ∀ m ∈ members, s.UnionPart m
  | .intersection members => members ≠ [] ∧ ∀ m ∈ members, s.IntersectionPart m
  | data => ∀ m ∈ data.mentioned, s.Known m

/-- The store begins with the keyword types, and its unions and intersections are in normal form. -/
structure Normal (s : Store) : Prop where
  initial : Store.initial.Extends s
  data : ∀ id data, s.lookup id = some data → s.NormalData data

theorem UnionPart.extends (hs : s.Extends s') (h : s.UnionPart id) : s'.UnionPart id where
  known := hs.known h.known
  notUnion := (hs.isUnion_eq h.known).trans h.notUnion
  ne_any := h.ne_any
  ne_unknown := h.ne_unknown
  ne_never := h.ne_never

theorem IntersectionPart.extends (hs : s.Extends s') (h : s.IntersectionPart id) :
    s'.IntersectionPart id where
  known := hs.known h.known
  notIntersection := by
    have hdata := hs id h.known
    have hold := h.notIntersection
    rw [isIntersection] at hold ⊢
    rwa [hdata]
  ne_any := h.ne_any
  ne_unknown := h.ne_unknown
  ne_never := h.ne_never

theorem NormalData.extends (hs : s.Extends s') {data : TypeData} (h : s.NormalData data) :
    s'.NormalData data := by
  cases data with
  | union members => exact fun m hm => (h m hm).extends hs
  | intersection members => exact ⟨h.1, fun m hm => (h.2 m hm).extends hs⟩
  | _ => exact fun m hm => hs.known (h m hm)

theorem Normal.closed (h : s.Normal) : s.Closed where
  initial := h.initial
  mentioned id data hdata m hm := by
    have hnormal := h.data id data hdata
    cases data with
    | union members => exact (hnormal m hm).known
    | intersection members => exact (hnormal.2 m hm).known
    | _ => exact hnormal m hm

theorem lookup_of_lookup_intern {data data' : TypeData}
    (h : (s.intern data).2.lookup id = some data') :
    s.lookup id = some data' ∨
      id = s.size ∧ data' = data ∧ ∀ other, s.lookup other ≠ some data := by
  by_cases hid : s.Known id
  · exact .inl ((s.extends_intern data id hid).symm.trans h)
  · rw [intern] at h
    split at h
    · exact .inl h
    · next hnone =>
      have hpush := Array.getElem?_push.symm.trans h
      split_ifs at hpush with hsize
      · refine .inr ⟨hsize, (Option.some.inj hpush).symm, fun other hother => ?_⟩
        cases hnone.symm.trans ((s.inverse data other).mpr hother)
      · exact .inl hpush

theorem Normal.intern (h : s.Normal) {data : TypeData} (hdata : s.NormalData data) :
    (s.intern data).2.Normal where
  initial := h.initial.trans (s.extends_intern data)
  data id data' hlookup := by
    refine NormalData.extends (s.extends_intern data) ?_
    rcases lookup_of_lookup_intern hlookup with hold | ⟨-, rfl, -⟩
    · exact h.data id data' hold
    · exact hdata

theorem normalData_of_isSimple {data : TypeData} (hsimple : data.isSimple = true)
    (hknown : ∀ m ∈ data.mentioned, s.Known m) : s.NormalData data := by
  cases data with
  | union members => cases hsimple
  | intersection members => cases hsimple
  | _ => exact hknown

theorem normal_initial : Store.initial.Normal where
  initial := .refl _
  data id data hdata := by
    have hall : ∀ data ∈ Store.initial.types.toList,
        data = .union [TypeId.trueLiteral, TypeId.falseLiteral] ∨
          data.isSimple = true ∧ data.mentioned = [] := by decide
    rcases hall data (Array.mem_toList_iff.mpr (mem_types_of_lookup hdata)) with
      rfl | ⟨hsimple, hnone⟩
    · intro m hm
      rcases List.mem_pair.mp hm with rfl | rfl <;>
        exact ⟨by decide, rfl, by decide, by decide, by decide⟩
    · exact normalData_of_isSimple hsimple (hnone ▸ List.forall_mem_nil _)

theorem Normal.unionPart_of_mem (h : s.Normal) (hid : s.Known id) {part : TypeId}
    (hpart : part ∈ s.unionMembers id) (hany : part ≠ TypeId.any) (hunknown : part ≠ TypeId.unknown)
    (hnever : part ≠ TypeId.never) : s.UnionPart part := by
  rw [unionMembers] at hpart
  split at hpart
  · next members hdata => exact h.data _ _ hdata part hpart
  · next hnot =>
    obtain rfl := List.mem_singleton.mp hpart
    refine ⟨hid, ?_, hany, hunknown, hnever⟩
    rw [isUnion]
    split
    · next members hdata => exact (hnot members hdata).elim
    · rfl

theorem Normal.intersectionPart_of_mem (h : s.Normal) (hid : s.Known id) {part : TypeId}
    (hpart : part ∈ s.intersectionMembers id) (hany : part ≠ TypeId.any)
    (hunknown : part ≠ TypeId.unknown) (hnever : part ≠ TypeId.never) :
    s.IntersectionPart part := by
  rw [intersectionMembers] at hpart
  split at hpart
  · next members hdata => exact (h.data _ _ hdata).2 part hpart
  · next hnot =>
    obtain rfl := List.mem_singleton.mp hpart
    refine ⟨hid, ?_, hany, hunknown, hnever⟩
    rw [isIntersection]
    split
    · next members hdata => exact (hnot members hdata).elim
    · rfl

theorem Normal.compose (h : s.Normal) {ofNone : TypeId} {make : List TypeId → TypeData}
    {members : List TypeId} (hmake : members ≠ [] → s.NormalData (make members)) :
    (s.compose ofNone make members).2.Normal :=
  match members with
  | [] => h
  | [_] => h
  | _ :: _ :: _ => h.intern (hmake (List.cons_ne_nil _ _))

theorem Normal.union (h : s.Normal) {members : List TypeId} (hknown : ∀ m ∈ members, s.Known m) :
    (s.union members).2.Normal := by
  simp only [Store.union]
  split_ifs with hany hunknown
  · exact h
  · exact h
  · refine h.compose fun _ part hpart => ?_
    rw [mem_sortIds, List.mem_filter, List.mem_filter, bne_iff_ne] at hpart
    obtain ⟨m, hm, hmem⟩ := List.mem_flatMap.mp hpart.1.1
    refine h.unionPart_of_mem (hknown m hm) hmem ?_ ?_ hpart.1.2
    · exact fun heq => hany (List.contains_iff_mem.mpr (heq ▸ hpart.1.1))
    · exact fun heq => hunknown (List.contains_iff_mem.mpr (heq ▸ hpart.1.1))

theorem Normal.intersection (h : s.Normal) {members : List TypeId}
    (hknown : ∀ m ∈ members, s.Known m) : (s.intersection members).2.Normal := by
  simp only [Store.intersection]
  split_ifs with hnever hany
  · exact h
  · exact h
  · refine h.compose fun hne => ⟨hne, fun part hpart => ?_⟩
    rw [mem_sortIds, List.mem_filter, bne_iff_ne] at hpart
    obtain ⟨m, hm, hmem⟩ := List.mem_flatMap.mp hpart.1
    refine h.intersectionPart_of_mem (hknown m hm) hmem ?_ hpart.2 ?_
    · exact fun heq => hany (List.contains_iff_mem.mpr (heq ▸ hpart.1))
    · exact fun heq => hnever (List.contains_iff_mem.mpr (heq ▸ hpart.1))

/-- What the constructors build is in normal form. -/
theorem Made.normal (h : s.Made) : s.Normal := by
  induction h with
  | initial => exact normal_initial
  | @intern s data _ hsimple hknown ih =>
    exact ih.intern (normalData_of_isSimple hsimple hknown)
  | union _ hknown ih => exact ih.union hknown
  | intersection _ hknown ih => exact ih.intersection hknown

end Store

end TypeLint.Types
