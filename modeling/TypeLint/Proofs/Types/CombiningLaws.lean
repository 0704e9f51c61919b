import TypeLint.Proofs.Types.Canonical

namespace TypeLint.Types.Store

variable {c : Connective} {s t u : Store} {a b id m : TypeId} {ids ids' xs ys : List TypeId}

theorem left_congr (h : ∀ id, id ∈ ids ↔ id ∈ ids') : c.Left s ids m ↔ c.Left s ids' m := by
  simp only [Connective.Left, Topmost, List.mem_cons, List.mem_flatMap, h]

theorem left_weakest_cons_iff (hs : initial.Extends s) :
    c.Left s (c.weakest :: ids) m ↔ c.Left s ids m := by
  simp only [Connective.Left, Topmost, List.flatMap_cons, members_of_lt hs c.isKeyword.2.2 c,
    List.mem_cons, List.singleton_append, or_self_left]

/-- Of two types that are what is left of two lists the same is left as of the lists together. -/
theorem left_pair_iff (hs : initial.Extends s) (ha : ∀ m, m ∈ c.members s a ↔ c.Left s xs m)
    (hb : ∀ m, m ∈ c.members s b ↔ c.Left s ys m) :
    c.Left s [a, b] m ↔ c.Left s (xs ++ ys) m := by
  have := c.isStrictOrder_absorbs hs
  have hpair : [a, b].flatMap (c.members s) = c.members s a ++ c.members s b := by
    rw [List.flatMap_cons, List.flatMap_singleton]
  simp only [Connective.Left, hpair, List.flatMap_append]
  refine topmost_iff_of_subset (fun m hm => ?_) fun m hm => ?_
  · simp only [List.mem_cons, List.mem_append, ha, hb] at hm ⊢
    rcases hm with rfl | hm | hm
    · exact .inl rfl
    · exact (List.mem_cons.mp hm.1).imp_right .inl
    · exact (List.mem_cons.mp hm.1).imp_right .inr
  · simp only [List.mem_cons, List.mem_append, ha, hb]
    have hmem := hm.1
    simp only [List.mem_cons, List.mem_append] at hmem
    refine hmem.imp_right (.imp (fun hmem => ?_) fun hmem => ?_)
    · exact hm.of_subset (List.mem_cons_of_mem _ hmem)
        (List.cons_subset_cons _ (List.subset_append_left _ _))
    · exact hm.of_subset (List.mem_cons_of_mem _ hmem)
        (List.cons_subset_cons _ (List.subset_append_right _ _))

/-- From the store on, making one type of some types is the operation of a commutative monoid on
    sets of types. The calls may be made at any times; what is between them is of no matter. -/
structure CombinesSets (s : Store) (combine : Store → List TypeId → TypeId × Store)
    (unit : TypeId) : Prop where
  /-- The outcome depends on nothing but which types there are. -/
  ofSet : ∀ ids ids', (∀ id, id ∈ ids ↔ id ∈ ids') → combine s ids = combine s ids'
  /-- At any later time the outcome is the same, and the store has it. -/
  again : ∀ ids, (∀ id ∈ ids, s.Known id) → ∀ t, t.Made → (combine s ids).2.Extends t →
    combine t ids = ((combine s ids).1, t)
  /-- What is made of two outcomes is what is made of all types together. -/
  nested : ∀ xs, (∀ id ∈ xs, s.Known id) → ∀ t, t.Made → (combine s xs).2.Extends t →
    ∀ ys, (∀ id ∈ ys, t.Known id) → ∀ u, u.Made → (combine t ys).2.Extends u →
      combine u [(combine s xs).1, (combine t ys).1] = combine u (xs ++ ys)
  /-- What is made of one type is this type. -/
  single : ∀ id, s.Known id → combine s [id] = (id, s)
  /-- Without types the outcome is the neutral element. -/
  empty : combine s [] = (unit, s)
  /-- The neutral element adds nothing. -/
  unit_cons : ∀ ids, combine s (unit :: ids) = combine s ids

theorem Made.combinesSets (h : s.Made) (c : Connective) : s.CombinesSets c.combine c.weakest where
  ofSet ids ids' hmem := combine_congr h.canonical.initial fun m => left_congr hmem
  again ids hids t ht hs :=
    ht.canonical.combine_eq_of_members fun m => h.canonical.mem_members_iff_left hids hs
  nested xs hxs t ht hs ys hys u hu ht' := by
    have hsu := (hs.trans (extends_combine c t ys)).trans ht'
    exact combine_congr hu.canonical.initial fun m => left_pair_iff hu.canonical.initial
      (fun m => h.canonical.mem_members_iff_left hxs hsu)
      fun m => ht.canonical.mem_members_iff_left hys ht'
  single id _ :=
    h.canonical.combine_eq_of_members fun m => (h.canonical.left_singleton_iff c id m).symm
  empty := by
    refine h.canonical.combine_eq_of_members fun m => ?_
    rw [← h.canonical.left_singleton_iff c c.weakest m]
    exact left_weakest_cons_iff h.canonical.initial
  unit_cons ids :=
    combine_congr h.canonical.initial fun m => left_weakest_cons_iff h.canonical.initial

theorem combine_of_strongest_mem (hs : initial.Extends s) (hmem : c.strongest ∈ ids) :
    c.combine s ids = (c.strongest, s) := by
  rw [Connective.combine_eq, if_pos]
  refine List.mem_flatMap.mpr ⟨_, hmem, ?_⟩
  rw [members_of_lt hs c.isKeyword.1]
  exact List.mem_singleton_self _

theorem Normal.ne_strongest_of_mem (h : s.Normal) (hm : m ∈ c.members s id)
    (hid : id ≠ c.strongest) : m ≠ c.strongest := by
  rcases members_cases c s id with hdata | ⟨-, hself⟩
  · cases c with
    | union => exact (h.data _ _ hdata m hm).ne_any
    | intersection => exact ((h.data _ _ hdata).2 m hm).ne_never
  · rw [hself, List.mem_singleton] at hm
    exact hm ▸ hid

theorem Normal.combine_of_second_mem (h : s.Normal) (hmem : c.second ∈ ids)
    (hnot : c.strongest ∉ ids) : c.combine s ids = (c.second, s) := by
  rw [Connective.combine_eq, if_neg, if_pos]
  · refine List.mem_flatMap.mpr ⟨_, hmem, ?_⟩
    rw [members_of_lt h.initial c.isKeyword.2.1]
    exact List.mem_singleton_self _
  · intro hstrongest
    obtain ⟨id, hid, hm⟩ := List.mem_flatMap.mp hstrongest
    exact h.ne_strongest_of_mem hm (fun heq => hnot (heq ▸ hid)) rfl

/-- In a store that is made, unions and intersections of known types are those of sets: the order
    and number of the types do not matter, nor how they are nested, nor when the calls are made.
    `never` adds nothing to a union, `any` absorbs all other types, and `unknown` all but `any`;
    `unknown` adds nothing to an intersection, `never` absorbs all other types, and `any` all but
    `never`. -/
theorem Made.combining_laws (h : s.Made) :
    s.CombinesSets Store.union TypeId.never ∧
    (∀ ids, TypeId.any ∈ ids → s.union ids = (TypeId.any, s)) ∧
    (∀ ids, TypeId.unknown ∈ ids → TypeId.any ∉ ids → s.union ids = (TypeId.unknown, s)) ∧
    s.CombinesSets Store.intersection TypeId.unknown ∧
    (∀ ids, TypeId.never ∈ ids → s.intersection ids = (TypeId.never, s)) ∧
    ∀ ids, TypeId.any ∈ ids → TypeId.never ∉ ids → s.intersection ids = (TypeId.any, s) :=
  have hnormal := h.normal
  ⟨h.combinesSets .union, fun _ => combine_of_strongest_mem (c := .union) hnormal.initial,
    fun _ => hnormal.combine_of_second_mem (c := .union), h.combinesSets .intersection,
    fun _ => combine_of_strongest_mem (c := .intersection) hnormal.initial,
    fun _ => hnormal.combine_of_second_mem (c := .intersection)⟩

/-- The store behind a call for `"a" | undefined | number`. -/
def firstUnion : Store := (absorbingStore.union [15, TypeId.number]).2

/-- The store behind a further call for `string | null`. -/
def secondUnion : Store := (firstUnion.union [TypeId.string, TypeId.null]).2

/-- The union of both unions is that of all their types, in which `string` absorbs the literal. -/
theorem combining_laws_nested :
    absorbingStore.Made ∧ firstUnion.Made ∧ secondUnion.Made ∧
      (absorbingStore.union [15, TypeId.number]).1 = 19 ∧
      (firstUnion.union [TypeId.string, TypeId.null]).1 = 20 ∧
      secondUnion.union [19, 20] =
        secondUnion.union [15, TypeId.number, TypeId.string, TypeId.null] ∧
      (secondUnion.union [19, 20]).2.lookup 21 =
        some (.union [TypeId.undefined, TypeId.null, TypeId.string, TypeId.number]) ∧
      absorbingStore.intersection [17, TypeId.any] = (TypeId.any, absorbingStore) := by
  have hfirst : firstUnion.Made := .union made_absorbingStore (by decide)
  have hsecond : secondUnion.Made := .union hfirst (by decide)
  have hxs : (absorbingStore.union [15, TypeId.number]).1 = 19 := by decide
  have hys : (firstUnion.union [TypeId.string, TypeId.null]).1 = 20 := by decide
  obtain ⟨hunions, -, -, -, -, hany⟩ := made_absorbingStore.combining_laws
  have hnested := hunions.nested [15, TypeId.number] (by decide) firstUnion hfirst (.refl _)
    [TypeId.string, TypeId.null] (by decide) secondUnion hsecond (.refl _)
  rw [hxs, hys] at hnested
  exact ⟨made_absorbingStore, hfirst, hsecond, hxs, hys, hnested, by decide,
    hany _ (by decide) (by decide)⟩

end TypeLint.Types.Store
