import TypeLint.Proofs.Types.Canonical

namespace TypeLint.Types.Store

variable {s t : Store} {primitive id m part : TypeId} {ms : List TypeId}

/-- The flags of a literal and of its keyword type. -/
theorem IsPrimitiveOf.flagsOf_eq (h : s.IsPrimitiveOf primitive part) (hs : initial.Extends s) :
    (s.flagsOf primitive, s.flagsOf part) ∈
      [(Flags.string, Flags.stringLiteral), (Flags.number, Flags.numberLiteral),
        (Flags.bigint, Flags.bigintLiteral)] := by
  obtain ⟨value, hdata, hprimitive⟩ := h
  have hpart : s.flagsOf part = value.flags := by rw [flagsOf, hdata]; rfl
  rw [hpart]
  cases value with
  | boolean value => cases hprimitive
  | _ =>
    cases hprimitive
    rw [hs.flagsOf_eq (by decide)]
    simp only [LiteralValue.flags]
    decide

/-- A literal that is absorbed has no flag of types with nullish values. -/
theorem IsPrimitiveOf.not_intersects (h : s.IsPrimitiveOf primitive part) (hs : initial.Extends s) :
    ∀ flags ∈ [Flags.nullable, Flags.anyOrUnknown ∪ Flags.nullable ∪ Flags.void],
      (s.flagsOf primitive).intersects flags = false ∧
        (s.flagsOf part).intersects flags = false := by
  have hall : ∀ pair ∈ [(Flags.string, Flags.stringLiteral), (Flags.number, Flags.numberLiteral),
      (Flags.bigint, Flags.bigintLiteral)],
      ∀ flags ∈ [Flags.nullable, Flags.anyOrUnknown ∪ Flags.nullable ∪ Flags.void],
        pair.1.intersects flags = false ∧ pair.2.intersects flags = false := by decide
  exact hall _ (h.flagsOf_eq hs)

/-- A keyword type that absorbs literals has values of both truths, as far as its flags tell. -/
theorem IsPrimitiveOf.truth (h : s.IsPrimitiveOf primitive part) (hs : initial.Extends s) :
    s.intersectionMembers primitive = [primitive] ∧ s.isTruthyLiteral primitive = false ∧
      (s.flagsOf primitive).intersects .possiblyFalsy = true ∧ s.isFalsy primitive = false := by
  have hall : ∀ keyword ∈ [TypeId.string, TypeId.number, TypeId.bigint],
      initial.intersectionMembers keyword = [keyword] ∧ initial.isTruthyLiteral keyword = false ∧
        (initial.flagsOf keyword).intersects .possiblyFalsy = true ∧
          initial.isFalsy keyword = false := by decide
  have hknown : initial.Known primitive := by rcases h.eq_or with rfl | rfl | rfl <;> decide
  rw [hs.intersectionMembers_eq hknown, hs.isTruthyLiteral_eq hknown, hs.flagsOf_eq hknown,
    hs.isFalsy_eq hknown]
  refine hall primitive ?_
  rcases h.eq_or with rfl | rfl | rfl <;> decide

/-- The condition holds of a part of the union if it holds of a part of one of its types, provided
    that it holds of a keyword type whenever it holds of one of its literals. -/
theorem Canonical.any_union (h : s.Canonical) (hne : ms ≠ []) (hknown : ∀ m ∈ ms, s.Known m)
    (hplain : ∀ m ∈ ms, ∀ part ∈ s.unionMembers m,
      part ∉ [TypeId.any, TypeId.unknown, TypeId.never])
    (ht : (s.union ms).2.Extends t) {p : TypeId → Bool}
    (hp : ∀ primitive part, t.IsPrimitiveOf primitive part → p part = true → p primitive = true) :
    (t.unionMembers (s.union ms).1).any p = ms.any fun m => (t.unionMembers m).any p := by
  have hst := (s.extends_union ms).trans ht
  have hflat : ∀ part ∈ ms.flatMap t.unionMembers,
      part ≠ TypeId.any ∧ part ≠ TypeId.unknown ∧ part ≠ TypeId.never := by
    intro part hpart
    obtain ⟨m, hm, hpart⟩ := List.mem_flatMap.mp hpart
    rw [hst.unionMembers_eq (hknown m hm)] at hpart
    simpa using hplain m hm part hpart
  obtain ⟨other, hother⟩ : ∃ other, other ∈ ms.flatMap t.unionMembers := by
    obtain ⟨m, hm⟩ := List.exists_mem_of_ne_nil ms hne
    obtain ⟨part, hpart⟩ := h.exists_mem_members .union m
    exact ⟨part, List.mem_flatMap.mpr ⟨m, hm, by rwa [hst.unionMembers_eq (hknown m hm)]⟩⟩
  have hleft (part : TypeId) : part ∈ t.unionMembers (s.union ms).1 ↔
      Connective.union.Left t ms part := h.mem_members_iff_left (c := .union) hknown ht
  rw [← List.any_flatMap, Bool.eq_iff_iff, List.any_eq_true, List.any_eq_true]
  simp only [hleft]
  constructor
  · exact fun ⟨part, htop, hpart⟩ => ⟨part, htop.mem_flatMap hother (hflat other hother).2.2, hpart⟩
  · rintro ⟨part, hmem, hpart⟩
    have := Connective.union.isStrictOrder_absorbs (h.initial.trans hst)
    rcases topmost_or_exists (Connective.union.Absorbs t)
      (List.mem_cons_of_mem TypeId.never hmem) with htop | ⟨a, htop, habsorbs⟩
    · exact ⟨part, htop, hpart⟩
    · have ha := hflat a ((List.mem_cons.mp htop.1).resolve_left habsorbs.ne_weakest)
      cases habsorbs with
      | strongest heq => exact (ha.1 heq).elim
      | second heq => exact (ha.2.1 heq).elim
      | weakest _ heq => exact ((hflat part hmem).2.2 heq).elim
      | literal _ hliteral => exact ⟨a, htop, hp a part hliteral hpart⟩

/-- The condition holds of all parts of the union if it holds of all parts of its types, provided
    that it fails for a keyword type whenever it fails for one of its literals. -/
theorem Canonical.all_union (h : s.Canonical) (hne : ms ≠ []) (hknown : ∀ m ∈ ms, s.Known m)
    (hplain : ∀ m ∈ ms, ∀ part ∈ s.unionMembers m,
      part ∉ [TypeId.any, TypeId.unknown, TypeId.never])
    (ht : (s.union ms).2.Extends t) {p : TypeId → Bool}
    (hp : ∀ primitive part, t.IsPrimitiveOf primitive part → p primitive = true → p part = true) :
    (t.unionMembers (s.union ms).1).all p = ms.all fun m => (t.unionMembers m).all p := by
  have hnot (primitive part : TypeId) (hprim : t.IsPrimitiveOf primitive part)
      (hpart : (!p part) = true) : (!p primitive) = true := by
    simpa using mt (hp primitive part hprim) (by simpa using hpart)
  have hany := h.any_union hne hknown hplain ht hnot
  simpa [List.all_eq_not_any_not] using hany

theorem isPossiblyFalsy_eq (s : Store) :
    s.isPossiblyFalsy = fun id => (s.unionMembers id).any fun part =>
      (s.intersectionMembers part).any fun m =>
        !s.isTruthyLiteral m && (s.flagsOf m).intersects .possiblyFalsy := by
  funext id
  rw [isPossiblyFalsy, atomicParts, List.any_filter, List.any_flatMap]

/-- Of a union of types without `any`, `unknown` and `never` holds that it is nullable, possibly
    nullish, nullable or `void`, possibly true, or possibly false if that holds of one of the types,
    and that it is always nullish if that holds of all of them; whenever that is asked. -/
theorem Made.union_queries (h : s.Made) (hne : ms ≠ []) (hknown : ∀ m ∈ ms, s.Known m)
    (hplain : ∀ m ∈ ms, ∀ part ∈ s.unionMembers m,
      part ∉ [TypeId.any, TypeId.unknown, TypeId.never])
    (ht : (s.union ms).2.Extends t) :
    t.isNullable (s.union ms).1 = ms.any t.isNullable ∧
      t.isPossiblyNullish (s.union ms).1 = ms.any t.isPossiblyNullish ∧
      t.isNullableLike (s.union ms).1 = ms.any t.isNullableLike ∧
      t.isPossiblyTruthy (s.union ms).1 = ms.any t.isPossiblyTruthy ∧
      t.isPossiblyFalsy (s.union ms).1 = ms.any t.isPossiblyFalsy ∧
      t.isAlwaysNullish (s.union ms).1 = ms.all t.isAlwaysNullish := by
  have hs : Store.initial.Extends t := h.normal.initial.trans ((s.extends_union ms).trans ht)
  have hany {p : TypeId → Bool} := h.canonical.any_union hne hknown hplain ht (p := p)
  have hnullable {primitive part : TypeId} (hprim : t.IsPrimitiveOf primitive part) :=
    hprim.not_intersects hs Flags.nullable (by decide)
  refine ⟨hany fun primitive part hprim hpart => ?_, hany fun primitive part hprim hpart => ?_,
    hany fun primitive part hprim hpart => ?_, hany fun primitive part hprim _ => ?_, ?_,
    h.canonical.all_union hne hknown hplain ht fun primitive part hprim hpart => ?_⟩
  · cases (hnullable hprim).2.symm.trans hpart
  · cases (hnullable hprim).2.symm.trans hpart
  · cases (hprim.not_intersects hs _ (by decide)).2.symm.trans hpart
  · obtain ⟨hself, -, -, hfalsy⟩ := hprim.truth hs
    rw [hself, List.all_cons, hfalsy]
    rfl
  · rw [isPossiblyFalsy_eq]
    refine hany fun primitive part hprim _ => ?_
    obtain ⟨hself, hliteral, hflags, -⟩ := hprim.truth hs
    rw [hself, List.any_cons, hliteral, hflags]
    rfl
  · cases (hnullable hprim).1.symm.trans hpart

/-- The union of `"a" | undefined` and `string` is what its two types are, though `"a"` is no part
    of it. -/
theorem union_queries_absorbed :
    absorbingStore.Made ∧ (∀ m ∈ [15, TypeId.string], absorbingStore.Known m) ∧
      (∀ m ∈ [15, TypeId.string], ∀ part ∈ absorbingStore.unionMembers m,
        part ∉ [TypeId.any, TypeId.unknown, TypeId.never]) ∧
      absorbingStore.union [15, TypeId.string] = (16, absorbingStore) ∧
      absorbingStore.isNullable 16 = true ∧ absorbingStore.isPossiblyTruthy 16 = true ∧
      absorbingStore.isPossiblyFalsy 16 = true ∧ absorbingStore.isAlwaysNullish 16 = false := by
  have hknown : ∀ m ∈ [15, TypeId.string], absorbingStore.Known m := by decide
  have hplain : ∀ m ∈ [15, TypeId.string], ∀ part ∈ absorbingStore.unionMembers m,
      part ∉ [TypeId.any, TypeId.unknown, TypeId.never] := by decide
  have hid : (absorbingStore.union [15, TypeId.string]).1 = 16 := by decide
  have hstore : (absorbingStore.union [15, TypeId.string]).2 = absorbingStore :=
    Store.ext (by decide) (by decide)
  have hextends : (absorbingStore.union [15, TypeId.string]).2.Extends absorbingStore := by
    rw [hstore]
    exact .refl _
  obtain ⟨hnullable, -, -, htruthy, hfalsy, halways⟩ :=
    made_absorbingStore.union_queries (by decide) hknown hplain hextends
  rw [hid] at hnullable htruthy hfalsy halways
  exact ⟨made_absorbingStore, hknown, hplain, Prod.ext hid hstore,
    hnullable.trans (by decide), htruthy.trans (by decide),
    hfalsy.trans (by decide), halways.trans (by decide)⟩

end TypeLint.Types.Store
