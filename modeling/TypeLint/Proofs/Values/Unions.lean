import TypeLint.Binding.Bind
import TypeLint.Proofs.Values.Basic

namespace TypeLint.Types.Store

open Values Binding

variable {w : World} {s s' : Store} {v : Value} {id : TypeId} {members : List TypeId}

theorem Extends.inhabits (hs : s.Extends s') (hv : Inhabits w s v id) : Inhabits w s' v id := by
  induction hv with
  | intrinsic h hv => exact .intrinsic (hs.lookup_eq_some h) hv
  | literal h hv => exact .literal (hs.lookup_eq_some h) hv
  | enumLiteral h hv => exact .enumLiteral (hs.lookup_eq_some h) hv
  | uniqueSymbol h => exact .uniqueSymbol (hs.lookup_eq_some h)
  | free h => exact .free (hs.lookup_eq_some h)
  | bounded h _ ih => exact .bounded (hs.lookup_eq_some h) ih
  | union h hm _ ih => exact .union (hs.lookup_eq_some h) hm ih
  | intersection h _ ih => exact .intersection (hs.lookup_eq_some h) ih
  | array h => exact .array (hs.lookup_eq_some h)
  | tuple h _ ih => exact .tuple (hs.lookup_eq_some h) ih
  | object h _ ih =>
    refine .object (hs.lookup_eq_some h) fun name p hp => ?_
    rw [hs.ownProperty?_eq (known_of_lookup h)] at hp
    exact ih name p hp

/-- A type that is known has the same values in a store that has grown. -/
theorem Extends.inhabits_iff (hs : s.Extends s') (h : s.Closed) (hid : s.Known id) :
    Inhabits w s' v id ↔ Inhabits w s v id := by
  refine ⟨fun hv => ?_, hs.inhabits⟩
  induction hv with
  | intrinsic hdata hv => exact .intrinsic ((hs _ hid).symm.trans hdata) hv
  | literal hdata hv => exact .literal ((hs _ hid).symm.trans hdata) hv
  | enumLiteral hdata hv => exact .enumLiteral ((hs _ hid).symm.trans hdata) hv
  | uniqueSymbol hdata => exact .uniqueSymbol ((hs _ hid).symm.trans hdata)
  | free hdata => exact .free ((hs _ hid).symm.trans hdata)
  | bounded hdata _ ih =>
    have hdata := (hs _ hid).symm.trans hdata
    exact .bounded hdata (ih (h.mentioned _ _ hdata _ (List.mem_singleton_self _)))
  | union hdata hm _ ih =>
    have hdata := (hs _ hid).symm.trans hdata
    exact .union hdata hm (ih (h.mentioned _ _ hdata _ hm))
  | intersection hdata _ ih =>
    have hdata := (hs _ hid).symm.trans hdata
    exact .intersection hdata fun m hm => ih m hm (h.mentioned _ _ hdata _ hm)
  | array hdata => exact .array ((hs _ hid).symm.trans hdata)
  | tuple hdata _ ih =>
    have hdata := (hs _ hid).symm.trans hdata
    exact .tuple hdata fun i element hi =>
      ih i element hi (h.mentioned _ _ hdata _ (List.mem_of_getElem? hi))
  | object hdata _ ih =>
    refine .object ((hs _ hid).symm.trans hdata) fun name p hp hoptional => ?_
    exact ih name p ((hs.ownProperty?_eq hid name).trans hp) hoptional (h.known_of_ownProperty? hp)

/-- A keyword type has the values that the keyword tells. -/
theorem Closed.inhabits_keyword (h : s.Closed) (kind : Intrinsic)
    (hkind : Store.initial.lookup id = some (.intrinsic kind)) :
    Inhabits w s v id ↔ kind.Holds v :=
  inhabits_intrinsic_iff (h.initial.lookup_eq_some hkind)

theorem Closed.inhabits_compose (h : s.Closed) (hknown : ∀ m ∈ members, s.Known m) :
    Inhabits w (s.compose TypeId.never .union members).2 v
        (s.compose TypeId.never .union members).1 ↔ ∃ m ∈ members, Inhabits w s v m := by
  match members with
  | [] =>
    simp only [List.not_mem_nil, false_and, exists_false, iff_false]
    exact (h.inhabits_keyword .never rfl).mp
  | [only] => simp only [List.mem_singleton, exists_eq_left]; rfl
  | first :: second :: rest =>
    refine (inhabits_union_iff (s.lookup_intern _)).trans ?_
    exact exists_congr fun m => and_congr_right fun hm =>
      (s.extends_intern _).inhabits_iff h (hknown m hm)

/-- The value of a literal that its primitive type absorbs is one of this type, which stands beside
    the literal and is no literal itself. -/
theorem Closed.exists_primitive (h : s.Closed) (habsorbed : s.isAbsorbed members id = true)
    (hv : Inhabits w s v id) :
    ∃ m ∈ members, m ≠ TypeId.never ∧ s.isAbsorbed members m = false ∧ Inhabits w s v m := by
  have hprimitive {primitive : TypeId} (kind : Intrinsic)
      (hkind : Store.initial.lookup primitive = some (.intrinsic kind))
      (hne : primitive ≠ TypeId.never) (hmem : members.contains primitive = true)
      (hholds : kind.Holds v) :
      ∃ m ∈ members, m ≠ TypeId.never ∧ s.isAbsorbed members m = false ∧ Inhabits w s v m := by
    refine ⟨primitive, List.contains_iff_mem.mp hmem, hne, ?_,
      (h.inhabits_keyword kind hkind).mpr hholds⟩
    rw [isAbsorbed, h.initial.lookup_eq_some hkind]
  rw [isAbsorbed] at habsorbed
  split at habsorbed
  · next value hdata =>
    exact hprimitive .string rfl (by decide) habsorbed ⟨_, (inhabits_literal_iff hdata).mp hv⟩
  · next value hdata =>
    exact hprimitive .number rfl (by decide) habsorbed ⟨_, (inhabits_literal_iff hdata).mp hv⟩
  · next digits hdata =>
    obtain ⟨n, -, hn⟩ := (inhabits_literal_iff hdata).mp hv
    exact hprimitive .bigint rfl (by decide) habsorbed ⟨n, hn⟩
  · cases habsorbed

theorem exists_inhabits_flatMap :
    (∃ part ∈ members.flatMap s.unionMembers, Inhabits w s v part) ↔
      ∃ m ∈ members, Inhabits w s v m := by
  simp only [List.mem_flatMap]
  constructor
  · rintro ⟨part, ⟨m, hm, hpart⟩, hv⟩
    exact ⟨m, hm, inhabits_iff_unionMembers.mpr ⟨part, hpart, hv⟩⟩
  · rintro ⟨m, hm, hv⟩
    obtain ⟨part, hpart, hv⟩ := inhabits_iff_unionMembers.mp hv
    exact ⟨part, ⟨m, hm, hpart⟩, hv⟩

/-- A union has the values of the types that it is made of. -/
theorem Closed.inhabits_union (h : s.Closed) (hknown : ∀ m ∈ members, s.Known m) :
    Inhabits w (s.union members).2 v (s.union members).1 ↔ ∃ m ∈ members, Inhabits w s v m := by
  rw [← exists_inhabits_flatMap]
  have hflat : ∀ part ∈ members.flatMap s.unionMembers, s.Known part := by
    intro part hpart
    obtain ⟨m, hm, hpart⟩ := List.mem_flatMap.mp hpart
    exact h.known_of_mem_unionMembers (hknown m hm) hpart
  simp only [union]
  generalize members.flatMap s.unionMembers = flat at hflat ⊢
  have habove {top : TypeId} (htop : Inhabits w s v top) (hmem : flat.contains top = true) :
      Inhabits w s v top ↔ ∃ part ∈ flat, Inhabits w s v part :=
    iff_of_true htop ⟨top, List.contains_iff_mem.mp hmem, htop⟩
  split_ifs with hany hunknown
  · exact habove ((h.inhabits_keyword .any rfl).mpr trivial) hany
  · exact habove ((h.inhabits_keyword .unknown rfl).mpr trivial) hunknown
  · rw [h.inhabits_compose fun m hm => hflat m
      (List.mem_of_mem_filter (List.mem_of_mem_filter (mem_sortIds.mp hm)))]
    simp only [mem_sortIds, List.mem_filter, bne_iff_ne, Bool.not_eq_true']
    refine ⟨fun ⟨m, hm, hv⟩ => ⟨m, hm.1.1, hv⟩, fun ⟨m, hm, hv⟩ => ?_⟩
    cases habsorbed : s.isAbsorbed flat m with
    | true =>
      obtain ⟨other, hother, hne, hnot, hv⟩ := h.exists_primitive habsorbed hv
      exact ⟨other, ⟨⟨hother, hne⟩, hnot⟩, hv⟩
    | false =>
      refine ⟨m, ⟨⟨hm, fun heq => ?_⟩, habsorbed⟩, hv⟩
      exact (h.inhabits_keyword .never rfl).mp (heq ▸ hv)

/-- What is left of a type without its nullish parts has all its values that are not nullish. -/
theorem Closed.inhabits_removeNullish (h : s.Closed) (hid : s.Known id) (hv : Inhabits w s v id)
    (hnot : v.isNullish = false) :
    Inhabits w (removeNullish s id).2 v (removeNullish s id).1 := by
  rw [removeNullish, h.inhabits_union fun m hm =>
    h.known_of_mem_unionMembers hid (List.mem_of_mem_filter hm)]
  obtain ⟨part, hpart, hv⟩ := inhabits_iff_unionMembers.mp hv
  refine ⟨part, List.mem_filter.mpr ⟨hpart, ?_⟩, hv⟩
  rw [Bool.and_eq_true, bne_iff_ne, bne_iff_ne]
  constructor
  · rintro rfl
    obtain rfl : v = .null := (h.inhabits_keyword .null rfl).mp hv
    cases hnot
  · rintro rfl
    obtain rfl : v = .undefined := (h.inhabits_keyword .undefined rfl).mp hv
    cases hnot

end TypeLint.Types.Store
