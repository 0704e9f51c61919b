import TypeLint.Proofs.Types.Canonical
import TypeLint.Proofs.Values.Nullish

namespace TypeLint.Types.Store

open Values Binding

variable {w : World} {s s' : Store} {v : Value} {id object part type : TypeId} {name : String}
  {property : Property}

theorem propertyIn_eq (hname : Decimal.readIndex? name = none) (parts : List TypeId) :
    s.propertyIn name parts =
      match parts.findSome? fun part => s.ownProperty? part name with
      | none => (none, s)
      | some p =>
        if p.optional then found (s.union [p.type, TypeId.undefined]) else (some p.type, s) := by
  induction parts with
  | nil => rfl
  | cons part rest ih =>
    rw [propertyIn, List.findSome?_cons]
    cases s.ownProperty? part name with
    | none =>
      rw [hname]
      cases s.tupleElements? part <;> exact ih
    | some p => rfl

/-- A name that spells no index is looked up among the declared properties. -/
theorem propertyType_eq (hname : Decimal.readIndex? name = none) :
    s.propertyType id name =
      match s.partProperty? name id with
      | none => (none, s)
      | some p =>
        if p.optional then found (s.union [p.type, TypeId.undefined]) else (some p.type, s) :=
  propertyIn_eq hname _

theorem exists_member_of_partProperty? (h : s.partProperty? name part = some property) :
    ∃ m ∈ s.intersectionMembers part, s.ownProperty? m name = some property :=
  List.exists_of_findSome?_eq_some h

theorem exists_shape_of_ownProperty? (h : s.ownProperty? id name = some property) :
    ∃ shape, s.lookup id = some (.object shape) := by
  rw [ownProperty?, properties] at h
  split at h
  · next shape hdata => exact ⟨shape, hdata⟩
  · cases h

/-- The value of a declared property is one of its type, or an optional property is missing. -/
theorem inhabits_read (h : s.partProperty? name part = some property) (hv : Inhabits w s v part) :
    Inhabits w s (w.read v name) property.type ∨
      property.optional = true ∧ w.read v name = .undefined := by
  obtain ⟨m, hm, hproperty⟩ := exists_member_of_partProperty? h
  obtain ⟨shape, hdata⟩ := exists_shape_of_ownProperty? hproperty
  cases inhabits_iff_intersectionMembers.mp hv m hm with
  | @object _ address _ _ hread =>
    by_cases hmissing : property.optional = true ∧ w.read (.object address) name = .undefined
    · exact .inr hmissing
    · exact .inl (hread name property hproperty (not_and.mp hmissing))
  | intrinsic hother | literal hother | enumLiteral hother | uniqueSymbol hother | free hother
  | bounded hother | union hother | intersection hother | array hother | tuple hother =>
    cases hdata.symm.trans hother

/-- A part with a declared property is no union and not `never`. -/
theorem isUnion_of_partProperty? (h : s.partProperty? name part = some property) :
    s.isUnion part = false ∧ s.lookup part ≠ some (.intrinsic .never) := by
  obtain ⟨m, hm, hproperty⟩ := exists_member_of_partProperty? h
  obtain ⟨shape, hdata⟩ := exists_shape_of_ownProperty? hproperty
  rw [isUnion]
  rw [intersectionMembers] at hm
  split at hm
  · next members hmembers =>
    rw [hmembers]
    exact ⟨rfl, fun heq => by cases heq⟩
  · rw [List.mem_singleton.mp hm] at hdata
    rw [hdata]
    exact ⟨rfl, fun heq => by cases heq⟩

/-- What is left of a type without its nullish parts is one of its parts if it has a property. -/
theorem Normal.removeNullish_mem_unionMembers (hn : s.Normal)
    (h : (removeNullish s id).2.partProperty? name (removeNullish s id).1 = some property) :
    (removeNullish s id).1 ∈ s.unionMembers id := by
  obtain ⟨hnot, hnever⟩ := isUnion_of_partProperty? h
  have hself : (removeNullish s id).1 ∈
      (removeNullish s id).2.unionMembers (removeNullish s id).1 := by
    rw [isUnion] at hnot
    rw [unionMembers]
    split
    · next hdata =>
      rw [hdata] at hnot
      cases hnot
    · exact List.mem_singleton_self _
  have hleft := (hn.mem_members_combine_iff (c := .union)).mp hself
  rcases List.mem_cons.mp hleft.1 with heq | hmem
  · have hextends : s.Extends (removeNullish s id).2 := s.extends_union _
    exact (hnever (heq ▸ (hn.initial.trans hextends).lookup_eq_some rfl)).elim
  · obtain ⟨part, hpart, hmem⟩ := List.mem_flatMap.mp hmem
    have hpart := List.mem_of_mem_filter hpart
    rw [hn.members_of_mem (c := .union) hpart] at hmem
    exact List.mem_singleton.mp hmem ▸ hpart

/-- The second type has all values of the first one, and no parts besides those of the first one but
    `undefined`. -/
structure Widens (s : Store) (id type : TypeId) : Prop where
  covers : ∀ w v, Inhabits w s v id → Inhabits w s v type
  parts : ∀ part ∈ s.unionMembers type, part = TypeId.undefined ∨ part ∈ s.unionMembers id

theorem Widens.refl (s : Store) (id : TypeId) : s.Widens id id :=
  ⟨fun _ _ hv => hv, fun _ hpart => .inr hpart⟩

theorem Widens.trans {other : TypeId} (h : s.Widens id other) (h' : s.Widens other type) :
    s.Widens id type where
  covers w v hv := h'.covers w v (h.covers w v hv)
  parts part hpart := (h'.parts part hpart).elim .inl (h.parts part)

theorem Widens.extends (h : s.Widens id type) (hs : s.Extends s') (hclosed : s.Closed)
    (hid : s.Known id) (htype : s.Known type) : s'.Widens id type where
  covers w v hv := hs.inhabits (h.covers w v ((hs.inhabits_iff hclosed hid).mp hv))
  parts part hpart := by
    rw [hs.unionMembers_eq htype] at hpart
    rw [hs.unionMembers_eq hid]
    exact h.parts part hpart

theorem Normal.inhabits_union_undefined (hn : s.Normal) (hid : s.Known id) (w : World) :
    Inhabits w (s.union [id, TypeId.undefined]).2 .undefined
      (s.union [id, TypeId.undefined]).1 := by
  refine (hn.closed.inhabits_union ?_).mpr ⟨TypeId.undefined, by simp, ?_⟩
  · simpa using ⟨hid, hn.closed.known_builtin (by decide)⟩
  · exact (hn.closed.inhabits_keyword .undefined rfl).mpr rfl

/-- A union with `undefined` is wider. -/
theorem Normal.widens_union_undefined (hn : s.Normal) (hid : s.Known id) :
    (s.union [id, TypeId.undefined]).2.Widens id (s.union [id, TypeId.undefined]).1 := by
  have hextends := s.extends_union [id, TypeId.undefined]
  have hknown : ∀ m ∈ [id, TypeId.undefined], s.Known m := by
    simpa using ⟨hid, hn.closed.known_builtin (by decide)⟩
  refine ⟨fun w v hv => ?_, fun part hpart => ?_⟩
  · exact (hn.closed.inhabits_union hknown).mpr
      ⟨id, List.mem_cons_self, (hextends.inhabits_iff hn.closed hid).mp hv⟩
  · rw [hextends.unionMembers_eq hid]
    -- `undefined` is a part, so `never` is not left.
    have hundefined : TypeId.undefined ∈ [id, TypeId.undefined].flatMap s.unionMembers := by
      simp [unionMembers_undefined hn.initial]
    have hmem := ((hn.mem_members_combine_iff (c := .union)).mp hpart).mem_flatMap hundefined
      (by decide)
    simp only [List.flatMap_cons, List.flatMap_nil, List.append_nil, List.mem_append,
      Connective.members, unionMembers_undefined hn.initial, List.mem_singleton] at hmem
    exact hmem.symm

/-- Reading a property of a nullable object gives a value of the type, if the object is there: the
    property is that of a part of the object type. -/
structure Reading (s : Store) (object : TypeId) (name : String) (type part : TypeId)
    (property : Property) : Prop where
  mem : part ∈ s.unionMembers object
  holds : ∀ w v, Inhabits w s v object → v.isNullish = false → Inhabits w s v part
  declared : s.partProperty? name part = some property
  widens : s.Widens property.type type
  missing : property.optional = true → ∀ w, Inhabits w s .undefined type

namespace Reading

variable (h : s.Reading object name type part property)

include h

theorem known (hclosed : s.Closed) (hobject : s.Known object) :
    s.Known part ∧ s.Known property.type := by
  obtain ⟨m, -, hproperty⟩ := exists_member_of_partProperty? h.declared
  exact ⟨hclosed.known_of_mem_unionMembers hobject h.mem, hclosed.known_of_ownProperty? hproperty⟩

theorem grown (hs : s.Extends s') (hclosed : s.Closed) (hobject : s.Known object)
    (htype : s.Known type) : s'.Reading object name type part property := by
  obtain ⟨hpart, hproperty⟩ := h.known hclosed hobject
  exact {
    mem := by rw [hs.unionMembers_eq hobject]; exact h.mem
    holds := fun w v hv hnot =>
      hs.inhabits (h.holds w v ((hs.inhabits_iff hclosed hobject).mp hv) hnot)
    declared := by rw [hs.partProperty?_eq hclosed hpart]; exact h.declared
    widens := h.widens.extends hs hclosed hproperty htype
    missing := fun hoptional w => hs.inhabits (h.missing hoptional w) }

theorem wider {type' : TypeId} (hwidens : s.Widens type type') :
    s.Reading object name type' part property :=
  { h with
    widens := h.widens.trans hwidens
    missing := fun hoptional w => hwidens.covers w _ (h.missing hoptional w) }

/-- The value that is read is one of the type. -/
theorem inhabits (hv : Inhabits w s v object) (hnot : v.isNullish = false) :
    Inhabits w s (w.read v name) type := by
  rcases inhabits_read h.declared (h.holds w v hv hnot) with hread | ⟨hoptional, hundefined⟩
  · exact h.widens.covers w _ hread
  · rw [hundefined]
    exact h.missing hoptional w

/-- The value of a property that is neither optional nor nullable is not nullish. -/
theorem isNullish_eq_false (hn : s.Normal) (hv : Inhabits w s v object) (hnot : v.isNullish = false)
    (hconcrete : s.Throughout property.type s.isConcrete)
    (hexcludes : s.Throughout property.type s.excludesNullish)
    (hoptional : property.optional = false)
    (hnullable : s.isNullable property.type = false) : (w.read v name).isNullish = false := by
  rcases inhabits_read h.declared (h.holds w v hv hnot) with hread | ⟨hyes, -⟩
  · exact hn.isNullish_eq_false_of_throughout hread hconcrete hexcludes hnullable
  · cases hoptional.symm.trans hyes

/-- What holds throughout the object type holds throughout the type of the property. -/
theorem throughout_property {p : TypeId → Bool} (hobject : s.Throughout object p) :
    s.Throughout property.type p := by
  obtain ⟨m, hm, hproperty⟩ := exists_member_of_partProperty? h.declared
  have hpart := (hobject.of_mem_unionMembers h.mem).of_mem_intersectionMembers hm
  exact hpart.of_ownProperty? hproperty

/-- What holds throughout the object type and also of unions and of `undefined` holds throughout the
    type that is read. -/
theorem throughout {p : TypeId → Bool} (hn : s.Normal) (hobject : s.Throughout object p)
    (hunion : ∀ id members, s.lookup id = some (.union members) → p id = true)
    (hundefined : p TypeId.undefined = true) : s.Throughout type p := by
  refine throughout_of_unionMembers (hunion type) fun part hpart => ?_
  rcases h.widens.parts part hpart with rfl | hpart
  · refine throughout_of_forall (List.mem_singleton_self _) fun other hother => ?_
    obtain rfl := List.mem_singleton.mp hother
    refine ⟨hundefined, ?_⟩
    rw [below, hn.initial.lookup_eq_some rfl]
    exact List.forall_mem_nil _
  · exact (h.throughout_property hobject).of_mem_unionMembers hpart

end Reading

end TypeLint.Types.Store
