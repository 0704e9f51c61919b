import TypeLint.Binding.Bind
import TypeLint.Proofs.Types.HashConsing

namespace TypeLint.Types.Store

open Binding

variable {s s' : Store} {id : TypeId} {data : TypeData} {members : List TypeId}

/-- A type that has been asked for keeps its number in later stores. -/
theorem Extends.intern_eq (hs : (s.intern data).2.Extends s') :
    s'.intern data = ((s.intern data).1, s') :=
  Store.intern_eq (hs.lookup_eq_some (s.lookup_intern data))

theorem Closed.intern (h : s.Closed) (hknown : ∀ m ∈ data.mentioned, s.Known m) :
    (s.intern data).2.Closed where
  initial := h.initial.trans (s.extends_intern data)
  mentioned id data' hdata m hm := by
    refine (s.extends_intern data).known ?_
    rcases lookup_of_lookup_intern hdata with hold | ⟨-, rfl, -⟩
    · exact h.mentioned id data' hold m hm
    · exact hknown m hm

/-- What a request gives is known and the store knows all that its types mention. Later stores
    answer the request in the same way and make nothing for it. -/
structure Repeats (s : Store) (request : Store → Option TypeId × Store) : Prop where
  closed : (request s).2.Closed
  grown : s.Extends (request s).2
  known : ∀ id, (request s).1 = some id → (request s).2.Known id
  again : ∀ s', (request s).2.Extends s' → request s' = ((request s).1, s')

theorem Repeats.of_eq {request : Store → Option TypeId × Store} (answer : Option TypeId)
    {s₁ : Store} (heq : request s = (answer, s₁)) (hclosed : s₁.Closed) (hgrown : s.Extends s₁)
    (hknown : ∀ id, answer = some id → s₁.Known id)
    (hagain : ∀ s', s₁.Extends s' → request s' = (answer, s')) : s.Repeats request where
  closed := by rwa [heq]
  grown := by rwa [heq]
  known := by rwa [heq]
  again := by rwa [heq]

/-- A request that later stores answer as they answer another one. -/
theorem Repeats.congr {request request' : Store → Option TypeId × Store} (h : s.Repeats request)
    (heq : ∀ s', s.Extends s' → request' s' = request s') : s.Repeats request' :=
  .of_eq _ (heq s (.refl s)) h.closed h.grown h.known fun s' hs =>
    (heq s' (h.grown.trans hs)).trans (h.again s' hs)

section

variable (h : s.Closed)

include h

/-- A question whose answer does not change when the store grows. -/
theorem repeats_read (read : Store → Option TypeId) (hknown : ∀ id, read s = some id → s.Known id)
    (hread : ∀ s', s.Extends s' → read s' = read s) : s.Repeats fun s => (read s, s) where
  closed := h
  grown := .refl s
  known := hknown
  again s' hs := by rw [hread s' hs]

theorem repeats_none : s.Repeats fun s => (none, s) :=
  repeats_read h (fun _ => none) (fun _ hid => nomatch hid) fun _ _ => rfl

theorem repeats_known (hid : s.Known id) : s.Repeats fun s => (some id, s) :=
  repeats_read h (fun _ => some id) (fun _ heq => Option.some.inj heq ▸ hid) fun _ _ => rfl

theorem repeats_builtin (id : TypeId) (hid : id < TypeId.builtinCount) : s.Repeats fun s => (some id, s) :=
  repeats_known h (h.known_builtin hid)

theorem repeats_intern (data : TypeData) (hknown : ∀ m ∈ data.mentioned, s.Known m) :
    s.Repeats fun s => found (s.intern data) where
  closed := h.intern hknown
  grown := s.extends_intern data
  known _ heq := Option.some.inj heq ▸ known_of_lookup (s.lookup_intern data)
  again s' hs := by
    rw [Extends.intern_eq hs]
    rfl

theorem repeats_compose (ofNone : TypeId) (hnone : ofNone < TypeId.builtinCount)
    (make : List TypeId → TypeData) (members : List TypeId) (hmake : (make members).mentioned = members)
    (hknown : ∀ m ∈ members, s.Known m) :
    s.Repeats fun s => found (s.compose ofNone make members) := by
  match members with
  | [] => exact repeats_builtin h ofNone hnone
  | [only] => exact repeats_known h (hknown only (List.mem_singleton_self only))
  | first :: second :: rest => exact repeats_intern h _ (by rwa [hmake])

omit h in
theorem Extends.isAbsorbed_eq (hs : s.Extends s') (hid : s.Known id) (members : List TypeId) :
    s'.isAbsorbed members id = s.isAbsorbed members id := by
  rw [isAbsorbed, isAbsorbed, hs id hid]

theorem repeats_union (members : List TypeId) (hknown : ∀ m ∈ members, s.Known m) :
    s.Repeats fun s => found (s.union members) := by
  have hparts : ∀ part ∈ members.flatMap s.unionMembers, s.Known part := fun part hpart => by
    obtain ⟨m, hm, hpart⟩ := List.mem_flatMap.mp hpart
    exact h.known_of_mem_unionMembers (hknown m hm) hpart
  -- Which members are left does not depend on how far the store has grown.
  have hflat (s' : Store) (hs : s.Extends s') :
      members.flatMap s'.unionMembers = members.flatMap s.unionMembers :=
    List.flatMap_congr fun m hm => hs.unionMembers_eq (hknown m hm)
  generalize members.flatMap s.unionMembers = flat at hparts hflat
  have hkept (s' : Store) (hs : s.Extends s') :
      ((flat.filter (· != TypeId.never)).filter fun id => !s'.isAbsorbed flat id) =
        (flat.filter (· != TypeId.never)).filter fun id => !s.isAbsorbed flat id :=
    List.filter_congr fun part hpart => congrArg not
      (hs.isAbsorbed_eq (hparts part (List.mem_of_mem_filter hpart)) flat)
  by_cases hany : flat.contains TypeId.any = true
  · refine (repeats_builtin h TypeId.any (by decide)).congr fun s' hs => ?_
    rw [Store.union, hflat s' hs, if_pos hany]
    rfl
  · by_cases hunknown : flat.contains TypeId.unknown = true
    · refine (repeats_builtin h TypeId.unknown (by decide)).congr fun s' hs => ?_
      rw [Store.union, hflat s' hs, if_neg hany, if_pos hunknown]
      rfl
    · refine (repeats_compose h TypeId.never (by decide) .union
        (sortIds ((flat.filter (· != TypeId.never)).filter fun id => !s.isAbsorbed flat id)) rfl
        fun part hpart => ?_).congr fun s' hs => ?_
      · rw [mem_sortIds] at hpart
        exact hparts part (List.mem_of_mem_filter (List.mem_of_mem_filter hpart))
      · rw [Store.union, hflat s' hs, if_neg hany, if_neg hunknown, hkept s' hs]

theorem repeats_intersection (members : List TypeId) (hknown : ∀ m ∈ members, s.Known m) :
    s.Repeats fun s => found (s.intersection members) := by
  have hparts : ∀ part ∈ members.flatMap s.intersectionMembers, s.Known part :=
    fun part hpart => by
      obtain ⟨m, hm, hpart⟩ := List.mem_flatMap.mp hpart
      exact h.known_of_mem_intersectionMembers (hknown m hm) hpart
  have hflat (s' : Store) (hs : s.Extends s') :
      members.flatMap s'.intersectionMembers = members.flatMap s.intersectionMembers :=
    List.flatMap_congr fun m hm => hs.intersectionMembers_eq (hknown m hm)
  generalize members.flatMap s.intersectionMembers = flat at hparts hflat
  by_cases hnever : flat.contains TypeId.never = true
  · refine (repeats_builtin h TypeId.never (by decide)).congr fun s' hs => ?_
    rw [Store.intersection, hflat s' hs, if_pos hnever]
    rfl
  · by_cases hany : flat.contains TypeId.any = true
    · refine (repeats_builtin h TypeId.any (by decide)).congr fun s' hs => ?_
      rw [Store.intersection, hflat s' hs, if_neg hnever, if_pos hany]
      rfl
    · refine (repeats_compose h TypeId.unknown (by decide) .intersection
        (sortIds (flat.filter (· != TypeId.unknown))) rfl fun part hpart => ?_).congr
          fun s' hs => ?_
      · rw [mem_sortIds] at hpart
        exact hparts part (List.mem_of_mem_filter hpart)
      · rw [Store.intersection, hflat s' hs, if_neg hnever, if_neg hany]

theorem repeats_removeNullish (hid : s.Known id) :
    s.Repeats fun s => found (removeNullish s id) := by
  refine (repeats_union h ((s.unionMembers id).filter
    fun part => part != TypeId.null && part != TypeId.undefined) fun part hpart => ?_).congr
      fun s' hs => ?_
  · exact h.known_of_mem_unionMembers hid (List.mem_of_mem_filter hpart)
  · rw [removeNullish, hs.unionMembers_eq hid]

theorem repeats_widenLiteral (hid : s.Known id) :
    s.Repeats fun s => found (widenLiteral s id) := by
  have hparts : ∀ part ∈ s.unionMembers id, s.Known part := fun part =>
    h.known_of_mem_unionMembers hid
  refine (repeats_union h ((s.unionMembers id).map (widenPart s))
    fun m hm => ?_).congr fun s' hs => ?_
  · obtain ⟨part, hpart, rfl⟩ := List.mem_map.mp hm
    have hbuiltin {id : TypeId} : id < TypeId.builtinCount → s.Known id := h.known_builtin
    rw [widenPart]
    split
    · exact hbuiltin (by decide)
    · exact hbuiltin (by decide)
    · exact hbuiltin (by decide)
    · exact hbuiltin (by decide)
    · exact hparts part hpart
  · rw [widenLiteral, hs.unionMembers_eq hid]
    refine congrArg (fun members => found (s'.union members)) (List.map_congr_left
      fun part hpart => ?_)
    rw [widenPart, widenPart, hs part (hparts part hpart)]

theorem repeats_propertyIn (name : String) {parts : List TypeId}
    (hparts : ∀ part ∈ parts, s.Known part) : s.Repeats fun s => s.propertyIn name parts := by
  induction parts with
  | nil => exact repeats_none h
  | cons part rest ih =>
    have hpart := hparts part List.mem_cons_self
    have hrest := ih fun other hother => hparts other (List.mem_cons_of_mem _ hother)
    cases hown : s.ownProperty? part name with
    | some p =>
      have hknown := h.known_of_ownProperty? hown
      by_cases hoptional : p.optional = true
      · refine (repeats_union h [p.type, TypeId.undefined] ?_).congr fun s' hs => ?_
        · simpa using ⟨hknown, h.known_builtin (by decide)⟩
        · rw [propertyIn, hs.ownProperty?_eq hpart, hown]
          exact if_pos hoptional
      · refine (repeats_known h hknown).congr fun s' hs => ?_
        rw [propertyIn, hs.ownProperty?_eq hpart, hown]
        exact if_neg hoptional
    | none =>
      cases helements : s.tupleElements? part with
      | none =>
        refine hrest.congr fun s' hs => ?_
        rw [propertyIn, hs.ownProperty?_eq hpart, hown, hs.tupleElements?_eq hpart, helements]
      | some elements =>
        cases hindex : Decimal.readIndex? name with
        | none =>
          refine hrest.congr fun s' hs => ?_
          rw [propertyIn, hs.ownProperty?_eq hpart, hown, hs.tupleElements?_eq hpart, helements,
            hindex]
        | some index =>
          refine (repeats_read h (fun _ => elements[index]?) (fun id hid => ?_)
            fun _ _ => rfl).congr fun s' hs => ?_
          · exact h.known_of_mem_tupleElements? helements (List.mem_of_getElem? hid)
          · rw [propertyIn, hs.ownProperty?_eq hpart, hown, hs.tupleElements?_eq hpart, helements,
              hindex]

theorem repeats_propertyType (hid : s.Known id) (name : String) :
    s.Repeats fun s => s.propertyType id name := by
  refine (repeats_propertyIn h name fun part => h.known_of_mem_intersectionMembers hid).congr
    fun s' hs => ?_
  rw [propertyType, hs.intersectionMembers_eq hid]

end

end TypeLint.Types.Store
