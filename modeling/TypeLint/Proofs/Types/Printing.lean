import TypeLint.Proofs.Types.Canonical
import TypeLint.Proofs.Text.Searching
import TypeLint.Types.Printer

namespace TypeLint.Types.Store

variable {s s' : Store} {id m : TypeId} {members : List TypeId} {data : TypeData}

/-- A type mentions only types with smaller numbers. -/
def Ordered (s : Store) : Prop :=
  ∀ id data, s.lookup id = some data → ∀ m ∈ data.mentioned, m < id

theorem ordered_initial : Store.initial.Ordered := fun id data hdata m hm => by
  have hall : ∀ id < Store.initial.size, ∀ data ∈ Store.initial.lookup id,
      ∀ m ∈ data.mentioned, m < id := by
    decide
  exact hall id (known_of_lookup hdata) data hdata m hm

theorem Ordered.intern (h : s.Ordered) (hknown : ∀ m ∈ data.mentioned, s.Known m) :
    (s.intern data).2.Ordered := fun id data' hdata m hm => by
  rcases lookup_of_lookup_intern hdata with hold | ⟨rfl, rfl, -⟩
  · exact h id data' hold m hm
  · exact hknown m hm

theorem Ordered.combine (h : s.Ordered) (hs : s.Closed) (c : Connective)
    (hknown : ∀ m ∈ members, s.Known m) : (c.combine s members).2.Ordered := by
  obtain ⟨parts, -, hparts, heq⟩ := c.exists_combine_eq_compose hs.initial members
  have hmentioned : ∀ m ∈ (c.data parts).mentioned, s.Known m := fun m hm => by
    have hm : m ∈ parts := by cases c <;> exact hm
    exact hs.known_of_mem_flatMap hknown ((hparts m).mp hm).1
  rw [heq]
  match parts with
  | [] => exact h
  | [_] => exact h
  | _ :: _ :: _ => exact h.intern hmentioned

theorem Made.ordered (h : s.Made) : s.Ordered := by
  induction h with
  | initial => exact ordered_initial
  | intern _ _ hknown ih => exact ih.intern hknown
  | union hmade hknown ih => exact ih.combine hmade.normal.closed .union hknown
  | intersection hmade hknown ih => exact ih.combine hmade.normal.closed .intersection hknown

/-- The type is one of the two literals of `boolean`. -/
def IsTruth (id : TypeId) : Prop := id = TypeId.trueLiteral ∨ id = TypeId.falseLiteral

/-- The type is `null` or `undefined`. -/
def IsNull (id : TypeId) : Prop := id = TypeId.null ∨ id = TypeId.undefined

instance (id : TypeId) : Decidable (IsTruth id) := inferInstanceAs (Decidable (_ ∨ _))

instance (id : TypeId) : Decidable (IsNull id) := inferInstanceAs (Decidable (_ ∨ _))

/-- Shown are the members that are neither folded nor nullish, and `boolean` for those that are
    folded. -/
theorem mem_foldBoolean_iff {folded shown : Bool} :
    m ∈ foldBoolean folded shown members ↔
      (m ∈ members ∧ ¬(folded = true ∧ IsTruth m) ∧ ¬IsNull m) ∨
        (folded = true ∧ shown = false ∧ m = TypeId.boolean ∧ ∃ truth ∈ members, IsTruth truth) := by
  induction members generalizing shown with
  | nil => simp [foldBoolean]
  | cons first rest ih =>
    rw [foldBoolean]
    simp only [Bool.and_eq_true, Bool.or_eq_true, decide_eq_true_eq]
    split_ifs with hliteral hshown hnull
    · obtain ⟨hfolded, hfirst : IsTruth first⟩ := hliteral
      rw [ih]
      grind
    · obtain ⟨hfolded, hfirst : IsTruth first⟩ := hliteral
      rw [List.mem_cons, ih]
      grind
    · have hfirst : ¬(folded = true ∧ IsTruth first) := hliteral
      have hnull : IsNull first := hnull
      rw [ih]
      grind
    · have hfirst : ¬(folded = true ∧ IsTruth first) := hliteral
      have hnull : ¬IsNull first := hnull
      rw [List.mem_cons, ih]
      grind

/-- Shown are the members, with `boolean` in place of its two literals. -/
theorem mem_unionOrder_iff :
    m ∈ unionOrder members ↔
      if TypeId.trueLiteral ∈ members ∧ TypeId.falseLiteral ∈ members then
        m = TypeId.boolean ∨ m ∈ members ∧ ¬IsTruth m
      else m ∈ members := by
  have hnull (m : TypeId) : m ∈ [TypeId.null, TypeId.undefined].filter members.contains ↔
      m ∈ members ∧ IsNull m := by
    rw [List.mem_filter, List.contains_iff_mem, List.mem_pair, and_comm, IsNull]
  rw [unionOrder, List.mem_append, hnull, mem_foldBoolean_iff, Bool.and_eq_true,
    List.contains_iff_mem, List.contains_iff_mem]
  have hne : IsNull m → ¬IsTruth m := by
    rintro (rfl | rfl) <;> decide
  split_ifs with hfolded
  · have htruth : ∃ truth ∈ members, IsTruth truth := ⟨_, hfolded.1, .inl rfl⟩
    by_cases hm : IsNull m <;> grind
  · by_cases hm : IsNull m <;> grind

theorem unionOrder_ne_nil (h : members ≠ []) : unionOrder members ≠ [] := by
  obtain ⟨m, hm⟩ := List.exists_mem_of_ne_nil members h
  by_cases hfolded : TypeId.trueLiteral ∈ members ∧ TypeId.falseLiteral ∈ members
  · have hboolean : TypeId.boolean ∈ unionOrder members := by
      rw [mem_unionOrder_iff, if_pos hfolded]
      exact .inl rfl
    exact List.ne_nil_of_mem hboolean
  · have hshown : m ∈ unionOrder members := by rwa [mem_unionOrder_iff, if_neg hfolded]
    exact List.ne_nil_of_mem hshown

/-- What holds of the members of a union holds of what is shown of them, if it holds of `boolean`
    when this is shown. -/
theorem forall_mem_unionOrder {P : TypeId → Prop} (h : ∀ m ∈ members, P m)
    (hboolean : TypeId.trueLiteral ∈ members → P TypeId.boolean) :
    ∀ m ∈ unionOrder members, P m := fun m hm => by
  rw [mem_unionOrder_iff] at hm
  split_ifs at hm with hfolded
  · rcases hm with rfl | ⟨hm, -⟩
    · exact hboolean hfolded.1
    · exact h m hm
  · exact h m hm

/-- The types whose texts the text of a type is made of. -/
def asked (s : Store) (id : TypeId) : List TypeId :=
  if id = TypeId.boolean then []
  else
    match s.lookup id with
    | some (.union members) => unionOrder members
    | some (.intersection members) | some (.tuple members) => members
    | some (.array element) => [element]
    | some (.object shape) =>
      if shape.name.isSome then []
      else if shape.properties.isEmpty && shape.indexSignatures.isEmpty then shape.callReturns.take 1
      else shape.properties.map (·.type) ++ shape.indexSignatures.flatMap fun i => [i.key, i.value]
    | _ => []

theorem asked_boolean (s : Store) : s.asked TypeId.boolean = [] := by
  rw [asked, if_pos rfl]

/-- Asked for are types that are mentioned, and `boolean` in place of its two literals. -/
theorem mentioned_of_mem_asked (h : m ∈ s.asked id) :
    ∃ data, s.lookup id = some data ∧
      (m ∈ data.mentioned ∨ m = TypeId.boolean ∧ TypeId.trueLiteral ∈ data.mentioned) := by
  rw [asked] at h
  split_ifs at h
  · exact absurd h List.not_mem_nil
  cases hdata : s.lookup id with
  | none =>
    rw [hdata] at h
    exact absurd h List.not_mem_nil
  | some data =>
    rw [hdata] at h
    refine ⟨data, rfl, ?_⟩
    cases data with
    | union members =>
      rw [mem_unionOrder_iff] at h
      split_ifs at h with hfolded
      · rcases h with rfl | ⟨hm, -⟩
        · exact .inr ⟨rfl, hfolded.1⟩
        · exact .inl hm
      · exact .inl h
    | intersection members | tuple members | array element => exact .inl h
    | object shape =>
      dsimp only at h
      refine .inl ?_
      split_ifs at h
      · exact absurd h List.not_mem_nil
      · exact List.mem_append_right _ (List.mem_of_mem_take h)
      · exact List.mem_append_left _ h
    | _ => exact absurd h List.not_mem_nil

/-- A type asks for types with smaller numbers. Only a union with the literals of `boolean` may ask
    for `boolean`, which asks for none. -/
theorem Ordered.lt_of_mem_asked (h : s.Ordered) (hm : m ∈ s.asked id) :
    m < id ∨ m = TypeId.boolean ∧ TypeId.trueLiteral < id := by
  obtain ⟨data, hdata, hmentioned | ⟨rfl, htrue⟩⟩ := mentioned_of_mem_asked hm
  · exact .inl (h id data hdata m hmentioned)
  · exact .inr ⟨rfl, h id data hdata _ htrue⟩

theorem Closed.known_of_mem_asked (h : s.Closed) (hm : m ∈ s.asked id) : s.Known m := by
  obtain ⟨data, hdata, hmentioned | ⟨rfl, -⟩⟩ := mentioned_of_mem_asked hm
  · exact h.mentioned id data hdata m hmentioned
  · exact h.known_builtin (by decide)

theorem textOver_boolean (s : Store) (shown : TypeId → String) :
    s.textOver shown TypeId.boolean = "boolean" := by
  rw [textOver, if_pos rfl]

theorem textTo_boolean (s : Store) (depth : Nat) :
    s.textTo (depth + 1) TypeId.boolean = "boolean" :=
  s.textOver_boolean _

/-- The text of a type depends on nothing but the texts of the types that are asked for, whatever
    the store makes later on. -/
theorem Closed.textOver_congr (hclosed : s.Closed) (hs : s.Extends s') (hid : s.Known id)
    {shown shown' : TypeId → String} (h : ∀ m ∈ s.asked id, shown' m = shown m) :
    s'.textOver shown' id = s.textOver shown id := by
  obtain ⟨data, hdata⟩ := known_iff.mp hid
  rw [asked, hdata] at h
  rw [textOver, textOver, hs id hid, hdata]
  split_ifs with hboolean
  · rfl
  rw [if_neg hboolean] at h
  cases data with
  | union members => exact congrArg (" | ".intercalate ·) (List.map_congr_left h)
  | intersection members => exact congrArg (" & ".intercalate ·) (List.map_congr_left h)
  | array element =>
    have hmem : element ∈ (TypeData.array element).mentioned := List.mem_singleton_self _
    have helement := hclosed.mentioned id _ hdata element hmem
    simp only [h element (List.mem_singleton_self _), hs.isUnion_eq helement,
      hs.isIntersection_eq helement]
  | tuple elements =>
    exact congrArg (fun parts => "[" ++ ", ".intercalate parts ++ "]") (List.map_congr_left h)
  | object shape =>
    dsimp only at h ⊢
    cases hname : shape.name with
    | some name => rfl
    | none =>
      rw [hname, Option.isSome_none, if_neg Bool.false_ne_true] at h
      dsimp only
      split_ifs with hempty
      · rw [if_pos hempty] at h
        cases hcalls : shape.callReturns with
        | nil => rfl
        | cons returned rest =>
          rw [hcalls] at h
          simp only [h returned List.mem_cons_self]
      · rw [if_neg hempty, List.forall_mem_append, List.forall_mem_map] at h
        have hindex : ∀ i ∈ shape.indexSignatures, ∀ m ∈ [i.key, i.value], shown' m = shown m :=
          fun i hi m hm => h.2 m (List.mem_flatMap.mpr ⟨i, hi, hm⟩)
        refine congrArg₂ (fun properties indexes =>
            "\x7b " ++ " ".intercalate (properties ++ indexes) ++ " \x7d")
          (List.map_congr_left fun p hp => ?_) (List.map_congr_left fun i hi => ?_)
        · rw [h.1 p hp]
        · rw [hindex i hi i.key List.mem_cons_self,
            hindex i hi i.value (List.mem_cons_of_mem _ List.mem_cons_self)]
  | _ => rfl

/-- The text of a type depends neither on the number of levels, if there are more than its number,
    nor on what a store makes later on. -/
theorem Ordered.textTo_congr (h : s.Ordered) (hclosed : s.Closed) (hs : s.Extends s')
    (hid : s.Known id) {depth depth' : Nat} (hdepth : id < depth) (hdepth' : id < depth') :
    s'.textTo depth' id = s.textTo depth id := by
  induction id using Nat.strong_induction_on generalizing depth depth' with
  | _ id ih =>
    obtain ⟨depth, rfl⟩ := Nat.exists_eq_succ_of_ne_zero (Nat.ne_zero_of_lt hdepth)
    obtain ⟨depth', rfl⟩ := Nat.exists_eq_succ_of_ne_zero (Nat.ne_zero_of_lt hdepth')
    rw [Nat.lt_succ_iff] at hdepth hdepth'
    refine hclosed.textOver_congr hs hid fun m hm => ?_
    rcases h.lt_of_mem_asked hm with hlt | ⟨rfl, hlt⟩
    · exact ih m hlt (hclosed.known_of_mem_asked hm) (Nat.lt_of_lt_of_le hlt hdepth)
        (Nat.lt_of_lt_of_le hlt hdepth')
    · -- A type with a literal of `boolean` leaves a level for `boolean`, which may be no member.
      obtain ⟨k, rfl⟩ := Nat.exists_eq_succ_of_ne_zero
        (Nat.ne_zero_of_lt (Nat.lt_of_lt_of_le hlt hdepth))
      obtain ⟨k', rfl⟩ := Nat.exists_eq_succ_of_ne_zero
        (Nat.ne_zero_of_lt (Nat.lt_of_lt_of_le hlt hdepth'))
      rw [textTo_boolean, textTo_boolean]

theorem Made.text_eq_of_extends (h : s.Made) (hs : s.Extends s') (hid : s.Known id) :
    s'.text id = s.text id :=
  h.ordered.textTo_congr h.normal.closed hs hid (Nat.lt_succ_of_lt hid)
    (Nat.lt_succ_of_lt (hs.known hid))

theorem isIntersection_of_isUnion (h : s.isUnion id = true) : s.isIntersection id = false := by
  rw [isUnion] at h
  rw [isIntersection]
  split at h
  · next hdata => rw [hdata]
  · cases h

theorem unionMembers_of_not_isUnion (h : s.isUnion id = false) : s.unionMembers id = [id] := by
  rcases members_cases .union s id with hdata | ⟨-, hself⟩
  · rw [isUnion, hdata] at h
    cases h
  · exact hself

theorem intersectionMembers_of_not_isIntersection (h : s.isIntersection id = false) :
    s.intersectionMembers id = [id] := by
  rcases members_cases .intersection s id with hdata | ⟨-, hself⟩
  · rw [isIntersection, hdata] at h
    cases h
  · exact hself

theorem lookup_of_intern_eq (h : s.intern data = (id, s)) : s.lookup id = some data := by
  have hlookup := s.lookup_intern data
  rwa [h] at hlookup

theorem Canonical.combine_singleton (h : s.Canonical) (c : Connective) (id : TypeId) :
    c.combine s [id] = (id, s) :=
  h.combine_eq_of_members fun m => (h.left_singleton_iff c id m).symm

theorem unionOrder_singleton (id : TypeId) : unionOrder [id] = [id] := by
  have hfolded : ([id].contains TypeId.trueLiteral && [id].contains TypeId.falseLiteral) = false := by
    by_cases htrue : id = TypeId.trueLiteral
    · subst htrue
      rfl
    · rw [List.contains_cons, beq_false_of_ne (Ne.symm htrue)]
      rfl
  rw [unionOrder, hfolded, foldBoolean, Bool.false_and, if_neg Bool.false_ne_true, foldBoolean]
  by_cases hnull : id = TypeId.null
  · subst hnull
    rfl
  · by_cases hundefined : id = TypeId.undefined
    · subst hundefined
      rfl
    · have hnone : [TypeId.null, TypeId.undefined].filter [id].contains = [] := by
        simp [Ne.symm hnull, Ne.symm hundefined]
      simp [hnull, hundefined, hnone]

theorem lookup_boolean (hs : initial.Extends s) :
    s.lookup TypeId.boolean = some (.union [TypeId.trueLiteral, TypeId.falseLiteral]) :=
  hs.lookup_eq_some rfl

theorem ne_boolean_of_lookup (hs : initial.Extends s) (hdata : s.lookup id = some data)
    (hne : data ≠ .union [TypeId.trueLiteral, TypeId.falseLiteral]) : id ≠ TypeId.boolean := by
  rintro rfl
  exact hne (Option.some.inj (hdata.symm.trans (lookup_boolean hs)))

/-- The keyword types are shown as their keywords. -/
theorem text_keyword (hs : initial.Extends s) {name : String} (h : (name, id) ∈ TypeId.named) :
    s.text id = name := by
  have hall : ∀ entry ∈ TypeId.named, initial.Known entry.2 ∧ initial.text entry.2 = entry.1 := by
    decide
  obtain ⟨hknown, htext⟩ := hall _ h
  exact (Made.initial.text_eq_of_extends hs hknown).trans htext

/-- A string without quotation marks and backslashes stands between quotation marks as it is. -/
theorem toList_text_string (hs : initial.Extends s) {value : String}
    (hdata : s.lookup id = some (.literal (.string value))) (hquote : '\x22' ∉ value.toList)
    (hbackslash : '\\' ∉ value.toList) :
    (s.text id).toList = '\x22' :: value.toList ++ ['\x22'] := by
  rw [text, textTo, textOver, if_neg (ne_boolean_of_lookup hs hdata (by rintro ⟨⟩)), hdata]
  dsimp only [LiteralValue.text]
  rw [Text.replaceAll_of_not_mem hbackslash, Text.replaceAll_of_not_mem hquote,
    String.toList_ofList]

theorem text_named (hs : initial.Extends s) {shape : ObjectShape} {name : String}
    (hdata : s.lookup id = some (.object shape)) (hname : shape.name = some name) :
    s.text id = name := by
  rw [text, textTo, textOver, if_neg (ne_boolean_of_lookup hs hdata (by rintro ⟨⟩)), hdata]
  simp only [hname]

section

variable (h : s.Made)

include h

theorem Made.textTo_eq (hid : s.Known id) : s.textTo s.size id = s.text id :=
  h.ordered.textTo_congr h.normal.closed (.refl s) hid (Nat.lt_succ_of_lt hid) hid

/-- The text of a type is made of the texts of its union members as they are shown. -/
theorem Made.text_eq_union (hid : s.Known id) :
    s.text id = " | ".intercalate ((unionOrder (s.unionMembers id)).map s.text) := by
  have hclosed := h.normal.closed
  by_cases hboolean : id = TypeId.boolean
  · subst hboolean
    rw [hclosed.initial.unionMembers_eq (by decide)]
    exact String.intercalate_singleton.symm
  · rcases members_cases .union s id with hdata | ⟨-, hself⟩
    · rw [text, textTo, textOver, if_neg hboolean, hdata]
      refine congrArg (" | ".intercalate ·) (List.map_congr_left (forall_mem_unionOrder
        (fun m hm => h.textTo_eq ?_) fun _ => h.textTo_eq (hclosed.known_builtin (by decide))))
      exact hclosed.known_of_mem_unionMembers hid hm
    · rw [show s.unionMembers id = [id] from hself, unionOrder_singleton]
      exact String.intercalate_singleton.symm

/-- The text of a type is made of the texts of its intersection members. -/
theorem Made.text_eq_intersection (hid : s.Known id) :
    s.text id = " & ".intercalate ((s.intersectionMembers id).map s.text) := by
  rcases members_cases .intersection s id with hdata | ⟨-, hself⟩
  · have hboolean := ne_boolean_of_lookup h.normal.initial hdata (by rintro ⟨⟩)
    rw [text, textTo, textOver, if_neg hboolean, hdata]
    exact congrArg (" & ".intercalate ·) (List.map_congr_left fun m hm =>
      h.textTo_eq (h.normal.closed.known_of_mem_intersectionMembers hid hm))
  · rw [show s.intersectionMembers id = [id] from hself]
    exact String.intercalate_singleton.symm

/-- Brackets stand behind the text of an element that is not grouped. -/
theorem Made.text_array {element : TypeId} (hdata : s.lookup id = some (.array element))
    (hplain : element = TypeId.boolean ∨ s.isUnion element = false ∧ s.isIntersection element = false) :
    s.text id = s.text element ++ "[]" := by
  have hknown := h.normal.closed.mentioned id _ hdata element (List.mem_singleton_self _)
  have hboolean := ne_boolean_of_lookup h.normal.initial hdata (by rintro ⟨⟩)
  have hungrouped :
      ((s.isUnion element || s.isIntersection element) && element != TypeId.boolean) = false := by
    rcases hplain with rfl | ⟨hunion, hintersection⟩
    · exact Bool.and_false _
    · rw [hunion, hintersection]
      rfl
  rw [text, textTo, textOver, if_neg hboolean, hdata]
  simp only [hungrouped, Bool.false_eq_true, if_false, h.textTo_eq hknown]

/-- Of its members as they are shown the same union is made again. -/
theorem Made.union_unionOrder (id : TypeId) :
    s.union (unionOrder (s.unionMembers id)) = (id, s) := by
  have hcanonical := h.canonical
  have hself (m : TypeId) (hm : m ∈ s.unionMembers id) : s.unionMembers m = [m] :=
    hcanonical.members_of_mem (c := .union) hm
  have hboolean : s.unionMembers TypeId.boolean = [TypeId.trueLiteral, TypeId.falseLiteral] :=
    hcanonical.initial.unionMembers_eq (by decide)
  have hflat (m : TypeId) : m ∈ (unionOrder (s.unionMembers id)).flatMap s.unionMembers ↔
      m ∈ (s.unionMembers id).flatMap s.unionMembers := by
    simp only [List.mem_flatMap, mem_unionOrder_iff]
    split_ifs with hfolded
    · constructor
      · rintro ⟨part, rfl | ⟨hpart, -⟩, hm⟩
        · rw [hboolean] at hm
          rcases List.mem_pair.mp hm with rfl | rfl
          · exact ⟨_, hfolded.1, (hself _ hfolded.1).symm ▸ List.mem_singleton_self _⟩
          · exact ⟨_, hfolded.2, (hself _ hfolded.2).symm ▸ List.mem_singleton_self _⟩
        · exact ⟨part, hpart, hm⟩
      · rintro ⟨part, hpart, hm⟩
        by_cases htruth : IsTruth part
        · refine ⟨TypeId.boolean, .inl rfl, ?_⟩
          rw [hself part hpart] at hm
          rw [hboolean, List.mem_singleton.mp hm]
          exact List.mem_pair.mpr htruth
        · exact ⟨part, .inr ⟨hpart, htruth⟩, hm⟩
    · exact Iff.rfl
  refine hcanonical.combine_eq_of_members (c := .union) fun m => ?_
  rw [← hcanonical.left_members_iff .union id m]
  simp only [Connective.Left, Topmost, List.mem_cons]
  exact (and_congr (or_congr_right (hflat m))
    (forall_congr' fun b => imp_congr_left (or_congr_right (hflat b)))).symm

end

end TypeLint.Types.Store
