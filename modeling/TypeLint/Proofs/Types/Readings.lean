import TypeLint.Proofs.Types.Descent
import TypeLint.Proofs.Types.Terms

namespace TypeLint.Types

open Store (unionOrder)

/-- The members of a union or an intersection as they are shown. -/
def Connective.shown : Connective → List TypeId → List TypeId
  | union => unionOrder
  | intersection => id

namespace Store

/-- The types built from the keyword types by arrays, tuples, functions, unions and intersections. What
    a constructor gives is in the store. -/
inductive Composed (s : Store) : TypeId → Prop where
  | keyword (k : Keyword) : Composed s k.type
  | array {id element : TypeId} (h : Composed s element) (hmade : s.array element = (id, s)) :
    Composed s id
  | tuple {id : TypeId} {elements : List TypeId} (h : ∀ e ∈ elements, Composed s e)
      (hmade : s.tuple elements = (id, s)) : Composed s id
  | function {id returned : TypeId} (h : Composed s returned)
      (hmade : s.function returned = (id, s)) : Composed s id
  | combined {id : TypeId} {ids : List TypeId} (c : Connective) (h : ∀ m ∈ ids, Composed s m)
      (hmade : c.combine s ids = (id, s)) : Composed s id

/-- The type is built as the term says. -/
inductive Forms (s : Store) : TypeId → Term → Prop where
  | word (k : Keyword) : Forms s k.type (.word k)
  | array {id element : TypeId} {t : Term} (hdata : s.lookup id = some (.array element))
      (h : Forms s element t) : Forms s id (.array t)
  | tuple {id : TypeId} {elements : List TypeId} {term : TypeId → Term}
      (hdata : s.lookup id = some (.tuple elements)) (h : ∀ e ∈ elements, Forms s e (term e)) :
    Forms s id (.tuple (elements.map term))
  | function {id returned : TypeId} {t : Term}
      (hdata : s.lookup id = some (.object ⟨none, [], [], [returned]⟩)) (h : Forms s returned t) :
    Forms s id (.function t)
  | combined {id first : TypeId} {c : Connective} {members rest : List TypeId}
      {term : TypeId → Term} (hdata : s.lookup id = some (c.data members))
      (hne : id ≠ TypeId.boolean) (hshown : c.shown members = first :: rest)
      (h : ∀ m ∈ first :: rest, Forms s m (term m)) :
    Forms s id (.combined c (term first) (rest.map term))

variable {s : Store} {a b id m : TypeId} {members : List TypeId} {c : Connective} {t u : Term}

theorem mem_of_mem_shown (hm : m ∈ c.shown members) : m = TypeId.boolean ∨ m ∈ members := by
  cases c with
  | intersection => exact .inr hm
  | union =>
    rw [Connective.shown, mem_unionOrder_iff] at hm
    split_ifs at hm
    · exact hm.imp_right And.left
    · exact .inr hm

theorem mem_shown_or (hm : m ∈ members) : m ∈ c.shown members ∨ IsTruth m := by
  cases c with
  | intersection => exact .inl hm
  | union =>
    rw [Connective.shown, mem_unionOrder_iff]
    split_ifs
    · by_cases htruth : IsTruth m
      · exact .inr htruth
      · exact .inl (.inr ⟨hm, htruth⟩)
    · exact .inl hm

theorem shown_ne_nil (h : members ≠ []) : c.shown members ≠ [] := by
  cases c with
  | intersection => exact h
  | union => exact unionOrder_ne_nil h

section

variable (h : s.Made)

include h

/-- Of its members as they are shown the same type is made again. -/
theorem Made.combine_shown (hdata : s.lookup id = some (c.data members)) :
    c.combine s (c.shown members) = (id, s) := by
  obtain rfl : c.members s id = members := members_of_lookup hdata
  cases c with
  | union => exact h.union_unionOrder id
  | intersection => exact h.canonical.combine_members .intersection id

/-- The text of a type is made of the texts of its members as they are shown. -/
theorem Made.text_eq_intercalate (hdata : s.lookup id = some (c.data members)) :
    s.text id = c.sign.intercalate ((c.shown members).map s.text) := by
  have hid := known_of_lookup hdata
  obtain rfl : c.members s id = members := members_of_lookup hdata
  cases c with
  | union => exact h.text_eq_union hid
  | intersection => exact h.text_eq_intersection hid

/-- No shown member is made by the same connective, except that `boolean` is a union. -/
theorem Made.lookup_ne_of_mem_shown (hdata : s.lookup id = some (c.data members))
    (hm : m ∈ c.shown members) (hne : m ≠ TypeId.boolean) (parts : List TypeId) :
    s.lookup m ≠ some (c.data parts) := by
  intro hparts
  have hmem : m ∈ c.members s id := by
    rw [members_of_lookup hdata]
    exact (mem_of_mem_shown hm).resolve_left hne
  have hself : parts = [m] := (members_of_lookup hparts).symm.trans (h.normal.members_of_mem hmem)
  have hseveral := (h.canonical.reduced c m parts hparts).several
  rw [hself, List.length_singleton] at hseveral
  exact absurd hseveral (by decide)

/-- More than one member is shown, except of `boolean`. -/
theorem Made.rest_ne_nil {first : TypeId} {rest : List TypeId}
    (hdata : s.lookup id = some (c.data members)) (hne : id ≠ TypeId.boolean)
    (hshown : c.shown members = first :: rest) : rest ≠ [] := by
  rintro rfl
  have hmade := h.combine_shown hdata
  rw [hshown, h.canonical.combine_singleton c first] at hmade
  obtain rfl : first = id := (Prod.mk.inj hmade).1
  have hmem : first ∈ c.shown members := hshown ▸ List.mem_singleton_self first
  exact h.lookup_ne_of_mem_shown hdata hmem hne members hdata

end

theorem type_lt_builtinCount (k : Keyword) : k.type < TypeId.builtinCount := by
  have hall : ∀ k : Keyword, k.type < TypeId.builtinCount := by decide
  exact hall k

theorem exists_keyword (hid : id < TypeId.builtinCount) : ∃ k : Keyword, k.type = id := by
  have hall : ∀ id < TypeId.builtinCount, ∃ k : Keyword, k.type = id := by decide
  exact hall id hid

theorem Forms.of_lt (s : Store) (hid : id < TypeId.builtinCount) : ∃ t, s.Forms id t := by
  obtain ⟨k, rfl⟩ := exists_keyword hid
  exact ⟨_, .word k⟩

/-- The members of a type that has a term have terms. -/
theorem Forms.of_mem_members (hs : initial.Extends s) (h : s.Forms id t)
    (hm : m ∈ c.members s id) : ∃ u, s.Forms m u := by
  have hself {data : TypeData} (hdata : s.lookup id = some data) (hne : ∀ ms, data ≠ c.data ms) :
      ∃ u, s.Forms m u := by
    rcases members_cases c s id with hmade | ⟨-, hself⟩
    · exact absurd (Option.some.inj (hdata.symm.trans hmade)) (hne _)
    · rw [hself, List.mem_singleton] at hm
      exact ⟨t, hm ▸ h⟩
  cases h with
  | word k =>
    have hall : ∀ c : Connective, ∀ k : Keyword, ∀ m ∈ c.members initial k.type,
        m < TypeId.builtinCount := by
      rintro (_ | _) <;> decide
    rw [hs.members_eq (type_lt_builtinCount k)] at hm
    exact Forms.of_lt s (hall c k m hm)
  | array hdata _ => exact hself hdata (by cases c <;> rintro _ ⟨⟩)
  | tuple hdata _ => exact hself hdata (by cases c <;> rintro _ ⟨⟩)
  | function hdata _ => exact hself hdata (by cases c <;> rintro _ ⟨⟩)
  | @combined _ first c' members rest term hdata _ hshown hmembers =>
    by_cases hc : c = c'
    · subst hc
      rw [members_of_lookup hdata] at hm
      rcases mem_shown_or (c := c) hm with hm | rfl | rfl
      · exact ⟨term m, hmembers m (hshown ▸ hm)⟩
      · exact Forms.of_lt s (by decide)
      · exact Forms.of_lt s (by decide)
    · exact hself hdata fun ms heq => hc (Connective.data_injective heq).1.symm

/-- Every composed type has a term. -/
theorem Composed.exists_forms (h : s.Made) (hid : s.Composed id) : ∃ t, s.Forms id t := by
  have hinitial := h.normal.initial
  induction hid with
  | keyword k => exact ⟨_, .word k⟩
  | array _ hmade ih =>
    obtain ⟨t, ht⟩ := ih
    exact ⟨_, .array (lookup_of_intern_eq hmade) ht⟩
  | tuple _ hmade ih =>
    choose! term hterm using ih
    exact ⟨_, .tuple (lookup_of_intern_eq hmade) hterm⟩
  | function _ hmade ih =>
    obtain ⟨t, ht⟩ := ih
    exact ⟨_, .function (lookup_of_intern_eq hmade) ht⟩
  | @combined id ids c _ hmade ih =>
    have hmembers : ∀ m ∈ c.members s id, ∃ t, s.Forms m t := fun m hm => by
      rcases h.normal.mem_members_of_combine hmade hm with rfl | ⟨i, hi, hm⟩
      · exact Forms.of_lt s (c.isKeyword.2.2.trans (by decide))
      · obtain ⟨t, ht⟩ := ih i hi
        exact ht.of_mem_members hinitial hm
    by_cases hboolean : id = TypeId.boolean
    · exact Forms.of_lt s (hboolean ▸ by decide)
    · rcases members_cases c s id with hdata | ⟨-, hself⟩
      · obtain ⟨m, hm⟩ := h.canonical.exists_mem_members c id
        obtain ⟨first, rest, hshown⟩ :=
          List.exists_cons_of_ne_nil (shown_ne_nil (c := c) (List.ne_nil_of_mem hm))
        have hall : ∀ m ∈ first :: rest, ∃ t, s.Forms m t := fun m hm => by
          rcases mem_of_mem_shown (hshown ▸ hm) with rfl | hm
          · exact Forms.of_lt s (by decide)
          · exact hmembers m hm
        choose! term hterm using hall
        exact ⟨_, .combined hdata hboolean hshown hterm⟩
      · exact hmembers id (hself ▸ List.mem_singleton_self id)

/-- A term is put together by a connective if the type is, except that `boolean` is a keyword. -/
theorem Forms.lookup_of_connective? (h : s.Forms id t) (hc : t.connective? = some c) :
    id ≠ TypeId.boolean ∧ ∃ members, s.lookup id = some (c.data members) := by
  cases h with
  | combined hdata hne _ _ =>
    obtain rfl := Option.some.inj hc
    exact ⟨hne, _, hdata⟩
  | _ => cases hc

section

variable (hs : s.Made)

include hs

theorem Forms.proper (h : s.Forms id t) : t.Proper := by
  induction h with
  | word k => exact .word k
  | array _ _ ih => exact .array ih
  | tuple _ _ ih => exact .tuple (List.forall_mem_map.mpr ih)
  | function _ _ ih => exact .function ih
  | @combined id first c members rest term hdata hne hshown hmembers ih =>
    rw [← List.forall_mem_map (f := term) (P := Term.Proper)] at ih
    refine .combined ih (List.map_eq_nil_iff.not.mpr (hs.rest_ne_nil hdata hne hshown)) ?_
    rw [← List.map_cons, List.forall_mem_map]
    intro m hm hc
    obtain ⟨hboolean, parts, hparts⟩ := (hmembers m hm).lookup_of_connective? hc
    exact hs.lookup_ne_of_mem_shown hdata (hshown ▸ hm) hboolean parts hparts

theorem Forms.composed (h : s.Forms id t) : s.Composed id := by
  induction h with
  | word k => exact .keyword k
  | array hdata _ ih => exact .array ih (Store.intern_eq hdata)
  | tuple hdata _ ih => exact .tuple ih (Store.intern_eq hdata)
  | function hdata _ ih => exact .function ih (Store.intern_eq hdata)
  | @combined _ _ c _ _ _ hdata _ hshown _ ih =>
    exact .combined c (hshown ▸ ih) (hs.combine_shown hdata)

/-- Types with the same term are the same. -/
theorem Forms.eq (ha : s.Forms a t) (hb : s.Forms b t) : a = b := by
  induction ha generalizing b with
  | word k =>
    cases hb
    rfl
  | @array id element t hdata _ ih =>
    cases hb with
    | array hdata' hb =>
      obtain rfl := ih hb
      exact Store.unique hdata hdata'
  | @tuple id elements term hdata _ ih =>
    generalize ht : Term.tuple (elements.map term) = t at hb
    cases hb with
    | @tuple _ elements' term' hdata' hb =>
      obtain rfl : elements = elements' :=
        Term.eq_of_map_eq (f := term) (g := term')
          (fun e he e' he' heq => ih e he (heq ▸ hb e' he')) (Term.tuple.inj ht)
      exact Store.unique hdata hdata'
    | _ => cases ht
  | @function id returned t hdata _ ih =>
    cases hb with
    | function hdata' hb =>
      obtain rfl := ih hb
      exact Store.unique hdata hdata'
  | @combined id first c members rest term hdata _ hshown _ ih =>
    generalize ht : Term.combined c (term first) (rest.map term) = t at hb
    cases hb with
    | @combined id' first' c' members' rest' term' hdata' _ hshown' hb =>
      obtain ⟨rfl, hfirst, hrest⟩ := Term.combined.inj ht
      have hmembers : first :: rest = first' :: rest' :=
        Term.eq_of_map_eq (f := term) (g := term')
          (fun m hm m' hm' heq => ih m hm (heq ▸ hb m' hm'))
          (by rw [List.map_cons, List.map_cons, hfirst, hrest])
      have hmade := hs.combine_shown hdata
      rw [hshown, hmembers, ← hshown', hs.combine_shown hdata'] at hmade
      exact (Prod.mk.inj hmade).1.symm
    | _ => cases ht

/-- A type that stands in parentheses as an element of an array is a union or an intersection. -/
theorem Forms.isSome_connective? (h : s.Forms id t) :
    t.connective?.isSome = ((s.isUnion id || s.isIntersection id) && id != TypeId.boolean) := by
  cases h with
  | word k =>
    have hall : ∀ k : Keyword, ((initial.isUnion k.type || initial.isIntersection k.type) &&
        k.type != TypeId.boolean) = false := by
      decide
    have hinitial := hs.normal.initial
    have hknown := type_lt_builtinCount k
    rw [hinitial.isUnion_eq hknown, hinitial.isIntersection_eq hknown, hall]
    rfl
  | array hdata _ | tuple hdata _ | function hdata _ =>
    rw [isUnion, isIntersection, hdata]
    rfl
  | @combined _ _ c _ _ _ hdata hne _ _ =>
    rw [bne_iff_ne.mpr hne]
    cases c <;> simp only [isUnion, isIntersection] <;> rw [hdata] <;> rfl

/-- The text of a type is the text of its term. -/
theorem Forms.toList_text (h : s.Forms id t) : (s.text id).toList = t.phrase.spelled := by
  have hinitial := hs.normal.initial
  have hparts {ids : List TypeId} {term : TypeId → Term}
      (h : ∀ m ∈ ids, (s.text m).toList = (term m).phrase.spelled) :
      (ids.map s.text).map String.toList = ((ids.map term).map Term.phrase).map Phrase.spelled := by
    simp only [List.map_map]
    exact List.map_congr_left h
  induction h with
  | word k =>
    have hnamed : (k.name, k.type) ∈ TypeId.named := List.get_mem TypeId.named k
    rw [text_keyword hinitial hnamed, Term.phrase, Phrase.spelled_last, Operand.spelled, brackets,
      List.append_nil]
  | @array id element t hdata h ih =>
    have hboolean := ne_boolean_of_lookup hinitial hdata (by rintro ⟨⟩)
    rw [← hs.textOver_text (known_of_lookup hdata), textOver, if_neg hboolean, hdata]
    simp only [← h.isSome_connective? hs]
    rw [Term.phrase]
    split_ifs
    · rw [String.toList_append, String.toList_append, ih, Phrase.spelled_last, Operand.spelled]
      simp [brackets]
    · rw [String.toList_append, ih, Phrase.spelled_bracketed]
      rfl
  | @tuple id elements term hdata _ ih =>
    have hboolean := ne_boolean_of_lookup hinitial hdata (by rintro ⟨⟩)
    rw [← hs.textOver_text (known_of_lookup hdata), textOver, if_neg hboolean, hdata]
    simp only [String.toList_append, String.toList_intercalate, hparts ih]
    rw [Term.phrase, Term.phrases_eq_map, Phrase.spelled_last, Phrase.spelled_tuple]
    simp [brackets]
  | @function id returned t hdata _ ih =>
    have hboolean := ne_boolean_of_lookup hinitial hdata (by rintro ⟨⟩)
    rw [← hs.textOver_text (known_of_lookup hdata), textOver, if_neg hboolean, hdata]
    rw [Term.phrase, Phrase.spelled_arrow, ← ih]
    exact String.toList_append
  | @combined id first c members rest term hdata _ hshown _ ih =>
    rw [hs.text_eq_intercalate hdata, hshown, Term.phrase_combined, Phrase.spelled_joined,
      String.toList_intercalate, hparts ih, List.map_cons, List.map_cons, List.map_cons]

/-- Printed types told apart. The composed types are those that have terms. Two types with terms have
    the same text exactly if the texts of these terms are read alike, and if nothing in the terms lacks
    parentheses, they have the same text only if they are the same type. -/
theorem Made.text_unambiguous :
    (∀ id, s.Composed id ↔ ∃ t, s.Forms id t) ∧
      ∀ a b t u, s.Forms a t → s.Forms b u →
        (s.text a = s.text b ↔ t.phrase = u.phrase) ∧
          (t.Grouped → u.Grouped → s.text a = s.text b → a = b) := by
  refine ⟨fun id => ⟨fun hid => hid.exists_forms hs, fun ⟨t, ht⟩ => ht.composed hs⟩,
    fun a b t u ha hb => ?_⟩
  have hread : s.text a = s.text b ↔ t.phrase = u.phrase := by
    rw [← String.toList_inj, ha.toList_text hs, hb.toList_text hs, Phrase.spelled_inj]
  refine ⟨hread, fun ht hu htext => ?_⟩
  obtain rfl := ht.eq_of_phrase_eq hu (ha.proper hs) (hb.proper hs) (hread.mp htext)
  exact ha.eq hs hb

end

/-- A store with `string | boolean`, `(string | boolean)[]`, `() => (string | boolean)[]` and a tuple
    of the latter two. -/
def groupedStore : Store :=
  initial.serve [.union [TypeId.string, TypeId.boolean], .array 14, .function 15, .tuple [15, 16]]

theorem made_groupedStore : groupedStore.Made := Made.initial.serve (by decide)

/-- The term of the array in this store. -/
def groupedArray : Term := .array (.combined .union (.word ⟨6, by decide⟩) [.word ⟨13, by decide⟩])

theorem forms_groupedStore :
    groupedStore.Forms 17 (.tuple [groupedArray, .function groupedArray]) := by
  obtain ⟨hunion, harray, hfunction, htuple⟩ :
      groupedStore.lookup 14 = some (Connective.union.data [6, 11, 12]) ∧
      groupedStore.lookup 15 = some (.array 14) ∧
      groupedStore.lookup 16 = some (.object ⟨none, [], [], [15]⟩) ∧
      groupedStore.lookup 17 = some (.tuple [15, 16]) := by
    decide
  have hshown : ∀ m ∈ [TypeId.string, TypeId.boolean], groupedStore.Forms m
      (if m = TypeId.string then .word ⟨6, by decide⟩ else .word ⟨13, by decide⟩) := by
    rw [List.forall_mem_cons, List.forall_mem_singleton]
    exact ⟨.word ⟨6, by decide⟩, .word ⟨13, by decide⟩⟩
  have helement : groupedStore.Forms 15 groupedArray :=
    .array harray (.combined hunion (by decide) (by decide) hshown)
  have helements : ∀ e ∈ [15, 16],
      groupedStore.Forms e (if e = 15 then groupedArray else .function groupedArray) := by
    rw [List.forall_mem_cons, List.forall_mem_singleton]
    exact ⟨helement, .function hfunction helement⟩
  exact .tuple htuple helements

theorem text_unambiguous_grouped :
    ∃ t, groupedStore.Forms 17 t ∧ t.Grouped ∧
      groupedStore.text 17 = "[(string | boolean)[], () => (string | boolean)[]]" ∧
      ∀ b u, groupedStore.Forms b u → u.Grouped →
        groupedStore.text b = "[(string | boolean)[], () => (string | boolean)[]]" → b = 17 := by
  have htext : groupedStore.text 17 = "[(string | boolean)[], () => (string | boolean)[]]" := by
    decide
  have harray : groupedArray.Grouped := by
    refine .array (.combined ?_ ?_ ?_) rfl
    · rw [List.forall_mem_cons, List.forall_mem_singleton]
      exact ⟨.word _, .word _⟩
    · rintro ⟨⟩
    · decide
  have hgrouped : (Term.tuple [groupedArray, .function groupedArray]).Grouped := by
    refine .tuple ?_
    rw [List.forall_mem_cons, List.forall_mem_singleton]
    exact ⟨harray, .function harray⟩
  refine ⟨_, forms_groupedStore, hgrouped, htext, fun b u hb hu hbtext => ?_⟩
  obtain ⟨-, hunique⟩ := made_groupedStore.text_unambiguous
  exact (hunique b 17 u _ hb forms_groupedStore).2 hu hgrouped (hbtext.trans htext.symm)

/-- A store with `() => string`, the array of it, `string[]`, the function that returns it, and others
    whose texts lack parentheses. -/
def ambiguousStore : Store :=
  initial.serve [.function TypeId.string, .array 14, .array TypeId.string, .function 16,
    .union [14, 16], .union [TypeId.string, 16], .function 19,
    .intersection [TypeId.string, TypeId.symbol], .array TypeId.number,
    .union [TypeId.symbol, 22], .intersection [TypeId.string, 23], .union [21, 22]]

theorem text_ambiguous :
    ambiguousStore.Made ∧ (∀ id ∈ [15, 17, 18, 20, 24, 25], ambiguousStore.Composed id) ∧
      ambiguousStore.text 15 = "() => string[]" ∧ ambiguousStore.text 17 = "() => string[]" ∧
      ambiguousStore.text 18 = "() => string | string[]" ∧
      ambiguousStore.text 20 = "() => string | string[]" ∧
      ambiguousStore.text 24 = "string & symbol | number[]" ∧
      ambiguousStore.text 25 = "string & symbol | number[]" := by
  have hmade : ambiguousStore.Made := Made.initial.serve (by decide)
  have hfunction {id returned : TypeId} (h : ambiguousStore.Composed returned)
      (hdata : ambiguousStore.lookup id = some (.object ⟨none, [], [], [returned]⟩)) :
      ambiguousStore.Composed id :=
    .function h (by rw [function, object, intern_eq hdata])
  have harray {id element : TypeId} (h : ambiguousStore.Composed element)
      (hdata : ambiguousStore.lookup id = some (.array element)) : ambiguousStore.Composed id :=
    .array h (by rw [array, intern_eq hdata])
  have hcombined (c : Connective) {id m m' : TypeId} (h : ambiguousStore.Composed m)
      (h' : ambiguousStore.Composed m')
      (hdata : ambiguousStore.lookup id = some (c.data [m, m'])) :
      ambiguousStore.Composed id := by
    have hparts : ∀ part ∈ c.members ambiguousStore id, ambiguousStore.Composed part := by
      rw [members_of_lookup hdata, List.forall_mem_cons, List.forall_mem_singleton]
      exact ⟨h, h'⟩
    exact .combined c hparts (hmade.canonical.combine_members c id)
  have hstring : ambiguousStore.Composed TypeId.string := .keyword ⟨6, by decide⟩
  have hnumber : ambiguousStore.Composed TypeId.number := .keyword ⟨7, by decide⟩
  have hsymbol : ambiguousStore.Composed TypeId.symbol := .keyword ⟨9, by decide⟩
  obtain ⟨h14, h15, h16, h17, h18, h19, h20, h21, h22, h23, h24, h25⟩ :
      ambiguousStore.lookup 14 = some (.object ⟨none, [], [], [TypeId.string]⟩) ∧
      ambiguousStore.lookup 15 = some (.array 14) ∧
      ambiguousStore.lookup 16 = some (.array TypeId.string) ∧
      ambiguousStore.lookup 17 = some (.object ⟨none, [], [], [16]⟩) ∧
      ambiguousStore.lookup 18 = some (.union [14, 16]) ∧
      ambiguousStore.lookup 19 = some (.union [TypeId.string, 16]) ∧
      ambiguousStore.lookup 20 = some (.object ⟨none, [], [], [19]⟩) ∧
      ambiguousStore.lookup 21 = some (.intersection [TypeId.string, TypeId.symbol]) ∧
      ambiguousStore.lookup 22 = some (.array TypeId.number) ∧
      ambiguousStore.lookup 23 = some (.union [TypeId.symbol, 22]) ∧
      ambiguousStore.lookup 24 = some (.intersection [TypeId.string, 23]) ∧
      ambiguousStore.lookup 25 = some (.union [21, 22]) := by
    decide +kernel
  have hreturns : ambiguousStore.Composed 14 := hfunction hstring h14
  have hstrings : ambiguousStore.Composed 16 := harray hstring h16
  have heither : ambiguousStore.Composed 19 := hcombined .union hstring hstrings h19
  have hboth : ambiguousStore.Composed 21 := hcombined .intersection hstring hsymbol h21
  have hnumbers : ambiguousStore.Composed 22 := harray hnumber h22
  have hsum : ambiguousStore.Composed 23 := hcombined .union hsymbol hnumbers h23
  refine ⟨hmade, ?_, by decide +kernel⟩
  simp only [List.forall_mem_cons]
  exact ⟨harray hreturns h15, hfunction hstrings h17, hcombined .union hreturns hstrings h18,
    hfunction heither h20, hcombined .intersection hstring hsum h24,
    hcombined .union hboth hnumbers h25, List.forall_mem_nil _⟩

end Store

end TypeLint.Types
