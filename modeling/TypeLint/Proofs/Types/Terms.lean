import TypeLint.Proofs.Types.Phrases

namespace TypeLint.Types

variable {c : Connective}

/-- How a type is built from keywords. The members of a union or intersection stand in the order in
    which they are shown. -/
inductive Term where
  | word (k : Keyword)
  | array (element : Term)
  | tuple (elements : List Term)
  | function (returned : Term)
  | combined (c : Connective) (first : Term) (rest : List Term)

namespace Term

instance : Inhabited Term := ⟨.tuple []⟩

/-- The connective that puts the members of a term together. -/
def connective? : Term → Option Connective
  | combined c _ _ => some c
  | _ => none

/-- The term is a function. -/
def isFunction : Term → Bool
  | function _ => true
  | _ => false

mutual

/-- What the text of a term is read as. Parentheses stand around the element of an array that is a
    union or an intersection, and nowhere else. -/
def phrase : Term → Phrase
  | word k => .last (.word k) 0
  | array element =>
    if element.connective?.isSome then .last (.group element.phrase) 1
    else element.phrase.bracketed
  | tuple elements => .last (.tuple (phrases elements)) 0
  | function returned => .arrow returned.phrase
  | combined c first rest => .joined c first.phrase (phrases rest)

/-- What the texts of some terms are read as. -/
def phrases : List Term → List Phrase
  | [] => []
  | first :: rest => first.phrase :: phrases rest

end

theorem phrases_eq_map (terms : List Term) : phrases terms = terms.map phrase := by
  induction terms with
  | nil => rfl
  | cons first rest ih => rw [phrases, ih, List.map_cons]

variable {t u first : Term} {rest : List Term}

theorem phrase_combined :
    (combined c first rest).phrase = .joined c first.phrase (rest.map phrase) := by
  rw [phrase, phrases_eq_map]

theorem phrase_array_of_lone {element : Term} (h : element.connective? = none) :
    (array element).phrase = element.phrase.bracketed := by
  rw [phrase, h]
  rfl

theorem phrase_array_of_combined {element : Term} (h : element.connective? ≠ none) :
    (array element).phrase = .last (.group element.phrase) 1 := by
  rw [phrase, if_pos (Option.isSome_iff_ne_none.mpr h)]

/-- The term is in normal form: unions and intersections have several members, none of which is put
    together by the same connective. -/
inductive Proper : Term → Prop where
  | word (k : Keyword) : Proper (word k)
  | array {element : Term} (h : Proper element) : Proper (array element)
  | tuple {elements : List Term} (h : ∀ e ∈ elements, Proper e) : Proper (tuple elements)
  | function {returned : Term} (h : Proper returned) : Proper (function returned)
  | combined {c : Connective} {first : Term} {rest : List Term}
      (hmembers : ∀ m ∈ first :: rest, Proper m) (hseveral : rest ≠ [])
      (hflat : ∀ m ∈ first :: rest, m.connective? ≠ some c) : Proper (combined c first rest)

/-- Nothing in the term lacks parentheses: the element of an array is no function, a member of an
    intersection is no union, and of the members of a union or an intersection only the last one may
    end in what a function returns. -/
inductive Grouped : Term → Prop where
  | word (k : Keyword) : Grouped (word k)
  | array {element : Term} (h : Grouped element) (hplain : element.isFunction = false) :
    Grouped (array element)
  | tuple {elements : List Term} (h : ∀ e ∈ elements, Grouped e) : Grouped (tuple elements)
  | function {returned : Term} (h : Grouped returned) : Grouped (function returned)
  | combined {c : Connective} {first : Term} {rest : List Term}
      (hmembers : ∀ m ∈ first :: rest, Grouped m)
      (hfactors : c = .intersection → ∀ m ∈ first :: rest, m.connective? ≠ some .union)
      (hclosed : ∀ m ∈ (first :: rest).dropLast, m.phrase.isOpen = false) :
    Grouped (combined c first rest)

/-- The text of a grouped term that is neither a function nor put together from members is one
    operand, which is no group without brackets. -/
theorem Grouped.exists_last (h : t.Grouped) (hlone : t.connective? = none)
    (hplain : t.isFunction = false) :
    ∃ o n, t.phrase = .last o n ∧ ((∃ inner, o = .group inner) → n ≠ 0) := by
  induction h with
  | word k => exact ⟨_, _, rfl, by rintro ⟨_, ⟨⟩⟩⟩
  | @array element _ helement ih =>
    rw [phrase]
    split_ifs with hgroup
    · exact ⟨_, _, rfl, fun _ => Nat.one_ne_zero⟩
    · rw [Bool.not_eq_true, Option.isSome_eq_false_iff, Option.isNone_iff_eq_none] at hgroup
      obtain ⟨o, n, hlast, -⟩ := ih hgroup helement
      rw [hlast]
      exact ⟨o, n + 1, rfl, fun _ => Nat.succ_ne_zero n⟩
  | tuple _ => exact ⟨_, _, rfl, by rintro ⟨_, ⟨⟩⟩⟩
  | function _ => cases hplain
  | combined => cases hlone

theorem Grouped.hasSign_of_lone (h : t.Grouped) (hlone : t.connective? = none) (c : Connective) :
    t.phrase.hasSign c = false := by
  cases hfunction : t.isFunction with
  | false =>
    obtain ⟨o, n, hlast, -⟩ := h.exists_last hlone hfunction
    rw [hlast, Phrase.hasSign]
  | true =>
    cases t with
    | function returned => rw [phrase, Phrase.hasSign]
    | _ => cases hfunction

/-- The members of an intersection have no signs. -/
theorem Grouped.hasSign_of_mem_intersection (hg : (Term.combined .intersection first rest).Grouped)
    (hp : (Term.combined .intersection first rest).Proper) {m : Term} (hm : m ∈ first :: rest)
    (c : Connective) : m.phrase.hasSign c = false := by
  have .combined hmembers hfactors _ := hg
  have .combined _ _ hflat := hp
  refine (hmembers m hm).hasSign_of_lone ?_ c
  match hconnective : m.connective? with
  | none => rfl
  | some .union => exact absurd hconnective (hfactors rfl m hm)
  | some .intersection => exact absurd hconnective (hflat m hm)

/-- The sign of a union stands in no intersection. -/
theorem Grouped.hasSign_intersection (hg : (Term.combined .intersection first rest).Grouped)
    (hp : (Term.combined .intersection first rest).Proper) :
    (Term.combined .intersection first rest).phrase.hasSign .union = false := by
  rw [phrase_combined]
  refine Phrase.hasSign_joined_of_ne (by decide) ?_
  rw [← List.map_cons, List.forall_mem_map]
  exact fun m hm => hg.hasSign_of_mem_intersection hp hm .union

/-- No member has the sign that stands between the members. -/
theorem Grouped.hasSign_of_mem (hg : (Term.combined c first rest).Grouped)
    (hp : (Term.combined c first rest).Proper) {m : Term} (hm : m ∈ first :: rest) :
    m.phrase.hasSign c = false := by
  cases c with
  | intersection => exact hg.hasSign_of_mem_intersection hp hm .intersection
  | union =>
    have .combined hmembers _ _ := hg
    have .combined hproper _ hflat := hp
    match m, hmembers m hm, hproper m hm, hflat m hm with
    | .word _, hgm, _, _ | .array _, hgm, _, _ | .tuple _, hgm, _, _ | .function _, hgm, _, _ =>
      exact hgm.hasSign_of_lone rfl .union
    | .combined .union _ _, _, _, hflat => exact absurd rfl hflat
    | .combined .intersection _ _, hgm, hpm, _ => exact hgm.hasSign_intersection hpm

/-- The sign that stands between the members is a sign of the text. -/
theorem Grouped.hasSign_combined (hg : (Term.combined c first rest).Grouped) (hseveral : rest ≠ []) :
    (Term.combined c first rest).phrase.hasSign c = true := by
  obtain ⟨second, others, rfl⟩ := List.exists_cons_of_ne_nil hseveral
  have .combined _ _ hclosed := hg
  rw [phrase_combined, List.map_cons, Phrase.joined]
  exact Phrase.hasSign_followed (hclosed first List.mem_cons_self)

/-- A grouped term is put together by the connective that its text shows. -/
theorem Grouped.connective?_phrase (hg : t.Grouped) (hp : t.Proper) :
    t.phrase.connective? = t.connective? := by
  rw [Phrase.connective?]
  match t with
  | .word _ | .array _ | .tuple _ | .function _ =>
    rw [hg.hasSign_of_lone rfl, hg.hasSign_of_lone rfl]
    rfl
  | .combined .union first rest =>
    have .combined _ hseveral _ := hp
    rw [hg.hasSign_combined hseveral]
    rfl
  | .combined .intersection first rest =>
    have .combined _ hseveral _ := hp
    rw [hg.hasSign_intersection hp, hg.hasSign_combined hseveral]
    rfl

theorem Grouped.connective?_eq (hg : t.Grouped) (hg' : u.Grouped) (hp : t.Proper) (hp' : u.Proper)
    (h : t.phrase = u.phrase) : t.connective? = u.connective? := by
  rw [← hg.connective?_phrase hp, ← hg'.connective?_phrase hp', h]

/-- The text of an array is one operand with brackets. -/
theorem Grouped.exists_phrase_array {element : Term} (h : (Term.array element).Grouped) :
    ∃ o n, (Term.array element).phrase = .last o (n + 1) := by
  have .array helement hplain := h
  by_cases hlone : element.connective? = none
  · obtain ⟨o, n, hlast, -⟩ := helement.exists_last hlone hplain
    rw [phrase_array_of_lone hlone, hlast]
    exact ⟨o, n, rfl⟩
  · exact ⟨_, 0, phrase_array_of_combined hlone⟩

/-- What stands in front of the last brackets of a grouped array is told from its text. -/
theorem Grouped.element_eq_of_phrase_eq {e e' : Term} (h : (Term.array e).Grouped)
    (h' : (Term.array e').Grouped) (heq : (Term.array e).phrase = (Term.array e').phrase) :
    e.phrase = e'.phrase := by
  have hmixed {e e' : Term} (h : (Term.array e).Grouped) (hlone : e.connective? = none)
      (hcombined : e'.connective? ≠ none) : (Term.array e).phrase ≠ (Term.array e').phrase := by
    have .array helement hplain := h
    obtain ⟨o, n, hlast, hgroup⟩ := helement.exists_last hlone hplain
    rw [phrase_array_of_lone hlone, phrase_array_of_combined hcombined, hlast]
    rintro ⟨⟩
    exact hgroup ⟨_, rfl⟩ rfl
  by_cases hlone : e.connective? = none <;> by_cases hlone' : e'.connective? = none
  · rw [phrase_array_of_lone hlone, phrase_array_of_lone hlone'] at heq
    exact Phrase.bracketed_inj heq
  · exact absurd heq (hmixed h hlone hlone')
  · exact absurd heq.symm (hmixed h' hlone' hlone)
  · rw [phrase_array_of_combined hlone, phrase_array_of_combined hlone'] at heq
    exact Operand.group.inj (Phrase.last.inj heq).1

theorem eq_of_map_eq {α β : Type} {f g : α → β} {as bs : List α}
    (h : ∀ a ∈ as, ∀ b ∈ bs, f a = g b → a = b) (heq : as.map f = bs.map g) : as = bs := by
  induction as generalizing bs with
  | nil => exact (List.map_eq_nil_iff.mp heq.symm).symm
  | cons a as ih =>
    cases bs with
    | nil => cases heq
    | cons b bs =>
      obtain ⟨hfirst, hrest⟩ := List.cons_eq_cons.mp heq
      rw [h a List.mem_cons_self b List.mem_cons_self hfirst, ih (fun a ha b hb =>
        h a (List.mem_cons_of_mem _ ha) b (List.mem_cons_of_mem _ hb)) hrest]

/-- Two grouped terms with the same text are the same. -/
theorem Grouped.eq_of_phrase_eq (hg : t.Grouped) (hg' : u.Grouped) (hp : t.Proper) (hp' : u.Proper)
    (h : t.phrase = u.phrase) : t = u := by
  induction hp generalizing u with
  | word k =>
    match u with
    | .word k' =>
      cases h
      rfl
    | .array e =>
      obtain ⟨o, n, harray⟩ := hg'.exists_phrase_array
      rw [harray] at h
      cases h
    | .tuple _ | .function _ => cases h
    | .combined _ _ _ => cases hg.connective?_eq hg' (.word k) hp' h
  | @array e hp ih =>
    obtain ⟨o, n, harray⟩ := hg.exists_phrase_array
    match u with
    | .array e' =>
      have helement := hg.element_eq_of_phrase_eq hg' h
      have .array hg _ := hg
      have .array hg' _ := hg'
      have .array hp' := hp'
      rw [ih hg hg' hp' helement]
    | .word _ | .tuple _ | .function _ =>
      rw [harray] at h
      cases h
    | .combined _ _ _ => cases hg.connective?_eq hg' (.array hp) hp' h
  | @tuple es hp ih =>
    match u with
    | .tuple es' =>
      rw [phrase, phrase, phrases_eq_map, phrases_eq_map] at h
      have .tuple hg := hg
      have .tuple hg' := hg'
      have .tuple hp' := hp'
      rw [eq_of_map_eq (fun e he e' he' => ih e he (hg e he) (hg' e' he') (hp' e' he'))
        (Operand.tuple.inj (Phrase.last.inj h).1)]
    | .array _ =>
      obtain ⟨o, n, harray⟩ := hg'.exists_phrase_array
      rw [harray] at h
      cases h
    | .word _ | .function _ => cases h
    | .combined _ _ _ => cases hg.connective?_eq hg' (.tuple hp) hp' h
  | @function r hp ih =>
    match u with
    | .function r' =>
      have .function hg := hg
      have .function hg' := hg'
      have .function hp' := hp'
      rw [ih hg hg' hp' (Phrase.arrow.inj h)]
    | .array _ =>
      obtain ⟨o, n, harray⟩ := hg'.exists_phrase_array
      rw [harray] at h
      cases h
    | .word _ | .tuple _ => cases h
    | .combined _ _ _ => cases hg.connective?_eq hg' (.function hp) hp' h
  | @combined c first rest hp hseveral hflat ih =>
    have hproper := Proper.combined hp hseveral hflat
    match u with
    | .combined c' first' rest' =>
      obtain rfl : c = c' := Option.some.inj (hg.connective?_eq hg' hproper hp' h)
      have hsign := fun m hm => hg.hasSign_of_mem hproper (m := m) hm
      have hsign' := fun m hm => hg'.hasSign_of_mem hp' (m := m) hm
      have .combined hg _ hclosed := hg
      have .combined hg' _ hclosed' := hg'
      have .combined hp' _ _ := hp'
      have hmembers : (first :: rest).map phrase = (first' :: rest').map phrase := by
        rw [phrase_combined, phrase_combined] at h
        obtain ⟨hfirst, hrest⟩ := Phrase.joined_inj
          (by rwa [← List.map_cons, ← List.map_dropLast, List.forall_mem_map])
          (by rwa [← List.map_cons, ← List.map_dropLast, List.forall_mem_map])
          (by rwa [← List.map_cons, List.forall_mem_map])
          (by rwa [← List.map_cons, List.forall_mem_map]) h
        rw [List.map_cons, List.map_cons, hfirst, hrest]
      obtain ⟨rfl, rfl⟩ := List.cons_eq_cons.mp (eq_of_map_eq
        (fun m hm m' hm' => ih m hm (hg m hm) (hg' m' hm') (hp' m' hm')) hmembers)
      rfl
    | .word _ | .array _ | .tuple _ | .function _ =>
      cases hg.connective?_eq hg' hproper hp' h

end Term

end TypeLint.Types
