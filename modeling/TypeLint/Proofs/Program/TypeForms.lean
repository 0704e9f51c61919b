import TypeLint.Proofs.Program.Forms
import TypeLint.Proofs.Text.Searching

namespace TypeLint.Program

open Syntax Writer

namespace TypeText

mutual

/-- Keywords and numbers are spelled as they are, and no composite type is empty. -/
def Proper : TypeText → Prop
  | keyword kind text => kind.isToken = true ∧ kind.text? = some text
  | literal kind text value =>
    kind = .stringLiteral ∨ kind = .numericLiteral ∧ value = some text ∨
      kind.isToken = true ∧ kind.text? = some text
  | name _ => True
  | array element => element.Proper
  | union parts => parts ≠ [] ∧ ProperIn parts
  | intersection parts => parts ≠ [] ∧ ProperIn parts

/-- The types of a list are proper. -/
def ProperIn : List TypeText → Prop
  | [] => True
  | t :: ts => t.Proper ∧ ProperIn ts

end

theorem properIn_of_forall {ts : List TypeText} (h : ∀ t ∈ ts, t.Proper) : ProperIn ts := by
  induction ts with
  | nil => trivial
  | cons t ts ih => exact ⟨h t (by simp), ih fun t ht => h t (by simp [ht])⟩

theorem typeKeyword?_spelling {text : String} {kind : Kind}
    (h : Kind.typeKeyword? text = some kind) : kind.isToken = true ∧ kind.text? = some text := by
  unfold Kind.typeKeyword? at h
  split at h <;> cases h <;> exact ⟨rfl, rfl⟩

theorem ofAtom_proper (cs : List Char) : (ofAtom cs).Proper := by
  unfold ofAtom
  dsimp only
  split
  · next h => exact Or.inr (Or.inr ⟨rfl, congrArg some (eq_of_beq h).symm⟩)
  split
  · next h => exact Or.inr (Or.inr ⟨rfl, congrArg some (eq_of_beq h).symm⟩)
  split
  · next h => exact Or.inr (Or.inr ⟨rfl, congrArg some (eq_of_beq h).symm⟩)
  split
  · exact Or.inl rfl
  split
  · exact Or.inr (Or.inl ⟨rfl, rfl⟩)
  split
  · next h => exact typeKeyword?_spelling h
  · trivial

/-- What holds of atoms, and of arrays and composites whose parts it holds of, holds of every type
    that a text is read as. -/
theorem ofText_induction {P : TypeText → Prop} (hatom : ∀ cs, P (ofAtom cs))
    (harray : ∀ element, P element → P (.array element))
    (hunion : ∀ parts, parts ≠ [] → (∀ part ∈ parts, P part) → P (.union parts))
    (hintersection : ∀ parts, parts ≠ [] → (∀ part ∈ parts, P part) → P (.intersection parts))
    (text : String) : P (ofText text) := by
  have hcomposite {make : List TypeText → TypeText}
      (hmake : ∀ parts, parts ≠ [] → (∀ part ∈ parts, P part) → P (make parts))
      {parts : List TypeText} (hne : parts ≠ []) (hparts : ∀ part ∈ parts, P part) :
      P (composite make parts) := by
    unfold composite
    split
    · next only => exact hparts only (List.mem_singleton_self only)
    · exact hmake _ hne hparts
  have hreversed (cs : List Char) : P (ofReversed cs) := by
    fun_induction ofReversed cs with
    | case1 rest ih => exact harray _ ih
    | case2 cs => exact hatom _
  refine hcomposite hunion ?_ (List.forall_mem_map.mpr fun part _ => ?_)
  · simp [Text.splitAround, Text.splitFrom_ne_nil]
  refine hcomposite hintersection ?_ (List.forall_mem_map.mpr fun part _ => hreversed _)
  simp [Text.splitAround, Text.splitFrom_ne_nil]

/-- What a type text is read as is proper. -/
theorem ofText_proper (text : String) : (ofText text).Proper :=
  ofText_induction ofAtom_proper (fun _ h => h) (fun _ hne h => ⟨hne, properIn_of_forall h⟩)
    (fun _ hne h => ⟨hne, properIn_of_forall h⟩) text

/-- A text that is not cut is its only part. -/
theorem eq_of_splitAround {separator cs only : List Char}
    (h : Text.splitAround separator cs = [only]) : only = cs := by
  induction cs generalizing only with
  | nil => exact (List.singleton_inj.mp h).symm
  | cons c rest ih =>
    rw [Text.splitAround, Text.splitFrom] at h
    split_ifs at h with hcut
    · exact absurd (List.cons.inj h).2 (Text.splitFrom_ne_nil separator _ rest)
    · cases hsplit : Text.splitFrom separator 0 rest with
      | nil => exact absurd hsplit (Text.splitFrom_ne_nil separator 0 rest)
      | cons part parts =>
        rw [hsplit] at h
        obtain ⟨rfl, rfl⟩ := List.cons.inj h
        rw [ih hsplit]

theorem eq_of_ofAtom {cs : List Char} {name : String} (h : ofAtom cs = .name name) :
    name = String.ofList cs := by
  unfold ofAtom at h
  dsimp only at h
  split_ifs at h
  split at h
  · cases h
  · exact (TypeText.name.inj h).symm

theorem eq_of_ofReversed {cs : List Char} {name : String} (h : ofReversed cs = .name name) :
    name = String.ofList cs.reverse := by
  unfold ofReversed at h
  split at h
  · cases h
  · exact eq_of_ofAtom h

theorem eq_singleton_of_composite {make : List TypeText → TypeText} {parts : List TypeText}
    {name : String} (hmake : ∀ ts, make ts ≠ .name name) (h : composite make parts = .name name) :
    parts = [.name name] := by
  unfold composite at h
  split at h
  · rw [h]
  · exact absurd h (hmake parts)

theorem eq_of_ofIntersection {cs : List Char} {name : String}
    (h : ofIntersection cs = .name name) : name = String.ofList cs := by
  obtain ⟨part, hpart, hname⟩ :=
    List.map_eq_singleton_iff.mp (eq_singleton_of_composite (fun _ => by rintro ⟨⟩) h)
  rw [eq_of_ofReversed hname, List.reverse_reverse, eq_of_splitAround hpart]

/-- A text that is read as a name is the name. -/
theorem eq_of_ofText {text name : String} (h : ofText text = .name name) : name = text := by
  obtain ⟨part, hpart, hname⟩ :=
    List.map_eq_singleton_iff.mp (eq_singleton_of_composite (fun _ => by rintro ⟨⟩) h)
  rw [eq_of_ofIntersection hname, eq_of_splitAround hpart, String.ofList_toList]

end TypeText

/-- The outermost node is one that a layout makes, and one of a type. -/
def IsTypeForm (g : Green) : Prop := HasShape Kind.isFixed g ∧ isTypePart g.kind = true

theorem mark_hasShape {marks : Kind → Bool} (lead : String) {kind : Kind}
    (h : marks kind = true) : HasShape marks (mark lead kind) :=
  .fixed kind h

theorem fixed_hasShape {kind : Kind} {text : String} (lead : String) (labels : List String)
    (h : kind.text? = some text) : HasShape Kind.isFixed (.token lead kind text .empty labels) := by
  have hform : TokenForm Kind.isFixed kind ((kind.text?).getD "") .empty :=
    .fixed kind (by rw [Kind.isFixed, h, Option.isSome_some])
  rw [h] at hform
  exact hform

theorem literalType_typeForm {kind : Kind} {text : String} {value : Option String}
    (h : (TypeText.literal kind text value).Proper) (l : Layout) :
    ((literalType kind text value).run l).1.Every IsTypeForm := by
  rw [run_literalType]
  refine ⟨⟨⟨.literalType _, .inl rfl⟩, rfl⟩, ⟨?_, ?_⟩, trivial⟩
  · rcases h with rfl | ⟨rfl, rfl⟩ | ⟨-, htext⟩
    · exact .enclosed _ _ _ (by decide)
    · exact .number _ _ (.inl rfl)
    · have hpayload : literalPayload kind value = .empty := by
        unfold literalPayload
        -- The kinds of literals have no fixed spelling.
        split <;> first | rfl | cases htext
      rw [hpayload]
      exact fixed_hasShape _ _ htext
  · rcases h with rfl | ⟨rfl, -⟩ | ⟨htoken, -⟩
    · rfl
    · rfl
    · simp [isTypePart, Green.kind, htoken]

mutual

/-- A proper type is written as a tree of type nodes. -/
theorem TypeText.write_typeForm (t : TypeText) (h : t.Proper) (l : Layout) :
    ((TypeText.write t).run l).1.Every IsTypeForm := by
  cases t with
  | keyword kind text =>
    exact ⟨fixed_hasShape _ _ h.2, by simp [isTypePart, Green.kind, h.1]⟩
  | literal kind text value => exact literalType_typeForm h l
  | name text =>
    exact ⟨⟨⟨.typeReference _, .inl rfl⟩, rfl⟩, ⟨.identifier _, rfl⟩, trivial⟩
  | array element =>
    simp only [TypeText.write, run_bind, run_token, run_pure]
    refine ⟨⟨⟨.arrayType _ _ _, .inl rfl⟩, rfl⟩, TypeText.write_typeForm element h _, ?_, ?_, trivial⟩
    · exact ⟨mark_hasShape _ rfl, rfl⟩
    · exact ⟨mark_hasShape _ rfl, rfl⟩
  | union parts =>
    obtain ⟨hlength, hitems⟩ := TypeText.writeParts_typeForm .barToken rfl parts h.2 h.1 l
    obtain ⟨count, hcount⟩ : ∃ count, parts.length = count + 1 :=
      Nat.exists_eq_succ_of_ne_zero (by simpa using h.1)
    simp only [TypeText.write, run_bind, run_pure]
    rw [hcount]
    exact ⟨⟨⟨.compositeType _ (.inl rfl) count _ (by omega), .inl rfl⟩, rfl⟩, hitems⟩
  | intersection parts =>
    obtain ⟨hlength, hitems⟩ := TypeText.writeParts_typeForm .ampersandToken rfl parts h.2 h.1 l
    obtain ⟨count, hcount⟩ : ∃ count, parts.length = count + 1 :=
      Nat.exists_eq_succ_of_ne_zero (by simpa using h.1)
    simp only [TypeText.write, run_bind, run_pure]
    rw [hcount]
    exact ⟨⟨⟨.compositeType _ (.inr rfl) count _ (by omega), .inl rfl⟩, rfl⟩, hitems⟩

theorem TypeText.writeParts_typeForm (separator : Kind) (hsep : separator.isFixed = true)
    (parts : List TypeText) (h : TypeText.ProperIn parts) (hne : parts ≠ []) (l : Layout) :
    ((TypeText.writeParts separator parts).run l).1.length + 1 = 2 * parts.length ∧
      Green.EveryIn IsTypeForm ((TypeText.writeParts separator parts).run l).1 := by
  match parts with
  | [] => exact absurd rfl hne
  | [part] =>
    simp only [TypeText.writeParts, run_bind, run_pure]
    exact ⟨rfl, TypeText.write_typeForm part h.1 l, trivial⟩
  | part :: next :: rest =>
    simp only [TypeText.writeParts, run_bind, run_pure, run_space, run_token]
    obtain ⟨hlength, hitems⟩ := TypeText.writeParts_typeForm separator hsep (next :: rest) h.2
      (by simp) _
    refine ⟨?_, TypeText.write_typeForm part h.1 l, ⟨mark_hasShape _ hsep, ?_⟩, hitems⟩
    · simp only [List.length_cons] at hlength ⊢
      omega
    · simp [isTypePart, Green.kind, Kind.isToken_of_isFixed hsep]

end

/-- No string literal stands for a type but in a node of its own. -/
theorem TypeText.write_quoted (t : TypeText) (l : Layout) :
    IsQuoted ((TypeText.write t).run l).1 := by
  cases t with
  | literal kind text value =>
    rw [TypeText.write, run_literalType]
    rintro _ _ _ _ ⟨⟩
  | keyword | name | array | union | intersection => rintro _ _ _ _ ⟨⟩

end TypeLint.Program
