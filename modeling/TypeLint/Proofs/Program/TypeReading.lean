import TypeLint.Proofs.Program.TypeSpelling
import TypeLint.Text.Identifier

namespace TypeLint.Program.TypeText

open Syntax Text

variable {cs : List Char}

/-- The text stays in one piece, whatever it stands between. -/
structure Whole (cs : List Char) : Prop where
  bar : Uncut bar cs
  ampersand : Uncut ampersand cs
  opens : ∃ c rest, cs = c :: rest ∧ c ≠ '|'

theorem Whole.append (h : Whole cs) {ds : List Char} (hds : ' ' ∉ ds) : Whole (cs ++ ds) where
  bar := h.bar.append (uncut_of_not_mem hds)
  ampersand := h.ampersand.append (uncut_of_not_mem hds)
  opens := by
    obtain ⟨c, rest, rfl, hc⟩ := h.opens
    exact ⟨c, rest ++ ds, rfl, hc⟩

theorem whole_of_not_mem (hne : cs ≠ []) (hblank : ' ' ∉ cs) (hbar : '|' ∉ cs) : Whole cs where
  bar := uncut_of_not_mem hblank
  ampersand := uncut_of_not_mem hblank
  opens := by
    obtain ⟨c, rest, rfl⟩ := List.exists_cons_of_ne_nil hne
    exact ⟨c, rest, rfl, fun heq => hbar (heq ▸ List.mem_cons_self)⟩

/-- A text between quotation marks in which no separator occurs stays in one piece. -/
theorem whole_quoted (hbar : occursIn bar cs = false) (hampersand : occursIn ampersand cs = false) :
    Whole ('\x22' :: cs ++ ['\x22']) where
  bar := Uncut.cons (fun _ => rfl) (uncut_concat hbar (by decide))
  ampersand := Uncut.cons (fun _ => rfl) (uncut_concat hampersand (by decide))
  opens := ⟨'\x22', _, rfl, by decide⟩

theorem opens_intercalate (separator : List Char) {part : List Char} (h : Whole part)
    (rest : List (List Char)) :
    ∃ c more, separator.intercalate (part :: rest) = c :: more ∧ c ≠ '|' := by
  obtain ⟨c, more, rfl, hc⟩ := h.opens
  cases rest with
  | nil => exact ⟨c, more, List.intercalate_singleton, hc⟩
  | cons next rest =>
    exact ⟨c, more ++ separator ++ separator.intercalate (next :: rest),
      List.intercalate_cons_cons, hc⟩

/-- Around `|` nothing is cut of texts with ` & ` between them. -/
theorem uncut_intercalate {parts : List (List Char)} (h : ∀ part ∈ parts, Whole part) :
    Uncut bar (ampersand.intercalate parts) := by
  have hseparator {c : Char} {part : List Char} (hc : c ≠ '|') (hpart : Uncut bar (c :: part)) :
      Uncut bar (ampersand ++ c :: part) := by
    refine Uncut.cons (fun _ => rfl) (Uncut.cons (fun _ => rfl) (Uncut.cons (fun more => ?_) hpart))
    simp [bar, List.isPrefixOf, hc.symm]
  induction parts with
  | nil => exact fun _ => rfl
  | cons part rest ih =>
    obtain ⟨hpart, hrest⟩ := List.forall_mem_cons.mp h
    cases rest with
    | nil => rw [List.intercalate_singleton]; exact hpart.bar
    | cons next rest =>
      have hbehind := ih hrest
      obtain ⟨c, more, heq, hc⟩ := opens_intercalate ampersand (hrest next List.mem_cons_self) rest
      rw [List.intercalate_cons_cons, List.append_assoc]
      rw [heq] at hbehind ⊢
      exact hpart.bar.append (hseparator hc hbehind)

/-- The name is an identifier, and it is not the keyword of a type. -/
structure IsTypeName (name : String) : Prop where
  identifier : needsQuoting .esNext name = false
  noLiteral : name ∉ ["null", "true", "false"]
  noKeyword : Kind.typeKeyword? name = none

theorem IsTypeName.opens {name : String} (h : IsTypeName name) :
    ∃ c rest, name.toList = c :: rest ∧ isIdentifierStart .esNext c = true ∧
      ∀ d ∈ rest, isIdentifierPart .esNext d = true := by
  have hidentifier := h.identifier
  rw [needsQuoting] at hidentifier
  cases htext : name.toList with
  | nil =>
    rw [htext] at hidentifier
    cases hidentifier
  | cons c rest =>
    rw [htext, Bool.or_eq_false_iff, Bool.not_eq_false', Bool.not_eq_false',
      List.all_eq_true] at hidentifier
    exact ⟨c, rest, rfl, hidentifier⟩

/-- A character that neither begins an identifier nor stands inside of one is not in the name. -/
theorem IsTypeName.not_mem {name : String} (h : IsTypeName name) {c : Char}
    (hstart : isIdentifierStart .esNext c = false) (hpart : isIdentifierPart .esNext c = false) :
    c ∉ name.toList := by
  obtain ⟨first, rest, htext, hfirst, hrest⟩ := h.opens
  rw [htext, List.mem_cons, not_or]
  refine ⟨?_, fun hc => ?_⟩
  · rintro rfl
    cases hfirst.symm.trans hstart
  · cases (hrest c hc).symm.trans hpart

theorem IsTypeName.whole {name : String} (h : IsTypeName name) : Whole name.toList := by
  refine whole_of_not_mem ?_ (h.not_mem (by decide) (by decide)) (h.not_mem (by decide) (by decide))
  obtain ⟨c, rest, htext, -⟩ := h.opens
  exact htext ▸ List.cons_ne_nil _ _

/-- A text that does not end in brackets is read as one without brackets. -/
theorem ofReversed_of_not_mem (h : ']' ∉ cs) : ofReversed cs.reverse = ofAtom cs := by
  rw [ofReversed.eq_2 _ fun rest heq => ?_, List.reverse_reverse]
  exact h (List.mem_reverse.mp (heq ▸ List.mem_cons_self))

theorem isDigit_eq_false {c : Char} (h : isIdentifierStart .esNext c = true) :
    c.isDigit = false := by
  rw [← Bool.not_eq_true]
  intro hdigit
  have hbounds : 48 ≤ c.toNat ∧ c.toNat ≤ 57 := by
    simpa [Char.isDigit, UInt32.le_iff_toNat_le] using hdigit
  obtain ⟨n, hn⟩ : ∃ n, c.toNat = n := ⟨_, rfl⟩
  rw [hn] at hbounds
  obtain ⟨hlow, hhigh⟩ := hbounds
  rw [← Char.ofNat_toNat c, hn] at h
  interval_cases n <;> exact absurd h (by decide)

/-- What is neither a literal nor a keyword is read as a name. -/
theorem IsTypeName.ofReversed_eq {name : String} (h : IsTypeName name) :
    ofReversed name.toList.reverse = .name name := by
  obtain ⟨c, rest, htext, hfirst, -⟩ := h.opens
  have hquote : isQuote c = false := by
    rw [← Bool.not_eq_true, isQuote_iff]
    rintro (rfl | rfl) <;> cases hfirst
  have hliteral := h.noLiteral
  simp only [List.mem_cons, List.not_mem_nil, or_false, not_or] at hliteral
  obtain ⟨hnull, htrue, hfalse⟩ := hliteral
  rw [ofReversed_of_not_mem (h.not_mem (by decide) (by decide)), ofAtom, String.ofList_toList,
    beq_false_of_ne hnull, beq_false_of_ne htrue, beq_false_of_ne hfalse, h.noKeyword, htext,
    startsWith, startsWith, hquote, isDigit_eq_false hfirst]
  rfl

theorem quotedValue?_quoted (value : List Char) :
    quotedValue? (String.ofList ('\x22' :: value ++ ['\x22'])) = some (String.ofList value) := by
  have hlength : byteLength (String.ofList ('\x22' :: value ++ ['\x22'])) - 1 =
      byteCount ['\x22'] + byteCount value := by
    have hquote : ('\x22').utf8Size = 1 := rfl
    rw [← byteCount_toList, String.toList_ofList, byteCount_append]
    simp only [byteCount, hquote]
    omega
  have hpos : 1 ≤ byteCount ['\x22'] + byteCount value := Nat.le_add_right _ _
  rw [quotedValue?, slice?, hlength, max_eq_left hpos, String.toList_ofList]
  exact congrArg (Option.map String.ofList) (sliceChars?_append ['\x22'] value ['\x22'])

/-- A text between quotation marks is read as a string with this text as its contents. -/
theorem ofReversed_quoted (value : String) :
    ofReversed ('\x22' :: value.toList ++ ['\x22']).reverse =
      .literal .stringLiteral (String.ofList ('\x22' :: value.toList ++ ['\x22'])) (some value) := by
  have hword {word : String} (h : word.toList.head? ≠ some '\x22') :
      (String.ofList ('\x22' :: value.toList ++ ['\x22']) == word) = false := by
    refine beq_false_of_ne fun heq => h ?_
    rw [← heq, String.toList_ofList]
    rfl
  rw [ofReversed.eq_2 _ fun rest heq => ?_, List.reverse_reverse, ofAtom, hword (by decide),
    hword (by decide), hword (by decide), quotedValue?_quoted, String.ofList_toList]
  · rfl
  · rw [List.reverse_append] at heq
    cases heq

end TypeLint.Program.TypeText
