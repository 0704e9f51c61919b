import Mathlib.Data.List.Infix
import Mathlib.Data.List.Induction
import TypeLint.Proofs.Text.Searching

namespace TypeLint.Text

/-- The message of a template: the placeholders of arguments are replaced by them, all at once, and
    everything else is copied. -/
inductive Filled (args : List String) : List Char → List Char → Prop where
  | nil : Filled args [] []
  | argument {i : Nat} (hi : i < args.length) {rest message : List Char}
      (hrest : Filled args rest message) :
      Filled args (placeholder i ++ rest) (args[i].toList ++ message)
  | char {c : Char} {rest message : List Char}
      (hfree : ∀ i < args.length, ¬placeholder i <+: c :: rest)
      (hrest : Filled args rest message) : Filled args (c :: rest) (c :: message)

/-- The template is filled correctly with the arguments. -/
def Fills (template : String) (args : List String) : Prop :=
  Filled args template.toList (fill template args).toList

/-- How often a nonempty pattern occurs in a text. -/
def occurrences (pattern text : List Char) : Nat := text.tails.countP pattern.isPrefixOf

/-- Where the arguments before one have been filled in, its placeholder stands as often as in the
    template. -/
def Undisturbed (template : List Char) (args : List String) : Prop :=
  ∀ k < args.length, ∀ text, Filled (args.take k) template text →
    occurrences (placeholder k) text = occurrences (placeholder k) template

/-- A text is known up to the first of its marks. -/
theorem append_mark_inj {mark : Char} {front front' rest rest' : List Char} (hfront : mark ∉ front)
    (hfront' : mark ∉ front') (h : front ++ mark :: rest = front' ++ mark :: rest') :
    front = front' ∧ rest = rest' := by
  induction front generalizing front' with
  | nil =>
    cases front' with
    | nil => exact ⟨rfl, (List.cons.inj h).2⟩
    | cons c front' => exact absurd (List.mem_cons.mpr (.inl (List.cons.inj h).1)) hfront'
  | cons c front ih =>
    cases front' with
    | nil => exact absurd (List.mem_cons.mpr (.inl (List.cons.inj h).1.symm)) hfront
    | cons c' front' =>
      obtain ⟨rfl, htail⟩ := List.cons.inj h
      obtain ⟨rfl, rfl⟩ := ih (mt (List.mem_cons_of_mem _) hfront)
        (mt (List.mem_cons_of_mem _) hfront') htail
      exact ⟨rfl, rfl⟩

theorem eq_of_toList_repr_eq {i j : Nat} (h : i.repr.toList = j.repr.toList) : i = j := by
  rw [Nat.toList_repr, Nat.toList_repr] at h
  calc
    i = Nat.ofDigitChars 10 (Nat.toDigits 10 i) 0 := Nat.ofDigitChars_ten_toDigits.symm
    _ = Nat.ofDigitChars 10 (Nat.toDigits 10 j) 0 := by rw [h]
    _ = j := Nat.ofDigitChars_ten_toDigits

theorem isDigit_of_mem_repr {i : Nat} {c : Char} (h : c ∈ i.repr.toList) : c.isDigit = true := by
  rw [Nat.toList_repr] at h
  exact Nat.isDigit_of_mem_toDigits (by decide) (by decide) h

/-- A placeholder without its opening brace. -/
def placeholderTail (i : Nat) : List Char := i.repr.toList ++ ['\x7d']

theorem placeholder_eq (i : Nat) : placeholder i = '\x7b' :: placeholderTail i := rfl

theorem placeholder_ne_nil (i : Nat) : placeholder i ≠ [] := List.cons_ne_nil _ _

theorem openBrace_not_mem_placeholderTail (i : Nat) : '\x7b' ∉ placeholderTail i := by
  intro h
  rcases List.mem_append.mp h with h | h
  · exact absurd (isDigit_of_mem_repr h) (by decide)
  · exact absurd h (by decide)

/-- A placeholder ends where it is closed. -/
theorem placeholder_append_inj {i j : Nat} {rest rest' : List Char}
    (h : placeholder i ++ rest = placeholder j ++ rest') : i = j ∧ rest = rest' := by
  have hclose (i : Nat) : '\x7d' ∉ i.repr.toList := fun hmem =>
    absurd (isDigit_of_mem_repr hmem) (by decide)
  have htails : placeholderTail i ++ rest = placeholderTail j ++ rest' := (List.cons.inj h).2
  rw [placeholderTail, placeholderTail, List.append_assoc, List.append_assoc] at htails
  obtain ⟨hdigits, rfl⟩ := append_mark_inj (hclose i) (hclose j) htails
  exact ⟨eq_of_toList_repr_eq hdigits, rfl⟩

theorem placeholder_prefix_append_iff {i j : Nat} {rest : List Char} :
    placeholder i <+: placeholder j ++ rest ↔ i = j := by
  refine ⟨fun ⟨behind, h⟩ => (placeholder_append_inj h).1, ?_⟩
  rintro rfl
  exact List.prefix_append _ _

theorem not_placeholder_prefix {c : Char} (hc : c ≠ '\x7b') (i : Nat) (rest : List Char) :
    ¬placeholder i <+: c :: rest := fun h => hc (List.cons_prefix_cons.mp h).1.symm

section Occurrences

variable {pattern replacement front rest : List Char}

theorem occurrences_cons (pattern : List Char) (c : Char) (rest : List Char) :
    occurrences pattern (c :: rest) =
      occurrences pattern rest + if pattern.isPrefixOf (c :: rest) then 1 else 0 := by
  rw [occurrences, List.tails_cons, List.countP_cons, occurrences]

theorem occurrences_pos_iff : 0 < occurrences pattern rest ↔ pattern <:+: rest := by
  rw [occurrences, List.countP_pos_iff, List.infix_iff_prefix_suffix]
  simp only [List.mem_tails, List.isPrefixOf_iff_prefix, and_comm]

/-- A pattern occurs in a text wherever it occurs behind a part of it. -/
theorem occurrences_le_append (pattern front rest : List Char) :
    occurrences pattern rest ≤ occurrences pattern (front ++ rest) := by
  induction front with
  | nil => exact Nat.le_refl _
  | cons c front ih =>
    rw [List.cons_append, occurrences_cons]
    exact Nat.le_add_right_of_le ih

/-- No occurrence begins in a part without the first character of the pattern. -/
theorem occurrences_append_of_not_mem {mark : Char} (h : mark ∉ front) :
    occurrences (mark :: pattern) (front ++ rest) = occurrences (mark :: pattern) rest := by
  induction front with
  | nil => rfl
  | cons c front ih =>
    obtain ⟨hc, hfront⟩ := not_or.mp (List.mem_cons.not.mp h)
    rw [List.cons_append, occurrences_cons, ih hfront, List.isPrefixOf_cons_cons,
      beq_false_of_ne hc, Bool.false_and, if_neg Bool.false_ne_true, Nat.add_zero]

/-- A part in which no occurrence begins is copied. -/
theorem replaceAll_append_of_occurrences_eq
    (h : occurrences pattern (front ++ rest) = occurrences pattern rest) :
    replaceAll pattern replacement (front ++ rest) =
      front ++ replaceAll pattern replacement rest := by
  induction front with
  | nil => rfl
  | cons c front ih =>
    have hle := occurrences_le_append pattern front rest
    rw [List.cons_append, occurrences_cons] at h
    have hhere : ¬pattern.isPrefixOf (c :: (front ++ rest)) = true := fun hfound => by
      rw [if_pos hfound] at h
      omega
    rw [if_neg hhere] at h
    rw [List.cons_append, replaceAll, replaceFrom, if_neg hhere]
    exact congrArg (c :: ·) (ih h)

theorem replaceFrom_eq_drop (pattern replacement : List Char) (skip : Nat) (text : List Char) :
    replaceFrom pattern replacement skip text =
      replaceFrom pattern replacement 0 (text.drop skip) := by
  induction skip generalizing text with
  | zero => rfl
  | succ skip ih =>
    cases text with
    | nil => rfl
    | cons c rest => exact ih rest

/-- An occurrence is replaced as a whole. -/
theorem replaceAll_self_append (hne : pattern ≠ []) :
    replaceAll pattern replacement (pattern ++ rest) =
      replacement ++ replaceAll pattern replacement rest := by
  obtain ⟨c, others, rfl⟩ := List.exists_cons_of_ne_nil hne
  have hfound : (c :: others).isPrefixOf (c :: (others ++ rest)) = true :=
    List.isPrefixOf_iff_prefix.mpr ⟨rest, rfl⟩
  rw [List.cons_append, replaceAll, replaceFrom, if_pos hfound, replaceFrom_eq_drop,
    List.length_cons, Nat.add_sub_cancel, List.drop_left]
  rfl

theorem drop_of_append_eq_cons {c : Char} {behind : List Char} (hne : pattern ≠ [])
    (h : pattern ++ behind = c :: rest) : rest.drop (pattern.length - 1) = behind := by
  obtain ⟨d, others, rfl⟩ := List.exists_cons_of_ne_nil hne
  obtain ⟨rfl, rfl⟩ := List.cons.inj h
  exact List.drop_left

/-- The pattern itself in the place of the pattern changes nothing. -/
theorem replaceFrom_self (hne : pattern ≠ []) (skip : Nat) (text : List Char) :
    replaceFrom pattern pattern skip text = text.drop skip := by
  fun_induction replaceFrom pattern pattern skip text with
  | case1 => rw [List.drop_nil]
  | case2 skip c rest ih => rwa [List.drop_succ_cons]
  | case3 c rest hfound ih =>
    obtain ⟨behind, hbehind⟩ := List.isPrefixOf_iff_prefix.mp hfound
    rw [ih, drop_of_append_eq_cons hne hbehind, hbehind, List.drop_zero]
  | case4 c rest hfree ih => rw [ih, List.drop_zero, List.drop_zero]

end Occurrences

theorem occurrences_placeholder_append (i j : Nat) (rest : List Char) :
    occurrences (placeholder i) (placeholder j ++ rest) =
      occurrences (placeholder i) rest + if i = j then 1 else 0 := by
  have htail : occurrences (placeholder i) (placeholderTail j ++ rest) =
      occurrences (placeholder i) rest :=
    occurrences_append_of_not_mem (openBrace_not_mem_placeholderTail j)
  rw [placeholder_eq j, List.cons_append, occurrences_cons, htail]
  refine congrArg (_ + ·) (if_congr ?_ rfl rfl)
  exact List.isPrefixOf_iff_prefix.trans placeholder_prefix_append_iff

/-- How long a text is after each occurrence of a placeholder has been replaced. -/
theorem length_replaceFrom_placeholder (i : Nat) (value : List Char) (skip : Nat)
    (text : List Char) :
    (replaceFrom (placeholder i) value skip text).length +
        occurrences (placeholder i) (text.drop skip) * (placeholder i).length =
      (text.drop skip).length + occurrences (placeholder i) (text.drop skip) * value.length := by
  fun_induction replaceFrom (placeholder i) value skip text with
  | case1 =>
    have hnone : occurrences (placeholder i) [] = 0 := rfl
    rw [List.drop_nil, hnone, Nat.zero_mul, Nat.zero_mul]
  | case2 skip c rest ih => rwa [List.drop_succ_cons]
  | case3 c rest hfound ih =>
    obtain ⟨behind, hbehind⟩ := List.isPrefixOf_iff_prefix.mp hfound
    rw [drop_of_append_eq_cons (placeholder_ne_nil i) hbehind] at ih
    rw [List.drop_zero, ← hbehind, occurrences_placeholder_append, if_pos rfl, List.length_append,
      List.length_append, Nat.add_mul, Nat.add_mul]
    omega
  | case4 c rest hfree ih =>
    have hhere : occurrences (placeholder i) (c :: rest) = occurrences (placeholder i) rest := by
      rw [occurrences_cons, if_neg hfree, Nat.add_zero]
    rw [List.drop_zero] at ih
    rw [List.drop_zero, hhere, List.length_cons, List.length_cons]
    omega

namespace Filled

variable {args : List String} {template message message' rest : List Char}

theorem eq_nil (h : Filled args [] message) : message = [] := by
  generalize htext : ([] : List Char) = text at h
  cases h with
  | nil => rfl
  | argument => cases htext
  | char => cases htext

theorem exists_of_placeholder {i : Nat} (h : Filled args (placeholder i ++ rest) message)
    (hi : i < args.length) :
    ∃ behind, Filled args rest behind ∧ message = args[i].toList ++ behind := by
  generalize htext : placeholder i ++ rest = text at h
  cases h with
  | nil => cases htext
  | argument hj hrest =>
    obtain ⟨rfl, rfl⟩ := placeholder_append_inj htext
    exact ⟨_, hrest, rfl⟩
  | char hfree => exact absurd ⟨_, htext⟩ (hfree i hi)

theorem exists_of_char {c : Char} (h : Filled args (c :: rest) message)
    (hfree : ∀ i < args.length, ¬placeholder i <+: c :: rest) :
    ∃ behind, Filled args rest behind ∧ message = c :: behind := by
  generalize htext : c :: rest = text at h
  cases h with
  | nil => cases htext
  | argument hi => exact absurd ⟨_, htext.symm⟩ (hfree _ hi)
  | char _ hrest =>
    obtain ⟨rfl, rfl⟩ := List.cons.inj htext
    exact ⟨_, hrest, rfl⟩

/-- A template has only one message. -/
theorem unique (h : Filled args template message) (h' : Filled args template message') :
    message = message' := by
  induction h generalizing message' with
  | nil => exact h'.eq_nil.symm
  | argument hi hrest ih =>
    obtain ⟨behind, hbehind, rfl⟩ := h'.exists_of_placeholder hi
    rw [ih hbehind]
  | char hfree hrest ih =>
    obtain ⟨behind, hbehind, rfl⟩ := h'.exists_of_char hfree
    rw [ih hbehind]

/-- What has no opening brace is copied. -/
theorem append_of_not_mem {front : List Char} (hfront : '\x7b' ∉ front)
    (h : Filled args rest message) : Filled args (front ++ rest) (front ++ message) := by
  induction front with
  | nil => exact h
  | cons c front ih =>
    obtain ⟨hc, hfront⟩ := not_or.mp (List.mem_cons.not.mp hfront)
    exact .char (fun i _ => not_placeholder_prefix (Ne.symm hc) i _) (ih hfront)

/-- A placeholder without an argument is copied. -/
theorem append_of_length_le {i : Nat} (hi : args.length ≤ i) (h : Filled args rest message) :
    Filled args (placeholder i ++ rest) (placeholder i ++ message) := by
  refine .char (fun j hj hprefix => ?_) (h.append_of_not_mem (openBrace_not_mem_placeholderTail i))
  have hij : j = i := placeholder_prefix_append_iff.mp hprefix
  omega

/-- Without placeholders of arguments, the message is the template. -/
theorem eq_template (h : Filled args template message)
    (hfree : ∀ i < args.length, ¬placeholder i <:+: template) : message = template := by
  induction h with
  | nil => rfl
  | argument hi => exact absurd (List.prefix_append _ _).isInfix (hfree _ hi)
  | char _ _ ih =>
    rw [ih fun i hi hoccurs => hfree i hi (hoccurs.trans (List.suffix_cons _ _).isInfix)]

end Filled

/-- Without arguments, the message is the template. -/
theorem filled_self (template : List Char) : Filled [] template template := by
  induction template with
  | nil => exact .nil
  | cons c rest ih => exact .char (fun i hi => absurd hi (Nat.not_lt_zero i)) ih

/-- A piece of a template. -/
inductive Piece where
  | char (c : Char)
  | placeholder (i : Nat)
  deriving DecidableEq

/-- What stands in the message for a piece of the template. -/
def Piece.text (args : List String) : Piece → List Char
  | char c => [c]
  | placeholder i => (args[i]?.map String.toList).getD (Text.placeholder i)

/-- The message of a template in pieces. -/
def spell (args : List String) (pieces : List Piece) : List Char :=
  pieces.flatMap (Piece.text args)

theorem spell_cons (args : List String) (piece : Piece) (pieces : List Piece) :
    spell args (piece :: pieces) = piece.text args ++ spell args pieces := List.flatMap_cons

section Pieces

variable {args : List String} {pieces : List Piece} {template : List Char} {i n : Nat}

theorem Piece.text_of_lt (hi : i < args.length) : (placeholder i).text args = args[i].toList := by
  rw [text, List.getElem?_eq_getElem hi]
  rfl

theorem Piece.text_of_length_le (hi : args.length ≤ i) :
    (placeholder i).text args = Text.placeholder i := by
  rw [text, List.getElem?_eq_none hi]
  rfl

/-- A template has pieces that give its messages for every number of arguments up to a bound. -/
theorem exists_pieces (n : Nat) (template : List Char) :
    ∃ pieces : List Piece,
      (∀ args : List String, args.length ≤ n → Filled args template (spell args pieces)) ∧
      ∀ i < n, occurrences (placeholder i) template = pieces.count (.placeholder i) := by
  induction hlength : template.length using Nat.strong_induction_on generalizing template with
  | h length ih =>
    subst hlength
    cases template with
    | nil => exact ⟨[], fun args _ => .nil, fun i _ => rfl⟩
    | cons c rest =>
      by_cases hfound : ∃ i < n, placeholder i <+: c :: rest
      · obtain ⟨i, hi, behind, hbehind⟩ := hfound
        have hshorter : behind.length < (c :: rest).length := by
          rw [← hbehind, List.length_append, placeholder_eq, List.length_cons]
          omega
        obtain ⟨pieces, hfilled, hcount⟩ := ih _ hshorter behind rfl
        rw [← hbehind]
        refine ⟨.placeholder i :: pieces, fun args hargs => ?_, fun j hj => ?_⟩
        · rw [spell_cons]
          rcases Nat.lt_or_ge i args.length with hlt | hge
          · rw [Piece.text_of_lt hlt]
            exact .argument hlt (hfilled args hargs)
          · rw [Piece.text_of_length_le hge]
            exact (hfilled args hargs).append_of_length_le hge
        · rw [occurrences_placeholder_append, hcount j hj, List.count_cons]
          refine congrArg (_ + ·) (if_congr ?_ rfl rfl)
          rw [beq_iff_eq, Piece.placeholder.injEq, eq_comm]
      · have hfree (i : Nat) (hi : i < n) : ¬placeholder i <+: c :: rest := fun hprefix =>
          hfound ⟨i, hi, hprefix⟩
        obtain ⟨pieces, hfilled, hcount⟩ := ih _ (Nat.lt_succ_self _) rest rfl
        refine ⟨.char c :: pieces, fun args hargs => ?_, fun i hi => ?_⟩
        · exact .char (fun i hi => hfree i (hi.trans_le hargs)) (hfilled args hargs)
        · rw [occurrences_cons, if_neg (List.isPrefixOf_iff_prefix.not.mpr (hfree i hi)),
            hcount i hi, List.count_cons, if_neg (by simp)]

/-- The placeholders that the pieces bring occur in what is spelled. -/
theorem countP_le_occurrences_spell (args : List String) (i : Nat) (pieces : List Piece) :
    pieces.countP (fun piece => piece.text args = placeholder i) ≤
      occurrences (placeholder i) (spell args pieces) := by
  induction pieces with
  | nil => exact Nat.zero_le _
  | cons piece pieces ih =>
    rw [spell_cons, List.countP_cons]
    by_cases htext : piece.text args = placeholder i
    · rw [htext, occurrences_placeholder_append, if_pos rfl, if_pos (decide_eq_true rfl)]
      omega
    · rw [if_neg (by simpa using htext), Nat.add_zero]
      exact ih.trans (occurrences_le_append _ _ _)

theorem count_le_countP_text (hi : args.length ≤ i) (pieces : List Piece) :
    pieces.count (.placeholder i) ≤
      pieces.countP fun piece => piece.text args = placeholder i := by
  refine List.countP_mono_left fun piece _ hpiece => ?_
  rw [beq_iff_eq.mp hpiece]
  exact decide_eq_true (Piece.text_of_length_le hi)

theorem count_le_occurrences_spell (hi : args.length ≤ i) (pieces : List Piece) :
    pieces.count (.placeholder i) ≤ occurrences (placeholder i) (spell args pieces) :=
  (count_le_countP_text hi pieces).trans (countP_le_occurrences_spell args i pieces)

/-- An argument that spells a placeholder brings one more of it. -/
theorem count_lt_occurrences_spell {j : Nat} (hi : args.length ≤ i) (hne : j ≠ i)
    (hj : (Piece.placeholder j).text args = placeholder i) (hmem : .placeholder j ∈ pieces) :
    pieces.count (.placeholder i) < occurrences (placeholder i) (spell args pieces) := by
  refine Nat.lt_of_lt_of_le ?_ (countP_le_occurrences_spell args i pieces)
  obtain ⟨front, behind, rfl⟩ := List.append_of_mem hmem
  have hfront := count_le_countP_text hi front
  have hbehind := count_le_countP_text hi behind
  rw [List.count_append, List.countP_append, List.countP_cons, if_pos (decide_eq_true hj),
    List.count_cons_of_ne (fun heq => hne (Piece.placeholder.inj heq))]
  omega

/-- Of the pieces, only the placeholder of the next argument changes with that argument. -/
theorem Piece.text_concat {piece : Piece} (hpiece : piece ≠ .placeholder args.length)
    (value : String) : piece.text (args ++ [value]) = piece.text args := by
  cases piece with
  | char c => rfl
  | placeholder i =>
    have hi : i ≠ args.length := fun heq => hpiece (congrArg Piece.placeholder heq)
    rcases Nat.lt_or_gt_of_ne hi with hlt | hgt
    · rw [text, text, List.getElem?_append_left hlt]
    · rw [text_of_length_le hgt.le, text_of_length_le]
      rw [List.length_append, List.length_singleton]
      exact hgt

theorem Piece.text_concat_self (args : List String) (value : String) :
    (placeholder args.length).text (args ++ [value]) = value.toList := by
  rw [text, List.getElem?_concat_length]
  rfl

/-- If the next placeholder occurs only where a piece brings it, filling in its argument gives the
    message with this argument. -/
theorem replaceAll_spell (value : String)
    (h : occurrences (placeholder args.length) (spell args pieces) =
      pieces.count (.placeholder args.length)) :
    replaceAll (placeholder args.length) value.toList (spell args pieces) =
      spell (args ++ [value]) pieces := by
  induction pieces with
  | nil => rfl
  | cons piece pieces ih =>
    have hle := count_le_occurrences_spell (Nat.le_refl args.length) pieces
    rw [spell_cons, List.count_cons] at h
    rw [spell_cons, spell_cons]
    by_cases hpiece : piece = .placeholder args.length
    · rw [hpiece, Piece.text_of_length_le (Nat.le_refl _), occurrences_placeholder_append,
        if_pos rfl, if_pos (beq_self_eq_true _)] at h
      rw [hpiece, Piece.text_of_length_le (Nat.le_refl _), Piece.text_concat_self,
        replaceAll_self_append (placeholder_ne_nil _), ih (by omega)]
    · rw [if_neg (by simpa using hpiece), Nat.add_zero] at h
      -- The pieces behind account for all occurrences, so that none begins in this piece.
      have hmore := occurrences_le_append (placeholder args.length) (piece.text args)
        (spell args pieces)
      rw [Piece.text_concat hpiece, replaceAll_append_of_occurrences_eq (by omega), ih (by omega)]

/-- How long the message is with one more argument. -/
theorem length_spell_concat (args : List String) (value : String) (pieces : List Piece) :
    (spell (args ++ [value]) pieces).length +
        pieces.count (.placeholder args.length) * (placeholder args.length).length =
      (spell args pieces).length +
        pieces.count (.placeholder args.length) * value.toList.length := by
  induction pieces with
  | nil => rw [List.count_nil, Nat.zero_mul, Nat.zero_mul]; rfl
  | cons piece pieces ih =>
    rw [spell_cons, spell_cons, List.length_append, List.length_append, List.count_cons]
    by_cases hpiece : piece = .placeholder args.length
    · rw [hpiece, Piece.text_of_length_le (Nat.le_refl _), Piece.text_concat_self,
        if_pos (beq_self_eq_true _), Nat.add_mul, Nat.add_mul]
      omega
    · rw [Piece.text_concat hpiece, if_neg (by simpa using hpiece), Nat.add_zero]
      omega

/-- The next placeholder as its own argument changes nothing. -/
theorem spell_concat_placeholder (args : List String) (pieces : List Piece) :
    spell (args ++ [String.ofList (placeholder args.length)]) pieces = spell args pieces := by
  refine List.flatMap_congr fun piece _ => ?_
  by_cases hpiece : piece = .placeholder args.length
  · rw [hpiece, Piece.text_concat_self, Piece.text_of_length_le (Nat.le_refl _),
      String.toList_ofList]
  · exact Piece.text_concat hpiece _

end Pieces

theorem fillFrom_concat (i : Nat) (args : List String) (value : String) (text : List Char) :
    fillFrom i (args ++ [value]) text =
      replaceAll (placeholder (i + args.length)) value.toList (fillFrom i args text) := by
  induction args generalizing i text with
  | nil => rfl
  | cons arg args ih =>
    rw [List.cons_append, fillFrom, ih, fillFrom, List.length_cons, Nat.add_right_comm,
      Nat.add_assoc]

theorem toList_fill_concat (template : String) (args : List String) (value : String) :
    (fill template (args ++ [value])).toList =
      replaceAll (placeholder args.length) value.toList (fill template args).toList := by
  rw [fill, fill, String.toList_ofList, String.toList_ofList, fillFrom_concat, Nat.zero_add]

section Steps

variable {template : String} {args : List String}

theorem Filled.fills_iff_eq {message : List Char} (h : Filled args template.toList message) :
    Fills template args ↔ (fill template args).toList = message := by
  refine ⟨fun hfill => hfill.unique h, fun heq => ?_⟩
  rwa [Fills, heq]

/-- A template is filled correctly with one more argument, whatever it is, exactly if it is filled
    correctly without it and the placeholder stands then as often as in the template. -/
theorem fills_concat_iff :
    (∀ value, Fills template (args ++ [value])) ↔
      Fills template args ∧
        occurrences (placeholder args.length) (fill template args).toList =
          occurrences (placeholder args.length) template.toList := by
  obtain ⟨pieces, hfilled, hcount⟩ := exists_pieces (args.length + 1) template.toList
  have hone (value : String) :
      Filled (args ++ [value]) template.toList (spell (args ++ [value]) pieces) :=
    hfilled _ (by simp)
  have hnone : Filled args template.toList (spell args pieces) := hfilled _ (Nat.le_succ _)
  rw [hcount _ (Nat.lt_succ_self _)]
  constructor
  · intro h
    have hfill (value : String) : replaceAll (placeholder args.length) value.toList
        (fill template args).toList = spell (args ++ [value]) pieces := by
      rw [← toList_fill_concat]
      exact (hone value).fills_iff_eq.mp (h value)
    -- The placeholder as its own argument shows what the earlier arguments give.
    have hself : (fill template args).toList = spell args pieces := by
      have hplaceholder := hfill (String.ofList (placeholder args.length))
      rwa [String.toList_ofList, replaceAll, replaceFrom_self (placeholder_ne_nil _),
        List.drop_zero, spell_concat_placeholder] at hplaceholder
    refine ⟨hnone.fills_iff_eq.mpr hself, ?_⟩
    -- A longer argument shows how often the placeholder is replaced.
    let longer := String.ofList ('-' :: placeholder args.length)
    have hlonger : longer.toList.length = (placeholder args.length).length + 1 := by
      rw [String.toList_ofList, List.length_cons]
    have hreplaced := length_replaceFrom_placeholder args.length longer.toList 0
      (fill template args).toList
    have hspelled := length_spell_concat args longer pieces
    rw [← replaceAll, hfill, List.drop_zero, hlonger, Nat.mul_succ] at hreplaced
    rw [← hself, hlonger, Nat.mul_succ] at hspelled
    omega
  · rintro ⟨h, hoccurrences⟩ value
    have hfill := hnone.fills_iff_eq.mp h
    rw [hfill] at hoccurrences
    rw [(hone value).fills_iff_eq, toList_fill_concat, hfill, replaceAll_spell value hoccurrences]

theorem undisturbed_concat_iff {template : List Char} {value : String} :
    Undisturbed template (args ++ [value]) ↔ Undisturbed template args ∧
      ∀ text, Filled args template text →
        occurrences (placeholder args.length) text =
          occurrences (placeholder args.length) template := by
  have htake {k : Nat} (hk : k ≤ args.length) : (args ++ [value]).take k = args.take k :=
    List.take_append_of_le_length hk
  rw [Undisturbed, List.length_append, List.length_singleton]
  constructor
  · intro h
    refine ⟨fun k hk => ?_, ?_⟩
    · rw [← htake hk.le]
      exact h k (Nat.lt_succ_of_lt hk)
    · have hlast := h args.length (Nat.lt_succ_self _)
      rwa [htake (Nat.le_refl _), List.take_length] at hlast
  · rintro ⟨hearlier, hlast⟩ k hk
    rw [htake (Nat.le_of_lt_succ hk)]
    rcases Nat.lt_succ_iff_lt_or_eq.mp hk with hlt | rfl
    · exact hearlier k hlt
    · rwa [List.take_length]

/-- Where no placeholder turns up but those of the template, it is filled correctly. -/
theorem Undisturbed.fills (h : Undisturbed template.toList args) : Fills template args := by
  induction args using List.reverseRecOn with
  | nil =>
    rw [Fills, fill, fillFrom, String.toList_ofList]
    exact filled_self _
  | append_singleton args value ih =>
    obtain ⟨hearlier, hlast⟩ := undisturbed_concat_iff.mp h
    exact fills_concat_iff.mpr ⟨ih hearlier, hlast _ (ih hearlier)⟩ value

/-- A template that is filled correctly with all arguments of one number is filled correctly with
    fewer ones. -/
theorem fills_of_length_le {n m : Nat} (hm : m ≤ n)
    (h : ∀ args : List String, args.length = n → Fills template args) :
    ∀ args : List String, args.length = m → Fills template args := by
  induction hm using Nat.decreasingInduction with
  | self => exact h
  | of_succ k hk ih =>
    intro args hargs
    refine (fills_concat_iff.mp fun value => ih _ ?_).1
    rw [List.length_append, hargs, List.length_singleton]

/-- A placeholder that is not the last one can be given an argument that spells the next one. -/
theorem not_infix_of_fills {n i : Nat} (hi : i + 1 < n)
    (h : ∀ args : List String, args.length = n → Fills template args) :
    ¬placeholder i <:+: template.toList := by
  intro hoccurs
  let args := List.replicate i "" ++ [String.ofList (placeholder (i + 1))]
  have hargs : args.length = i + 1 := by
    rw [List.length_append, List.length_replicate, List.length_singleton]
  obtain ⟨hfill, hoccurrences⟩ := fills_concat_iff.mp fun value =>
    fills_of_length_le hi h (args ++ [value]) (by
      rw [List.length_append, hargs, List.length_singleton])
  obtain ⟨pieces, hfilled, hcount⟩ := exists_pieces (i + 2) template.toList
  have htext : (Piece.placeholder i).text args = placeholder (i + 1) := by
    rw [Piece.text_of_lt (by omega)]
    simp [args]
  have hmem : .placeholder i ∈ pieces := by
    rw [← List.count_pos_iff, ← hcount i (by omega)]
    exact occurrences_pos_iff.mpr hoccurs
  have hmore := count_lt_occurrences_spell hargs.le (by omega) htext hmem
  rw [hargs, hfill.unique (hfilled args (by omega)), hcount (i + 1) (by omega)] at hoccurrences
  omega

end Steps

/-- A template is filled correctly where no argument takes part in the placeholder of a later one.
    Where one does, some argument for that placeholder gives a wrong result. The templates that are
    filled correctly with all arguments of one number are those without a placeholder but that of
    the last one. -/
theorem fills_iff (template : String) :
    (∀ args, Undisturbed template.toList args → Fills template args) ∧
    (∀ args : List String, (∀ k < args.length, ∀ value, Fills template (args.take k ++ [value])) →
      Undisturbed template.toList args) ∧
    ∀ n, (∀ args : List String, args.length = n → Fills template args) ↔
      ∀ i, i + 1 < n → ¬placeholder i <:+: template.toList := by
  refine ⟨fun args h => h.fills, fun args h k hk text htext => ?_, fun n =>
    ⟨fun h i hi => not_infix_of_fills hi h, ?_⟩⟩
  · obtain ⟨hfill, hoccurrences⟩ := fills_concat_iff.mp (h k hk)
    rwa [hfill.unique htext, List.length_take, Nat.min_eq_left hk.le] at hoccurrences
  · rintro h args rfl
    refine Undisturbed.fills fun k hk text htext => congrArg _ ?_
    refine htext.eq_template fun i hi => h i ?_
    rw [List.length_take] at hi
    omega

/-- An argument that spells the placeholder of the next one is replaced in turn. -/
theorem not_fills_braced :
    Filled ["\x7b1\x7d", "x"] "\x7b0\x7d".toList "\x7b1\x7d".toList ∧
      fill "\x7b0\x7d" ["\x7b1\x7d", "x"] = "x" ∧ ¬Fills "\x7b0\x7d" ["\x7b1\x7d", "x"] := by
  have hmessage : Filled ["\x7b1\x7d", "x"] "\x7b0\x7d".toList "\x7b1\x7d".toList := by
    have htemplate : "\x7b0\x7d".toList = placeholder 0 ++ [] := by decide
    have htext : "\x7b1\x7d".toList = "\x7b1\x7d".toList ++ [] := (List.append_nil _).symm
    rw [htemplate, htext]
    have hfirst : 0 < ["\x7b1\x7d", "x"].length := by decide
    exact .argument hfirst .nil
  have hfill : fill "\x7b0\x7d" ["\x7b1\x7d", "x"] = "x" := by decide
  refine ⟨hmessage, hfill, fun h => ?_⟩
  rw [Fills, hfill] at h
  exact absurd (h.unique hmessage) (by decide)

end TypeLint.Text
