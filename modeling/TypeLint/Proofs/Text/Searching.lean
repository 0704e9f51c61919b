import Mathlib.Data.List.Infix
import TypeLint.Text.Template

namespace TypeLint.Text

theorem replaceFrom_append {mark : Char} {pattern replacement front rest : List Char}
    (h : mark ∉ front) :
    replaceFrom (mark :: pattern) replacement 0 (front ++ rest) =
      front ++ replaceFrom (mark :: pattern) replacement 0 rest := by
  induction front with
  | nil => rfl
  | cons c front ih =>
    obtain ⟨hc, hfront⟩ := not_or.mp (List.mem_cons.not.mp h)
    rw [List.cons_append, replaceFrom, List.isPrefixOf_cons_cons, beq_false_of_ne hc,
      Bool.false_and, if_neg Bool.false_ne_true, ih hfront, List.cons_append]

/-- Nothing is replaced in a text without the first character of the pattern. -/
theorem replaceAll_of_not_mem {mark : Char} {pattern replacement text : List Char}
    (h : mark ∉ text) : replaceAll (mark :: pattern) replacement text = text := by
  have happend : replaceFrom (mark :: pattern) replacement 0 (text ++ []) =
      text ++ replaceFrom (mark :: pattern) replacement 0 [] :=
    replaceFrom_append h
  rwa [List.append_nil, replaceFrom, List.append_nil] at happend

/-- Replacing a character is done character by character. -/
theorem replaceAll_singleton (mark : Char) (replacement text : List Char) :
    replaceAll [mark] replacement text =
      text.flatMap fun c => if c = mark then replacement else [c] := by
  rw [replaceAll]
  induction text with
  | nil => rfl
  | cons c text ih =>
    rw [replaceFrom, List.isPrefixOf_cons_cons, List.isPrefixOf, Bool.and_true, List.flatMap_cons]
    by_cases hc : c = mark
    · rw [if_pos (beq_iff_eq.mpr hc.symm), if_pos hc, List.length_singleton, ih]
    · rw [if_neg (by simpa using Ne.symm hc), if_neg hc, ih]
      rfl

/-- An argument at the end of a template stands at the end of the message. -/
theorem fill_append_placeholder {front : String} (h : '\x7b' ∉ front.toList) (arg : String) :
    fill (front ++ "\x7b0\x7d") [arg] = front ++ arg := by
  have hpattern : placeholder 0 = ['\x7b', '0', '\x7d'] := by decide
  rw [fill, fillFrom, fillFrom, hpattern, replaceAll, String.toList_append, replaceFrom_append h]
  rw [← String.toList_inj, String.toList_ofList, String.toList_append]
  exact congrArg (front.toList ++ ·) (List.append_nil _)

/-- Nothing is replaced in front of the first character of the pattern. -/
theorem replaceFirst_append {mark : Char} {pattern replacement front rest : List Char}
    (h : mark ∉ front) :
    replaceFirst (mark :: pattern) replacement (front ++ rest) =
      front ++ replaceFirst (mark :: pattern) replacement rest := by
  induction front with
  | nil => rfl
  | cons c front ih =>
    obtain ⟨hc, hfront⟩ := not_or.mp (List.mem_cons.not.mp h)
    rw [List.cons_append, replaceFirst, List.isPrefixOf_cons_cons, beq_false_of_ne hc,
      Bool.false_and, if_neg Bool.false_ne_true, ih hfront, List.cons_append]

theorem replaceFirst_self_append {pattern replacement : List Char} (hne : pattern ≠ [])
    (rest : List Char) :
    replaceFirst pattern replacement (pattern ++ rest) = replacement ++ rest := by
  obtain ⟨c, others, rfl⟩ := List.exists_cons_of_ne_nil hne
  have hfound : (c :: others).isPrefixOf (c :: (others ++ rest)) = true :=
    List.isPrefixOf_iff_prefix.mpr ⟨rest, rfl⟩
  have hrest : (c :: others ++ rest).drop (c :: others).length = rest := List.drop_left
  rw [List.cons_append, replaceFirst, if_pos hfound]
  exact congrArg (replacement ++ ·) hrest

theorem isPrefixOf_nil_of_ne {pattern : List Char} (h : pattern ≠ []) :
    pattern.isPrefixOf [] = false := by
  cases pattern with
  | nil => exact (h rfl).elim
  | cons => rfl

theorem occursIn_nil_of_ne {pattern : List Char} (h : pattern ≠ []) :
    occursIn pattern [] = false :=
  List.isEmpty_eq_false_iff.mpr h

section

variable {pattern : List Char} {c : Char}

/-- An occurrence lies in front of a character that the pattern does not have, or behind it. -/
theorem isPrefixOf_append_cons (hc : c ∉ pattern) (cs rest : List Char) :
    pattern.isPrefixOf (cs ++ c :: rest) = pattern.isPrefixOf cs := by
  rw [Bool.eq_iff_iff, List.isPrefixOf_iff_prefix, List.isPrefixOf_iff_prefix]
  refine ⟨fun hlong => ?_, fun hshort => hshort.trans (List.prefix_append cs _)⟩
  have hshort : cs ++ [c] <+: cs ++ c :: rest := ⟨rest, by simp⟩
  rcases List.prefix_or_prefix_of_prefix hlong hshort with hin | hover
  · rcases List.prefix_concat_iff.mp hin with heq | hin
    · exact absurd (heq ▸ List.mem_append_right _ (List.mem_singleton_self c)) hc
    · exact hin
  · exact absurd (hover.subset (List.mem_append_right _ (List.mem_singleton_self c))) hc

theorem occursIn_append_cons (hne : pattern ≠ []) (hc : c ∉ pattern) (cs rest : List Char) :
    occursIn pattern (cs ++ c :: rest) = (occursIn pattern cs || occursIn pattern rest) := by
  induction cs with
  | nil =>
    have hhere : pattern.isPrefixOf (c :: rest) = false :=
      (isPrefixOf_append_cons hc [] rest).trans (isPrefixOf_nil_of_ne hne)
    rw [occursIn_nil_of_ne hne, List.nil_append, occursIn, hhere]
  | cons d cs ih =>
    have hhere : pattern.isPrefixOf (d :: (cs ++ c :: rest)) = pattern.isPrefixOf (d :: cs) :=
      isPrefixOf_append_cons hc (d :: cs) rest
    rw [List.cons_append, occursIn, occursIn, ih, hhere, Bool.or_assoc]

/-- What is replaced in front of a character that the pattern does not have, if the pattern occurs
    there. -/
theorem replaceFirst_append_cons (hne : pattern ≠ []) (hc : c ∉ pattern)
    (replacement cs rest : List Char) :
    replaceFirst pattern replacement (cs ++ c :: rest) =
      if occursIn pattern cs then replaceFirst pattern replacement cs ++ c :: rest
      else cs ++ c :: replaceFirst pattern replacement rest := by
  induction cs with
  | nil =>
    have hhere : pattern.isPrefixOf (c :: rest) = false :=
      (isPrefixOf_append_cons hc [] rest).trans (isPrefixOf_nil_of_ne hne)
    rw [occursIn_nil_of_ne hne, if_neg Bool.false_ne_true, List.nil_append, replaceFirst, hhere,
      if_neg Bool.false_ne_true, List.nil_append]
  | cons d cs ih =>
    have hhere : pattern.isPrefixOf (d :: (cs ++ c :: rest)) = pattern.isPrefixOf (d :: cs) :=
      isPrefixOf_append_cons hc (d :: cs) rest
    rw [List.cons_append, replaceFirst, replaceFirst, occursIn, hhere, ih]
    by_cases hfound : pattern.isPrefixOf (d :: cs) = true
    · have hlength := (List.isPrefixOf_iff_prefix.mp hfound).length_le
      rw [if_pos hfound, if_pos hfound, if_pos (by rw [hfound, Bool.true_or]), List.append_assoc,
        ← List.cons_append, List.drop_append_of_le_length hlength]
    · rw [if_neg hfound, if_neg hfound, Bool.eq_false_iff.mpr hfound, Bool.false_or]
      split_ifs <;> rw [List.cons_append]

end

theorem splitFrom_ne_nil (separator : List Char) (skip : Nat) (cs : List Char) :
    splitFrom separator skip cs ≠ [] := by
  fun_induction splitFrom separator skip cs with
  | case1 => simp
  | case2 skip c rest ih => exact ih
  | case3 c rest h ih => simp
  | case4 c rest h ih =>
    cases hsplit : splitFrom separator 0 rest with
    | nil => exact absurd hsplit ih
    | cons part parts => simp [consFirst]

theorem intercalate_consFirst (separator : List Char) (c : Char) {parts : List (List Char)}
    (h : parts ≠ []) :
    separator.intercalate (consFirst c parts) = c :: separator.intercalate parts := by
  match parts with
  | [part] => simp [consFirst]
  | part :: next :: rest => simp [consFirst]

/-- The parts of a text with the separator between them are the text. -/
theorem intercalate_splitFrom {separator : List Char} (hne : separator ≠ []) (skip : Nat)
    (cs : List Char) :
    separator.intercalate (splitFrom separator skip cs) = cs.drop skip := by
  fun_induction splitFrom separator skip cs with
  | case1 => simp
  | case2 skip c rest ih => rw [ih, List.drop_succ_cons]
  | case3 c rest hfound ih =>
    obtain ⟨behind, hbehind⟩ := List.isPrefixOf_iff_prefix.mp hfound
    obtain ⟨first, others, rfl⟩ := List.exists_cons_of_ne_nil hne
    obtain ⟨rfl, hrest⟩ : first = c ∧ others ++ behind = rest := List.cons.inj hbehind
    subst hrest
    rw [List.intercalate_cons_of_ne_nil (splitFrom_ne_nil _ _ _), ih, List.nil_append,
      List.length_cons, Nat.add_sub_cancel, List.drop_left, List.drop_zero]
    rfl
  | case4 c rest hfree ih =>
    rw [intercalate_consFirst separator c (splitFrom_ne_nil _ _ _), ih, List.drop_zero,
      List.drop_zero]

/-- No occurrence of the separator begins in the text, whatever stands behind it. -/
def Uncut (separator cs : List Char) : Prop :=
  ∀ rest, splitFrom separator 0 (cs ++ rest) = cs.foldr consFirst (splitFrom separator 0 rest)

variable {separator cs ds : List Char} {c : Char}

theorem Uncut.append (h : Uncut separator cs) (h' : Uncut separator ds) :
    Uncut separator (cs ++ ds) := fun rest => by
  rw [List.append_assoc, h, h', List.foldr_append]

theorem Uncut.cons (hc : ∀ rest, separator.isPrefixOf (c :: (cs ++ rest)) = false)
    (h : Uncut separator cs) : Uncut separator (c :: cs) := fun rest => by
  rw [List.cons_append, splitFrom, hc, if_neg Bool.false_ne_true, h, List.foldr_cons]

theorem uncut_of_not_mem {mark : Char} (h : mark ∉ cs) : Uncut (mark :: separator) cs := by
  induction cs with
  | nil => exact fun rest => rfl
  | cons c cs ih =>
    obtain ⟨hc, hcs⟩ := not_or.mp (List.mem_cons.not.mp h)
    refine (ih hcs).cons fun rest => ?_
    rw [List.isPrefixOf_cons_cons, beq_false_of_ne hc, Bool.false_and]

/-- A text without the separator is not cut in front of a character that the separator does not
    have. -/
theorem uncut_concat (hfree : occursIn separator cs = false) (hc : c ∉ separator) :
    Uncut separator (cs ++ [c]) := by
  have hne : separator ≠ [] := by
    rintro rfl
    cases cs <;> cases hfree
  induction cs with
  | nil =>
    refine Uncut.cons (fun rest => ?_) fun rest => rfl
    exact (isPrefixOf_append_cons hc [] rest).trans (isPrefixOf_nil_of_ne hne)
  | cons d cs ih =>
    rw [occursIn, Bool.or_eq_false_iff] at hfree
    refine (ih hfree.2).cons fun rest => ?_
    change separator.isPrefixOf (d :: cs ++ [c] ++ rest) = false
    rw [List.append_assoc]
    exact (isPrefixOf_append_cons hc (d :: cs) rest).trans hfree.1

theorem foldr_consFirst (cs : List Char) (parts : List (List Char)) :
    cs.foldr consFirst ([] :: parts) = cs :: parts := by
  induction cs with
  | nil => rfl
  | cons c cs ih => rw [List.foldr_cons, ih, consFirst]

theorem splitFrom_self_append (hne : separator ≠ []) (cs : List Char) :
    splitFrom separator 0 (separator ++ cs) = [] :: splitFrom separator 0 cs := by
  have hskip (ds : List Char) : splitFrom separator ds.length (ds ++ cs) =
      splitFrom separator 0 cs := by
    induction ds with
    | nil => rfl
    | cons d ds ih => rwa [List.length_cons, List.cons_append, splitFrom]
  obtain ⟨first, others, heq⟩ := List.exists_cons_of_ne_nil hne
  have hfound : separator.isPrefixOf (first :: (others ++ cs)) = true :=
    List.isPrefixOf_iff_prefix.mpr ⟨cs, by rw [heq, List.cons_append]⟩
  have hlength : separator.length - 1 = others.length := by
    rw [heq, List.length_cons, Nat.add_sub_cancel]
  rw [show separator ++ cs = first :: (others ++ cs) by rw [heq, List.cons_append], splitFrom,
    if_pos hfound, hlength, hskip]

/-- Splitting around a separator undoes putting it between texts that it does not cut. -/
theorem splitAround_intercalate (hne : separator ≠ []) {parts : List (List Char)}
    (hparts : parts ≠ []) (h : ∀ part ∈ parts, Uncut separator part) :
    splitAround separator (separator.intercalate parts) = parts := by
  induction parts with
  | nil => exact (hparts rfl).elim
  | cons part rest ih =>
    obtain ⟨hpart, hrest⟩ := List.forall_mem_cons.mp h
    cases rest with
    | nil =>
      have hlast := hpart []
      rw [List.append_nil, splitFrom, foldr_consFirst] at hlast
      rwa [List.intercalate_singleton]
    | cons next rest =>
      rw [List.intercalate_cons_cons, splitAround, List.append_assoc, hpart,
        splitFrom_self_append hne, foldr_consFirst]
      exact congrArg (part :: ·) (ih (List.cons_ne_nil _ _) hrest)

end TypeLint.Text
