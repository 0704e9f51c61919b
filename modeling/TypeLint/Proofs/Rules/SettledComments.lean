import Mathlib.Data.List.DropRight
import TypeLint.Proofs.Lint.Outcomes
import TypeLint.Proofs.Lint.Sources
import TypeLint.Proofs.Program.Boundaries
import TypeLint.Proofs.Text.Searching
import TypeLint.Proofs.Text.Trivia
import TypeLint.Rules.SuppressionComment

namespace TypeLint.Text.Comment

/-- The characters that a comment begins with. -/
def opening (c : Comment) : List Char := if c.isMultiLine then ['/', '*'] else ['/', '/']

/-- The text of a comment between characters begins with its delimiter. -/
theorem exists_text_eq {source : String} {c : Comment} (hpos : isBoundary source c.pos = true)
    (hstop : isBoundary source c.stop = true) (hlength : c.pos + 2 ≤ c.stop)
    (hopens : OpensAt (bytes source) c.isMultiLine c.pos) :
    ∃ written inner, c.text source = .ok written ∧ written.toList = c.opening ++ inner := by
  obtain ⟨front, behind, rfl, hfront⟩ := isBoundary_iff.mp hpos
  obtain ⟨front', behind', heq, hfront'⟩ := isBoundary_iff.mp hstop
  obtain ⟨middle, rfl, rfl⟩ := exists_append_of_le heq (by omega)
  have hwithin : c.stop ≤ byteLength (front ++ (middle ++ behind')) ∧ c.pos < c.stop := by
    rw [← String.append_assoc, byteLength_append]
    exact ⟨hfront'.symm.trans_le (Nat.le_add_right _ _), by omega⟩
  have htext : c.text (front ++ (middle ++ behind')) = .ok middle := by
    rw [Comment.text, if_pos hwithin, ← String.append_assoc, ← hfront, ← hfront',
      byteLength_append, slice?_append]
  have hlong : 2 ≤ (bytes middle).length := by
    rw [byteLength_append] at hfront'
    rw [length_bytes]
    omega
  have hbyte {i : Nat} (hi : i < 2) :
      (bytes (front ++ (middle ++ behind')))[c.pos + i]? = (bytes middle)[i]? := by
    rw [bytes_append, bytes_append, ← hfront, ← length_bytes front,
      List.getElem?_append_right (Nat.le_add_right _ _), Nat.add_sub_cancel_left,
      List.getElem?_append_left (by omega)]
  obtain ⟨a, b, bs, hbytes⟩ : ∃ a b bs, bytes middle = a :: b :: bs := by
    obtain ⟨a, as, hfirst⟩ := List.exists_cons_of_length_pos (Nat.zero_lt_two.trans_le hlong)
    rw [hfirst, List.length_cons, Nat.succ_le_succ_iff] at hlong
    obtain ⟨b, bs, rfl⟩ := List.exists_cons_of_length_pos hlong
    exact ⟨a, b, bs, hfirst⟩
  obtain ⟨hfirst, hsecond⟩ := hopens
  rw [← Nat.add_zero c.pos, hbyte Nat.two_pos, hbytes] at hfirst
  rw [hbyte Nat.one_lt_two, hbytes] at hsecond
  obtain rfl : a = slash := Option.some.inj hfirst
  obtain rfl : b = if c.isMultiLine then star else slash := Option.some.inj hsecond
  have hascii : (if c.isMultiLine then star else slash) < 128 := by split_ifs <;> decide
  obtain ⟨rest, hmiddle, hrest⟩ := exists_cons_of_ascii hbytes (by decide)
  obtain ⟨inner, rfl, -⟩ := exists_cons_of_ascii hrest hascii
  refine ⟨_, inner, htext, ?_⟩
  rw [hmiddle, opening]
  split_ifs <;> rfl

end TypeLint.Text.Comment

namespace TypeLint.Program.Shown

open Syntax Text

/-- A comment of a built file begins with its delimiter. -/
theorem exists_text_eq {p : TypeLint.Program} {f : SourceFile} (h : Shown p f) {c : Comment}
    (hc : c ∈ f.comments) :
    ∃ written inner, c.text f.text = .ok written ∧ written.toList = c.opening ++ inner := by
  obtain ⟨hpos, hstop⟩ := h.isBoundary_comment hc
  rw [h.comments_eq, SourceFile.collectComments, List.mem_toArray, List.mem_flatMap] at hc
  obtain ⟨r, -, hc⟩ := hc
  rw [SourceFile.triviaComments] at hc
  split at hc
  · split_ifs at hc
    · obtain ⟨hlength, hopens⟩ := Comment.opens_of_mem_scanGap hc
      exact Comment.exists_text_eq hpos hstop hlength hopens
    · cases hc
  · cases hc

end TypeLint.Program.Shown

namespace TypeLint.Rules.SuppressionComment

open Syntax Text Check TypeLint.Program

/-- The function drops characters from the front of a line, but none from a mark on. -/
structure Skips (mark : Char) (skip : List Char → List Char) : Prop where
  append : ∀ front rest, skip (front ++ mark :: rest) = skip front ++ mark :: rest
  suffix : ∀ line, skip line <:+ line

theorem skips_dropWhile {mark : Char} {p : Char → Bool} (h : p mark = false) :
    Skips mark (List.dropWhile p) where
  append front rest := by
    induction front with
    | nil => rw [List.nil_append, List.dropWhile_cons, h, if_neg Bool.false_ne_true]; rfl
    | cons c front ih =>
      rw [List.cons_append, List.dropWhile_cons, List.dropWhile_cons, ih]
      split_ifs <;> rfl
  suffix _ := List.dropWhile_suffix p

theorem Skips.comp {mark : Char} {skip skip' : List Char → List Char} (h : Skips mark skip)
    (h' : Skips mark skip') : Skips mark (skip' ∘ skip) where
  append front rest := by rw [Function.comp, h.append, h'.append]; rfl
  suffix line := (h'.suffix _).trans (h.suffix line)

/-- Drops a slash. -/
def dropSlash : List Char → List Char
  | '/' :: rest => rest
  | rest => rest

theorem skips_dropSlash : Skips '@' dropSlash where
  append front rest := by
    unfold dropSlash
    split
    · next heq =>
      cases front with
      | nil => cases heq
      | cons c front =>
        obtain ⟨rfl, rfl⟩ := List.cons.inj heq
        rfl
    · next hslash =>
      cases front with
      | nil => rfl
      | cons c front =>
        split
        · next heq =>
          obtain ⟨rfl, rfl⟩ := List.cons.inj heq
          exact absurd rfl (hslash _)
        · rfl
  suffix line := by
    unfold dropSlash
    split
    · exact List.suffix_cons _ _
    · exact List.suffix_refl _

/-- What is skipped in front of a directive on a line. -/
def skipOf (isMultiLine : Bool) : List Char → List Char :=
  if isMultiLine then
    List.dropWhile isBlank ∘ List.dropWhile (fun c => c == '/' || c == '*') ∘ List.dropWhile isBlank
  else List.dropWhile isBlank ∘ dropSlash ∘ List.dropWhile isBlank

theorem skips_skipOf (isMultiLine : Bool) : Skips '@' (skipOf isMultiLine) := by
  have hblank : Skips '@' (List.dropWhile isBlank) := skips_dropWhile (by decide +kernel)
  rw [skipOf]
  split_ifs
  · exact (hblank.comp (skips_dropWhile (by decide))).comp hblank
  · exact (hblank.comp skips_dropSlash).comp hblank

/-- The line of a comment that a directive counts on. -/
def directiveLine (isMultiLine : Bool) (body : List Char) : List Char :=
  if isMultiLine then lastLine body else body

theorem isIgnoring_eq (c : Comment) (body : String) :
    isIgnoring c body = ignoreDirective.isPrefixOf
      (skipOf c.isMultiLine (directiveLine c.isMultiLine body.toList)) := by
  rw [isIgnoring, skipOf, directiveLine]
  split_ifs <;> rfl

/-- A line on which a directive counts begins with what is skipped, and the directive is the first
    thing behind it. -/
theorem exists_lead {skip : List Char → List Char} (h : Skips '@' skip) {line : List Char}
    (hline : ignoreDirective.isPrefixOf (skip line) = true) :
    ∃ lead rest, line = lead ++ (ignoreDirective ++ rest) ∧ '@' ∉ lead ∧ skip lead = [] := by
  obtain ⟨rest, hrest⟩ := List.isPrefixOf_iff_prefix.mp hline
  have hmark : '@' ∈ line := by
    refine (h.suffix line).subset ?_
    rw [← hrest]
    exact List.mem_append_left _ (by decide)
  obtain ⟨lead, behind, rfl, hlead⟩ := List.eq_append_cons_of_mem hmark
  rw [h.append] at hrest
  have hempty : skip lead = [] := by
    cases hskip : skip lead with
    | nil => rfl
    | cons c others =>
      rw [hskip] at hrest
      have hfirst : '@' = c := (List.cons.inj hrest).1
      have hmem : c ∈ lead := (h.suffix lead).subset (hskip ▸ List.mem_cons_self)
      exact absurd (hfirst ▸ hmem) hlead
  rw [hempty, List.nil_append] at hrest
  exact ⟨lead, rest, by rw [hrest], hlead, hempty⟩

/-- Behind what is skipped, the directive that ignores errors is recognised and the other one is
    not. -/
theorem isPrefixOf_skip {skip : List Char → List Char} (h : Skips '@' skip) {lead : List Char}
    (hlead : skip lead = []) (rest : List Char) :
    ignoreDirective.isPrefixOf (skip (lead ++ (ignoreDirective ++ rest))) = true ∧
      ignoreDirective.isPrefixOf (skip (lead ++ (expectDirective ++ rest))) = false := by
  have hignore : ignoreDirective = '@' :: "ts-ignore".toList := by decide
  have hexpect : expectDirective = '@' :: "ts-expect-error".toList := by decide
  rw [hexpect, List.cons_append, h.append, hlead, hignore, List.cons_append, h.append, hlead]
  exact ⟨List.isPrefixOf_iff_prefix.mpr (List.prefix_append _ rest), rfl⟩

/-- The text is empty or ends with a line feed. -/
def EndsLine (text : List Char) : Prop := text = [] ∨ ∃ front, text = front ++ ['\n']

theorem exists_eq_append_lastLine (text : List Char) :
    ∃ earlier, text = earlier ++ lastLine text ∧ EndsLine earlier ∧ '\n' ∉ lastLine text := by
  have hlast : lastLine text = text.rtakeWhile (· != '\n') := rfl
  rw [hlast]
  refine ⟨text.rdropWhile (· != '\n'), (List.rdropWhile_append_rtakeWhile).symm, ?_, ?_⟩
  · by_cases hnil : text.rdropWhile (· != '\n') = []
    · exact .inl hnil
    · have hfeed := List.rdropWhile_last_not (· != '\n') text hnil
      rw [bne_iff_ne, not_not] at hfeed
      exact .inr ⟨_, (List.dropLast_append_getLast hnil).symm.trans (by rw [hfeed])⟩
  · intro hmem
    exact absurd (List.mem_rtakeWhile_imp hmem) (by decide)

theorem lastLine_append {earlier line : List Char} (h : EndsLine earlier) (hline : '\n' ∉ line) :
    lastLine (earlier ++ line) = line := by
  have hall : ∀ c ∈ line.reverse, (c != '\n') = true := by
    intro c hc
    rw [bne_iff_ne]
    rintro rfl
    exact hline (List.mem_reverse.mp hc)
  have hnone : earlier.reverse.takeWhile (· != '\n') = [] := by
    rcases h with rfl | ⟨front, rfl⟩
    · rfl
    · rw [List.reverse_append, List.reverse_singleton, List.singleton_append]
      exact List.takeWhile_cons_of_neg (by decide)
  rw [lastLine, List.reverse_append, List.takeWhile_append_of_pos hall, hnone, List.append_nil,
    List.reverse_reverse]

section

variable {earlier lead rest : List Char}

theorem ignoreDirective_ne_nil : ignoreDirective ≠ [] := by decide

theorem lineFeed_not_mem_directives : '\n' ∉ ignoreDirective ∧ '\n' ∉ expectDirective := by decide

theorem replaceFirst_line (hlead : '@' ∉ lead) :
    replaceFirst ignoreDirective expectDirective (lead ++ (ignoreDirective ++ rest)) =
      lead ++ (expectDirective ++ rest) := by
  have hignore : ignoreDirective = '@' :: "ts-ignore".toList := by decide
  have hfront : replaceFirst ignoreDirective expectDirective (lead ++ (ignoreDirective ++ rest)) =
      lead ++ replaceFirst ignoreDirective expectDirective (ignoreDirective ++ rest) := by
    rw [hignore]
    exact replaceFirst_append hlead
  rw [hfront, replaceFirst_self_append ignoreDirective_ne_nil]

/-- The rewrite changes the last line just if no earlier line spells the directive. -/
theorem replaceFirst_body (h : EndsLine earlier) (hlead : '@' ∉ lead) :
    replaceFirst ignoreDirective expectDirective (earlier ++ (lead ++ (ignoreDirective ++ rest))) =
      if occursIn ignoreDirective earlier then
        replaceFirst ignoreDirective expectDirective earlier ++ (lead ++ (ignoreDirective ++ rest))
      else earlier ++ (lead ++ (expectDirective ++ rest)) := by
  have hfeed := lineFeed_not_mem_directives.1
  rcases h with rfl | ⟨front, rfl⟩
  · rw [occursIn_nil_of_ne ignoreDirective_ne_nil, if_neg Bool.false_ne_true, List.nil_append,
      replaceFirst_line hlead, List.nil_append]
  · rw [occursIn_append_cons ignoreDirective_ne_nil hfeed,
      occursIn_nil_of_ne ignoreDirective_ne_nil, Bool.or_false, List.append_assoc,
      List.singleton_append, replaceFirst_append_cons ignoreDirective_ne_nil hfeed,
      replaceFirst_line hlead, replaceFirst_append_cons ignoreDirective_ne_nil hfeed]
    split_ifs <;> simp only [List.append_assoc, List.cons_append, List.nil_append]

theorem EndsLine.replaceFirst (h : EndsLine earlier) :
    EndsLine (replaceFirst ignoreDirective expectDirective earlier) := by
  rcases h with rfl | ⟨front, rfl⟩
  · exact .inl rfl
  · rw [replaceFirst_append_cons ignoreDirective_ne_nil lineFeed_not_mem_directives.1]
    split_ifs
    · exact .inr ⟨_, rfl⟩
    · exact .inr ⟨front, rfl⟩

end

/-- The characters that a rewritten comment ends with. -/
def ending (c : Comment) : List Char := if c.isMultiLine then ['*', '/'] else []

/-- A comment of the same kind that is the whole of a text. -/
def wholeText (c : Comment) (text : String) : Comment :=
  { c with pos := 0, stop := byteLength text }

theorem text_wholeText (c : Comment) (text : String) :
    (wholeText c text).text text = .ok text := by
  have h := slice?_append "" text ""
  rw [String.empty_append, String.append_empty, byteLength_empty, Nat.zero_add] at h
  rw [Comment.text, wholeText]
  split_ifs with hwithin
  · rw [h]
  · have hzero : byteLength text = 0 := by
      by_contra hne
      exact hwithin ⟨le_refl _, Nat.pos_of_ne_zero hne⟩
    rw [byteLength_eq_zero_iff.mp hzero]

theorem dropEndDelimiter_append (delimiter text : List Char) :
    dropEndDelimiter delimiter (text ++ delimiter) = text := by
  have hfound : delimiter.isSuffixOf (text ++ delimiter) = true :=
    List.isSuffixOf_iff_suffix.mpr (List.suffix_append text delimiter)
  rw [dropEndDelimiter, if_pos hfound, List.length_append, Nat.add_sub_cancel, List.take_left]

theorem exists_eq_dropEndDelimiter_append (delimiter text : List Char) :
    ∃ closing, text = dropEndDelimiter delimiter text ++ closing ∧
      (closing = delimiter ∨ closing = []) := by
  by_cases hfound : delimiter.isSuffixOf text = true
  · obtain ⟨front, rfl⟩ := List.isSuffixOf_iff_suffix.mp hfound
    exact ⟨delimiter, by rw [dropEndDelimiter_append], .inl rfl⟩
  · exact ⟨[], by rw [dropEndDelimiter, if_neg hfound, List.append_nil], .inr rfl⟩

theorem dropDelimiter_append (delimiter text : List Char) :
    dropDelimiter delimiter (delimiter ++ text) = text := by
  have hfound : delimiter.isPrefixOf (delimiter ++ text) = true :=
    List.isPrefixOf_iff_prefix.mpr (List.prefix_append delimiter text)
  rw [dropDelimiter, if_pos hfound, List.drop_left]

section

variable {c : Comment} {written : String} {inner : List Char}

theorem toList_strip (h : written.toList = c.opening ++ inner) :
    (c.strip written).toList =
      if c.isMultiLine then dropEndDelimiter ['*', '/'] inner else inner := by
  rw [Comment.strip, h, Comment.opening, String.toList_ofList]
  split_ifs <;> rw [dropDelimiter_append]

/-- The body of a comment stands between its delimiters, of which the second one may be missing. -/
theorem exists_closing (h : written.toList = c.opening ++ inner) :
    ∃ closing, written.toList = c.opening ++ ((c.strip written).toList ++ closing) ∧
      (closing = ending c ∨ closing = []) := by
  rw [h, toList_strip h, ending]
  split_ifs
  · obtain ⟨closing, hinner, hclosing⟩ := exists_eq_dropEndDelimiter_append ['*', '/'] inner
    exact ⟨closing, by rw [← hinner], hclosing⟩
  · exact ⟨[], by rw [List.append_nil], .inl rfl⟩

theorem strip_of_ending {body : List Char}
    (h : written.toList = c.opening ++ (body ++ ending c)) : (c.strip written).toList = body := by
  rw [toList_strip h, ending]
  split_ifs
  · exact dropEndDelimiter_append _ _
  · exact List.append_nil _

end

theorem toList_corrected (c : Comment) (body : String) :
    (corrected c body).toList = c.opening ++
      (replaceFirst ignoreDirective expectDirective body.toList ++ ending c) := by
  rw [corrected, Comment.opening, ending]
  split_ifs
  · simp only [String.toList_append, String.toList_ofList, List.append_assoc]
    rfl
  · simp only [String.toList_append, String.toList_ofList, List.append_nil]
    rfl

/-- How a comment that ignores errors is written: behind the opening delimiter the earlier lines of
    a block comment, then the line with the directive, in front of which nothing stands but what is
    skipped. -/
structure Spelled (c : Comment) (written : String) (earlier lead rest closing : List Char) :
    Prop where
  text : written.toList = c.opening ++ (earlier ++ (lead ++ (ignoreDirective ++ rest)) ++ closing)
  body : (c.strip written).toList = earlier ++ (lead ++ (ignoreDirective ++ rest))
  closed : closing = ending c ∨ closing = []
  ends : EndsLine earlier
  single : c.isMultiLine = false → earlier = []
  last : c.isMultiLine = true → '\n' ∉ lead ++ (ignoreDirective ++ rest)
  first : '@' ∉ lead
  skipped : skipOf c.isMultiLine lead = []

/-- A comment that begins with its delimiter and ignores errors is written in this way. -/
theorem exists_spelled {c : Comment} {written : String} {inner : List Char}
    (htext : written.toList = c.opening ++ inner)
    (hignore : isIgnoring c (c.strip written) = true) :
    ∃ earlier lead rest closing, Spelled c written earlier lead rest closing := by
  obtain ⟨closing, hparts, hclosing⟩ := exists_closing htext
  obtain ⟨earlier, hbody, hends, hsingle, hlast⟩ : ∃ earlier, (c.strip written).toList =
      earlier ++ directiveLine c.isMultiLine (c.strip written).toList ∧ EndsLine earlier ∧
      (c.isMultiLine = false → earlier = []) ∧
      (c.isMultiLine = true → '\n' ∉ directiveLine c.isMultiLine (c.strip written).toList) := by
    rw [directiveLine]
    split_ifs with hmulti
    · obtain ⟨earlier, hbody, hends, hlast⟩ := exists_eq_append_lastLine (c.strip written).toList
      exact ⟨earlier, hbody, hends, fun hline => absurd hmulti (hline ▸ Bool.false_ne_true),
        fun _ => hlast⟩
    · exact ⟨[], rfl, .inl rfl, fun _ => rfl, fun hblock => absurd hblock hmulti⟩
  rw [isIgnoring_eq] at hignore
  obtain ⟨lead, rest, hline, hlead, hskip⟩ := exists_lead (skips_skipOf c.isMultiLine) hignore
  rw [hline] at hbody hlast
  exact ⟨earlier, lead, rest, closing,
    ⟨hbody ▸ hparts, hbody, hclosing, hends, hsingle, hlast, hlead, hskip⟩⟩

/-- A comment of a text tells the compiler to ignore errors. -/
def isIgnoreComment (c : Comment) (source : String) : Result Bool :=
  (c.body source).map (isIgnoring c)

theorem isIgnoreComment_eq {c : Comment} {source written : String}
    (h : c.text source = .ok written) :
    isIgnoreComment c source = .ok (isIgnoring c (c.strip written)) := by
  rw [isIgnoreComment, Comment.body, h]
  rfl

/-- What the rewrite makes of a comment that ignores errors. -/
structure Settled (c : Comment) (body : String) (earlier lead rest : List Char) : Prop where
  /-- If no earlier line spells the directive, the one that counts becomes the other one. -/
  settles : occursIn ignoreDirective earlier = false →
    (corrected c body).toList =
      c.opening ++ (earlier ++ (lead ++ (expectDirective ++ rest)) ++ ending c)
  /-- Otherwise the line with the directive that counts stays as it is. -/
  stays : occursIn ignoreDirective earlier = true →
    ∃ earlier', EndsLine earlier' ∧ (corrected c body).toList =
      c.opening ++ (earlier' ++ (lead ++ (ignoreDirective ++ rest)) ++ ending c)
  recognised : isIgnoreComment (wholeText c (corrected c body)) (corrected c body) =
    .ok (occursIn ignoreDirective earlier)

/-- The line that a directive counts on in a text of earlier lines and a last one. -/
theorem directiveLine_append {isMultiLine : Bool} {earlier line : List Char}
    (hends : EndsLine earlier) (hsingle : isMultiLine = false → earlier = [])
    (hlast : isMultiLine = true → '\n' ∉ line) :
    directiveLine isMultiLine (earlier ++ line) = line := by
  cases isMultiLine with
  | false => rw [hsingle rfl, List.nil_append]; rfl
  | true => exact lastLine_append hends (hlast rfl)

/-- A comment that is the whole of a text is recognised by its directive line. -/
theorem isIgnoreComment_wholeText {c : Comment} {text : String} {earlier line : List Char}
    (htext : text.toList = c.opening ++ (earlier ++ line ++ ending c)) (hends : EndsLine earlier)
    (hsingle : c.isMultiLine = false → earlier = [])
    (hlast : c.isMultiLine = true → '\n' ∉ line) :
    isIgnoreComment (wholeText c text) text =
      .ok (ignoreDirective.isPrefixOf (skipOf c.isMultiLine line)) := by
  have hbody : ((wholeText c text).strip text).toList = earlier ++ line := strip_of_ending htext
  rw [isIgnoreComment_eq (text_wholeText c text), isIgnoring_eq, hbody]
  exact congrArg (fun line => Except.ok (ignoreDirective.isPrefixOf (skipOf c.isMultiLine line)))
    (directiveLine_append hends hsingle hlast)

/-- The rewrite settles a comment just if no earlier line spells the directive. -/
theorem Spelled.settled {c : Comment} {written : String} {earlier lead rest closing : List Char}
    (h : Spelled c written earlier lead rest closing) :
    Settled c (c.strip written) earlier lead rest := by
  have hnew := toList_corrected c (c.strip written)
  rw [h.body, replaceFirst_body h.ends h.first] at hnew
  obtain ⟨hkept, hreplaced⟩ := isPrefixOf_skip (skips_skipOf c.isMultiLine) h.skipped rest
  by_cases hoccurs : occursIn ignoreDirective earlier = true
  · have hmulti : c.isMultiLine = true := by
      by_contra hline
      rw [h.single (Bool.eq_false_iff.mpr hline), occursIn_nil_of_ne ignoreDirective_ne_nil]
        at hoccurs
      cases hoccurs
    have hsingle : c.isMultiLine = false →
        replaceFirst ignoreDirective expectDirective earlier = [] :=
      fun hline => absurd hmulti (hline ▸ Bool.false_ne_true)
    rw [if_pos hoccurs] at hnew
    exact {
      settles := fun hfree => absurd hoccurs (hfree ▸ Bool.false_ne_true)
      stays := fun _ => ⟨_, h.ends.replaceFirst, hnew⟩
      recognised := by
        rw [isIgnoreComment_wholeText hnew h.ends.replaceFirst hsingle h.last, hkept, hoccurs] }
  · have hlast : c.isMultiLine = true → '\n' ∉ lead ++ (expectDirective ++ rest) := by
      intro hblock
      have hline := h.last hblock
      simp only [List.mem_append, not_or] at hline ⊢
      exact ⟨hline.1, lineFeed_not_mem_directives.2, hline.2.2⟩
    rw [if_neg hoccurs] at hnew
    exact {
      settles := fun _ => hnew
      stays := fun hspelled => absurd hspelled hoccurs
      recognised := by
        rw [isIgnoreComment_wholeText hnew h.ends h.single hlast, hreplaced,
          Bool.eq_false_iff.mpr hoccurs] }

section

variable {f : SourceFile}

/-- The report is the one for a comment of the file that ignores errors. -/
def IsReportOf (f : SourceFile) (found : Report) : Prop :=
  ∃ c ∈ f.comments, ∃ body, c.body f.text = .ok body ∧ isIgnoring c body = true ∧
    found = report f c body

theorem isReportOf_of_reports {c : Comment} (hc : c ∈ f.comments) {here : List Report}
    (hhere : reports f c = .ok here) : ∀ found ∈ here, IsReportOf f found := by
  obtain ⟨body, hbody, h⟩ := Result.bind_eq_ok_iff.mp hhere
  cases h
  split_ifs with hignore
  · exact List.forall_mem_singleton.mpr ⟨c, hc, body, hbody, hignore, rfl⟩
  · exact List.forall_mem_nil _

theorem gives_checkComments {comments : List Comment} (hcomments : ∀ c ∈ comments, c ∈ f.comments) :
    (checkComments f comments).Gives f fun reports => ∀ found ∈ reports, IsReportOf f found := by
  induction comments with
  | nil => exact gives_pure (List.forall_mem_nil _)
  | cons c rest ih =>
    obtain ⟨hc, hrest⟩ := List.forall_mem_cons.mp hcomments
    have hbehind (here : List Report) (hhere : ∀ found ∈ here, IsReportOf f found) :
        (checkComments f rest >>= fun others => pure (here ++ others)).Gives f fun reports =>
          ∀ found ∈ reports, IsReportOf f found :=
      gives_bind (ih hrest) fun others hothers =>
        gives_pure (List.forall_mem_append.mpr ⟨hhere, hothers⟩)
    refine gives_bind (gives_any _) fun first _ => ?_
    dsimp only
    split_ifs
    · exact gives_bind (gives_lift _) fun here hhere =>
        hbehind here (isReportOf_of_reports hc hhere)
    · exact gives_bind (gives_pure rfl) fun here hhere =>
        hbehind here (hhere ▸ List.forall_mem_nil _)

theorem gives_check (r : NodeRef) :
    (check r).Gives f fun reports => ∀ found ∈ reports, IsReportOf f found := by
  refine gives_bind gives_file ?_
  rintro _ rfl
  exact gives_checkComments fun _ => Shown.mem_comments_of_mem_leadingComments

end

/-- Every finding in a built file is about a comment that ignores errors, and its fix writes the
    comment anew: with the other directive in place of the one that counts, so that it is not
    recognised any more, unless an earlier line of a block comment spells the directive; in that
    case the line that counts stays as it is, and the comment is still recognised. -/
theorem lint_comments_settled {fileName : String} {p : TypeLint.Program} {b : Built}
    (hb : build fileName p = .ok b) {category : Category} {oracle oracle' : Option Oracle}
    {found : List Diagnostic}
    (hlint : Linter.lint ⟨[⟨rule, category⟩]⟩ b.file oracle = .ok (.ok (found, oracle')))
    {d : Diagnostic} (hd : d ∈ found) :
    ∃ c ∈ b.file.comments, ∃ written, c.text b.file.text = .ok written ∧
      isIgnoreComment c b.file.text = .ok true ∧ (d.start, d.stop) = (c.pos, c.stop) ∧
      (∃ description, d.fixes =
        [⟨description, [⟨b.file.fileName, c.pos, c.stop, corrected c (c.strip written)⟩]⟩]) ∧
      ∃ earlier lead rest closing, Spelled c written earlier lead rest closing ∧
        Settled c (c.strip written) earlier lead rest := by
  obtain ⟨_, hrule, found, ⟨c, hc, body, hbody, hignore, rfl⟩, rfl, -⟩ := Linter.exists_finding
    (P := IsReportOf b.file)
    { checkFile := List.forall_mem_singleton.mpr (gives_pure (List.forall_mem_nil _))
      check := List.forall_mem_singleton.mpr fun r _ _ _ => gives_check r } hlint hd
  obtain rfl := List.mem_singleton.mp hrule
  obtain ⟨written, inner, htext, hparts⟩ := (shown_of_build hb).1.exists_text_eq hc
  obtain rfl : c.strip written = body := by
    rw [Comment.body, htext] at hbody
    exact Except.ok.inj hbody
  obtain ⟨earlier, lead, rest, closing, hspelled⟩ := exists_spelled hparts hignore
  exact ⟨c, hc, written, htext, (isIgnoreComment_eq htext).trans (congrArg _ hignore), rfl,
    ⟨_, rfl⟩, earlier, lead, rest, closing, hspelled, hspelled.settled⟩

/-- A comment in front of `x;` -/
def commented (comment : String) : TypeLint.Program :=
  [.comment comment, .statement (.expression (.identifier "x"))]

/-- The comments of the file of a program, and the ranges of the findings in it with what their
    fixes write. -/
def rewrites? (p : TypeLint.Program) :
    Option (List Comment × List (Nat × Nat × List String)) := do
  let b ← (build "a.ts" p).toOption
  let found ← (Linter.outcome ⟨[⟨rule, .error⟩]⟩ b.file none).toOption
  let found ← found.toOption
  some (b.file.comments.toList, found.map fun d =>
    (d.start, d.stop, d.fixes.flatMap fun fix => fix.edits.map (·.newText)))

/-- In a file with one comment, the finding with one fix is about that comment. -/
theorem exists_of_rewrites? {p : TypeLint.Program} {new : String} {c : Comment}
    {start stop : Nat} (h : rewrites? p = some ([c], [(start, stop, [new])])) :
    ∃ b found oracle d, build "a.ts" p = .ok b ∧
      Linter.lint ⟨[⟨rule, .error⟩]⟩ b.file none = .ok (.ok (found, oracle)) ∧ d ∈ found ∧
      (∀ c' ∈ b.file.comments, c' = c) ∧ c ∈ b.file.comments ∧
      (d.start, d.stop) = (start, stop) ∧
      d.fixes.flatMap (fun fix => fix.edits.map (·.newText)) = [new] := by
  obtain ⟨b, hb, h⟩ := Option.bind_eq_some_iff.mp h
  obtain ⟨outcome, houtcome, h⟩ := Option.bind_eq_some_iff.mp h
  obtain ⟨found, hfound, h⟩ := Option.bind_eq_some_iff.mp h
  obtain rfl := eq_ok_of_toOption hfound
  obtain ⟨oracle, hlint⟩ := Linter.lint_of_outcome (eq_ok_of_toOption houtcome)
  obtain ⟨hcomments, h⟩ := Prod.mk.inj (Option.some.inj h)
  obtain ⟨d, rfl, hd⟩ := List.map_eq_singleton_iff.mp h
  obtain ⟨hstart, hd⟩ := Prod.mk.inj hd
  obtain ⟨hstop, hfixes⟩ := Prod.mk.inj hd
  refine ⟨b, [d], oracle, d, eq_ok_of_toOption hb, hlint, List.mem_singleton_self d,
    fun c' hc' => ?_, ?_, Prod.ext hstart hstop, hfixes⟩
  · rw [← Array.mem_toList_iff, hcomments] at hc'
    exact List.mem_singleton.mp hc'
  · rw [← Array.mem_toList_iff, hcomments]
    exact List.mem_singleton_self c

theorem lint_comments_settled_block :
    ∃ b found oracle d, build "a.ts" (commented "/* first\n * @ts-ignore */") = .ok b ∧
      Linter.lint ⟨[⟨rule, .error⟩]⟩ b.file none = .ok (.ok (found, oracle)) ∧ d ∈ found ∧
      ∃ c ∈ b.file.comments, ∃ written, (d.start, d.stop) = (c.pos, c.stop) ∧
        c.text b.file.text = .ok written ∧
        corrected c (c.strip written) = "/* first\n * @ts-expect-error */" ∧
        ∃ earlier lead rest closing, Spelled c written earlier lead rest closing ∧
          Settled c (c.strip written) earlier lead rest ∧
          occursIn ignoreDirective earlier = false := by
  have hrun : rewrites? (commented "/* first\n * @ts-ignore */") =
      some ([⟨0, 25, true, true⟩], [(0, 25, ["/* first\n * @ts-expect-error */"])]) := by
    decide +kernel
  obtain ⟨b, found, oracle, d, hb, hlint, hd, hcomments, -⟩ := exists_of_rewrites? hrun
  have htext : b.file.text = "/* first\n * @ts-ignore */\nx;\n" :=
    of_build hb (fun b => b.file.text = "/* first\n * @ts-ignore */\nx;\n") (by decide +kernel)
  obtain ⟨c, hc, written, hwritten, -, hrange, -, earlier, lead, rest, closing, hspelled,
    hsettled⟩ := lint_comments_settled hb hlint hd
  obtain rfl := hcomments c hc
  rw [htext] at hwritten
  obtain rfl : "/* first\n * @ts-ignore */" = written :=
    Except.ok.inj (Eq.trans (by decide +kernel) hwritten)
  have hfree : occursIn ignoreDirective earlier = false :=
    Except.ok.inj (hsettled.recognised.symm.trans (by decide +kernel))
  exact ⟨b, found, oracle, d, hb, hlint, hd, _, hc, _, hrange, htext ▸ hwritten,
    by decide +kernel, earlier, lead, rest, closing, hspelled, hsettled, hfree⟩

/-- When both lines of a block comment spell the directive, the rewrite changes the one that does
    not count, and the comment still ignores errors. -/
theorem lint_comment_unsettled :
    ∃ b found oracle d c, build "a.ts" (commented "/* @ts-ignore\n * @ts-ignore */") = .ok b ∧
      Linter.lint ⟨[⟨rule, .error⟩]⟩ b.file none = .ok (.ok (found, oracle)) ∧ d ∈ found ∧
      c ∈ b.file.comments ∧ (d.start, d.stop) = (c.pos, c.stop) ∧
      isIgnoreComment c b.file.text = .ok true ∧
      d.fixes.flatMap (fun fix => fix.edits.map (·.newText)) =
        ["/* @ts-expect-error\n * @ts-ignore */"] ∧
      isIgnoreComment (wholeText c "/* @ts-expect-error\n * @ts-ignore */")
        "/* @ts-expect-error\n * @ts-ignore */" = .ok true := by
  have hrun : rewrites? (commented "/* @ts-ignore\n * @ts-ignore */") =
      some ([⟨0, 30, true, true⟩], [(0, 30, ["/* @ts-expect-error\n * @ts-ignore */"])]) := by
    decide +kernel
  obtain ⟨b, found, oracle, d, hb, hlint, hd, -, hc, hrange, hfixes⟩ := exists_of_rewrites? hrun
  have htext : b.file.text = "/* @ts-ignore\n * @ts-ignore */\nx;\n" :=
    of_build hb (fun b => b.file.text = "/* @ts-ignore\n * @ts-ignore */\nx;\n")
      (by decide +kernel)
  exact ⟨b, found, oracle, d, _, hb, hlint, hd, hc, hrange, by rw [htext]; decide +kernel, hfixes,
    by decide +kernel⟩

end TypeLint.Rules.SuppressionComment
