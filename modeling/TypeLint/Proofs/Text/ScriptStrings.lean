import TypeLint.Json.Reader
import TypeLint.Text.Units
import TypeLint.Proofs.Text.Searching

namespace TypeLint.Text

/-- The UTF-16 units of a code point. -/
def codeUnits (n : Nat) : List Nat :=
  if n < 0x10000 then [n] else [0xD800 + (n - 0x10000) / 0x400, 0xDC00 + (n - 0x10000) % 0x400]

/-- Where a reader stands behind the opening quote. -/
inductive LiteralReader where
  | plain
  /-- Behind a backslash. -/
  | escape
  /-- Behind a backslash and a carriage return, to which a line feed may belong. -/
  | lineBreak
  /-- Behind `\0`, which no digit may follow. -/
  | null
  /-- Inside an escape by number, with some digits to come besides the next one. -/
  | digits (left value : Nat)
  /-- Behind `\u`. -/
  | codePoint
  /-- Inside an escape by number in braces. -/
  | braced (value : Option Nat)
  deriving DecidableEq

/-- What a reader makes of a character. -/
inductive Reading where
  | fail
  | close
  | go (next : LiteralReader) (written : List Nat)
  deriving DecidableEq

/-- The units that a letter behind a backslash stands for. -/
def namedUnits : Char → List Nat
  | 'b' => [8]
  | 't' => [9]
  | 'n' => [10]
  | 'v' => [11]
  | 'f' => [12]
  | 'r' => [13]
  | c => units c

/-- A character that no backslash stands in front of. The separators of lines and of paragraphs
    may stand in a literal, the other ends of lines may not. -/
def readPlain (quote c : Char) : Reading :=
  if c = quote then .close
  else if c = '\\' then .go .escape []
  else if c = '\n' ∨ c = '\r' then .fail
  else .go .plain (units c)

/-- A character behind a backslash. An end of a line is skipped. As in strict code, no digit but a
    lone zero may stand here. -/
def readEscape (c : Char) : Reading :=
  if c = '\n' ∨ c = '\u2028' ∨ c = '\u2029' then .go .plain []
  else if c = '\r' then .go .lineBreak []
  else if c = 'x' then .go (.digits 1 0) []
  else if c = 'u' then .go .codePoint []
  else if c = '0' then .go .null [0]
  else if c.isDigit then .fail
  else .go .plain (namedUnits c)

/-- One digit of an escape by number. -/
def readDigit (left value : Nat) (c : Char) : Reading :=
  match Json.hexValue? c, left with
  | none, _ => .fail
  | some digit, 0 => .go .plain [16 * value + digit]
  | some digit, left + 1 => .go (.digits left (16 * value + digit)) []

/-- A character of an escape by number in braces. -/
def readBraced (value : Option Nat) (c : Char) : Reading :=
  match Json.hexValue? c, value with
  | some digit, _ =>
    let value := 16 * value.getD 0 + digit
    if value ≤ 0x10FFFF then .go (.braced (some value)) [] else .fail
  | none, some value => if c = '\x7d' then .go .plain (codeUnits value) else .fail
  | none, none => .fail

/-- Reads one character. -/
def LiteralReader.step (quote : Char) : LiteralReader → Char → Reading
  | plain, c => readPlain quote c
  | escape, c => readEscape c
  | lineBreak, c => if c = '\n' then .go .plain [] else readPlain quote c
  | null, c => if c.isDigit then .fail else readPlain quote c
  | digits left value, c => readDigit left value c
  | codePoint, c => if c = '\x7b' then .go (.braced none) [] else readDigit 3 0 c
  | braced value, c => readBraced value c

/-- Reads to the closing quote, behind which nothing may stand. -/
def LiteralReader.run (quote : Char) : LiteralReader → List Char → Option (List Nat)
  | _, [] => none
  | r, c :: rest =>
    match r.step quote c with
    | .fail => none
    | .close => if rest.isEmpty then some [] else none
    | .go next written => (next.run quote rest).map (written ++ ·)

/-- The UTF-16 units that a literal between single or double quotes denotes, if it is well
    formed. -/
def denotedUnits? (literal : String) : Option (List Nat) :=
  match literal.toList with
  | [] => none
  | quote :: rest =>
    if quote = '\x27' ∨ quote = '\x22' then LiteralReader.plain.run quote rest else none

/-- The literal is well formed and denotes the text. -/
def Denotes (literal text : String) : Prop :=
  denotedUnits? literal = some (text.toList.flatMap units)

instance (literal text : String) : Decidable (Denotes literal text) :=
  inferInstanceAs (Decidable (_ = _))

/-- What stands behind the backslash in front of a character. -/
def escapeLetter (c : Char) : Char := if c = '\n' then 'n' else if c = '\r' then 'r' else c

/-- A text in which the marks stand behind a backslash. -/
def escapeMarks (marks text : List Char) : List Char :=
  text.flatMap fun c => if c ∈ marks then ['\\', escapeLetter c] else [c]

/-- The characters that do not stand for themselves between quotes. -/
def specials (quote : Char) : List Char := [quote, '\\', '\n', '\r']

section

variable {marks text rest : List Char} {c : Char}

theorem escapeMarks_cons_of_mem (h : c ∈ marks) :
    escapeMarks marks (c :: text) = '\\' :: escapeLetter c :: escapeMarks marks text := by
  rw [escapeMarks, List.flatMap_cons, if_pos h]
  rfl

theorem escapeMarks_cons_of_not_mem (h : c ∉ marks) :
    escapeMarks marks (c :: text) = c :: escapeMarks marks text := by
  rw [escapeMarks, List.flatMap_cons, if_neg h]
  rfl

theorem escapeMarks_append (front back : List Char) :
    escapeMarks marks (front ++ back) = escapeMarks marks front ++ escapeMarks marks back :=
  List.flatMap_append

/-- A text without marks is written as it is. -/
theorem escapeMarks_of_forall_not_mem (h : ∀ c ∈ text, c ∉ marks) :
    escapeMarks marks text = text := by
  induction text with
  | nil => rfl
  | cons c text ih =>
    obtain ⟨hc, htext⟩ := List.forall_mem_cons.mp h
    rw [escapeMarks_cons_of_not_mem hc, ih htext]

theorem replaceAll_mark (mark : Char) (text : List Char) :
    replaceAll [mark] ['\\', escapeLetter mark] text = escapeMarks [mark] text := by
  rw [replaceAll_singleton, escapeMarks]
  refine List.flatMap_congr fun c _ => ?_
  by_cases hc : c = mark
  · rw [if_pos hc, if_pos (List.mem_singleton.mpr hc), hc]
  · rw [if_neg hc, if_neg (List.mem_singleton.not.mpr hc)]

/-- Another mark is escaped without harm to the escapes that are there. -/
theorem replaceAll_escapeMarks {mark : Char} (hslash : mark ≠ '\\')
    (hletters : ∀ m ∈ marks, escapeLetter m ≠ mark) (text : List Char) :
    replaceAll [mark] ['\\', escapeLetter mark] (escapeMarks marks text) =
      escapeMarks (mark :: marks) text := by
  rw [replaceAll_singleton, escapeMarks, escapeMarks, List.flatMap_assoc]
  refine List.flatMap_congr fun c _ => ?_
  by_cases hc : c ∈ marks
  · rw [if_pos hc, if_pos (List.mem_cons_of_mem _ hc), List.flatMap_cons, List.flatMap_singleton,
      if_neg hslash.symm, if_neg (hletters c hc)]
    rfl
  · rw [if_neg hc, List.flatMap_singleton]
    by_cases hmark : c = mark
    · rw [if_pos hmark, if_pos (hmark ▸ List.mem_cons_self), hmark]
    · rw [if_neg hmark, if_neg (List.mem_cons.not.mpr (not_or.mpr ⟨hmark, hc⟩))]

end

section

variable {quote : Char} {r next : LiteralReader} {written : List Nat} {c : Char}

theorem run_of_step_go (h : r.step quote c = .go next written) (rest : List Char) :
    r.run quote (c :: rest) = (next.run quote rest).map (written ++ ·) := by
  rw [LiteralReader.run, h]

theorem run_of_step_close (h : r.step quote c = .close) {rest : List Char} (hrest : rest ≠ []) :
    r.run quote (c :: rest) = none := by
  rw [LiteralReader.run, h]
  exact if_neg fun hempty => hrest (List.isEmpty_iff.mp hempty)

theorem run_of_step_fail (h : r.step quote c = .fail) (rest : List Char) :
    r.run quote (c :: rest) = none := by
  rw [LiteralReader.run, h]

/-- A character that is not special stands for itself. -/
theorem step_plain_of_not_special (h : c ∉ specials quote) :
    LiteralReader.plain.step quote c = .go .plain (units c) := by
  simp only [specials, List.mem_cons, List.not_mem_nil, or_false, not_or] at h
  obtain ⟨hquote, hslash, hfeed, hreturn⟩ := h
  rw [LiteralReader.step, readPlain, if_neg hquote, if_neg hslash,
    if_neg (not_or.mpr ⟨hfeed, hreturn⟩)]

/-- How many units a reader has still to write at most for characters that it has read. -/
def LiteralReader.slack : LiteralReader → Nat
  | escape | braced _ => 1
  | _ => 0

theorem length_units_pos (c : Char) : 0 < (units c).length := by
  rw [units]
  split_ifs <;> exact Nat.succ_pos _

theorem slack_readPlain (h : readPlain quote c = .go next written) :
    written.length + next.slack ≤ (units c).length := by
  rw [readPlain] at h
  split_ifs at h
  · cases h
    exact length_units_pos c
  · cases h
    exact Nat.le_refl _

theorem length_namedUnits_le (c : Char) : (namedUnits c).length ≤ (units c).length := by
  unfold namedUnits
  split <;> exact Nat.le_refl _

/-- A character behind a backslash stands for no more units than without it. -/
theorem slack_readEscape (h : readEscape c = .go next written) :
    written.length + next.slack ≤ (units c).length := by
  have hpos : 0 < (units c).length := length_units_pos c
  rw [readEscape] at h
  split_ifs at h <;> cases h
  case neg => exact length_namedUnits_le c
  all_goals first | exact hpos | exact Nat.zero_le _

theorem slack_readDigit {left value : Nat} (h : readDigit left value c = .go next written) :
    written.length + next.slack ≤ (units c).length := by
  have hpos : 0 < (units c).length := length_units_pos c
  unfold readDigit at h
  split at h <;> cases h
  · exact hpos
  · exact Nat.zero_le _

theorem length_codeUnits_le (n : Nat) : (codeUnits n).length ≤ 2 := by
  rw [codeUnits]
  split_ifs
  · exact Nat.le_succ _
  · exact Nat.le_refl _

theorem slack_readBraced {value : Option Nat} (h : readBraced value c = .go next written) :
    written.length + next.slack ≤ 1 + (units c).length := by
  have hpos : 0 < (units c).length := length_units_pos c
  unfold readBraced at h
  split at h
  · dsimp only at h
    split_ifs at h
    cases h
    exact Nat.le_add_right 1 _
  · next code _ =>
    split_ifs at h
    cases h
    exact (length_codeUnits_le code).trans (Nat.add_le_add_left hpos 1)
  · cases h

/-- A reader writes no more units than it has read, but for its slack. -/
theorem slack_step (h : r.step quote c = .go next written) :
    written.length + next.slack ≤ r.slack + (units c).length := by
  have hpos : 0 < (units c).length := length_units_pos c
  cases r with
  | plain => exact (slack_readPlain h).trans (Nat.le_add_left _ _)
  | escape => exact (slack_readEscape h).trans (Nat.le_add_left _ _)
  | lineBreak =>
    rw [LiteralReader.step] at h
    split_ifs at h
    · cases h
      exact Nat.zero_le _
    · exact (slack_readPlain h).trans (Nat.le_add_left _ _)
  | null =>
    rw [LiteralReader.step] at h
    split_ifs at h
    exact (slack_readPlain h).trans (Nat.le_add_left _ _)
  | digits left value => exact (slack_readDigit h).trans (Nat.le_add_left _ _)
  | codePoint =>
    rw [LiteralReader.step] at h
    split_ifs at h
    · cases h
      exact hpos.trans_le (Nat.le_add_left _ _)
    · exact (slack_readDigit h).trans (Nat.le_add_left _ _)
  | braced value => exact slack_readBraced h

end

section

variable {quote c : Char} {marks text : List Char}

theorem readEscape_escapeLetter (hquote : quote = '\x27' ∨ quote = '\x22')
    (hc : c ∈ specials quote) : readEscape (escapeLetter c) = .go .plain (units c) := by
  simp only [specials, List.mem_cons, List.not_mem_nil, or_false] at hc
  rcases hquote with rfl | rfl <;> rcases hc with rfl | rfl | rfl | rfl <;> decide

theorem step_plain_backslash (hquote : quote ≠ '\\') :
    LiteralReader.plain.step quote '\\' = .go .escape [] := by
  rw [LiteralReader.step, readPlain, if_neg hquote.symm, if_pos rfl]

/-- A special character behind a backslash stands for itself. -/
theorem run_plain_mark (hquote : quote = '\x27' ∨ quote = '\x22') (hc : c ∈ specials quote)
    (rest : List Char) :
    LiteralReader.plain.run quote ('\\' :: escapeLetter c :: rest) =
      (LiteralReader.plain.run quote rest).map (units c ++ ·) := by
  have hslash : quote ≠ '\\' := by rcases hquote with rfl | rfl <;> decide
  have hletter : LiteralReader.escape.step quote (escapeLetter c) = .go .plain (units c) :=
    readEscape_escapeLetter hquote hc
  rw [run_of_step_go (step_plain_backslash hslash), run_of_step_go hletter, Option.map_map]
  rfl

theorem length_units_escapeLetter_le (c : Char) :
    (units (escapeLetter c)).length ≤ (units c).length := by
  rw [escapeLetter]
  split_ifs
  · exact length_units_pos c
  · exact length_units_pos c
  · exact Nat.le_refl _

/-- A backslash is read as the beginning of an escape, or as the end of one. -/
theorem step_backslash (hquote : quote ≠ '\\') {r next : LiteralReader} {written : List Nat}
    (h : r.step quote '\\' = .go next written) :
    next = .escape ∧ written = [] ∨ r = .escape ∧ next = .plain ∧ written = units '\\' := by
  have hplain : readPlain quote '\\' = .go .escape [] := step_plain_backslash hquote
  cases r with
  | plain | lineBreak | null =>
    cases hplain.symm.trans h
    exact .inl ⟨rfl, rfl⟩
  | escape =>
    cases h
    exact .inr ⟨rfl, rfl, rfl⟩
  | digits | codePoint => cases h
  | braced value => cases value <;> cases h

/-- A mark and its backslash write no more units than the mark has, but for the slack. -/
theorem slack_mark (hquote : quote ≠ '\\') {r mid next : LiteralReader} {first second : List Nat}
    (hfirst : r.step quote '\\' = .go mid first)
    (hsecond : mid.step quote (escapeLetter c) = .go next second) :
    (first ++ second).length + next.slack ≤ r.slack + (units c).length := by
  have hlength : (units (escapeLetter c)).length ≤ (units c).length :=
    length_units_escapeLetter_le c
  rcases step_backslash hquote hfirst with ⟨rfl, rfl⟩ | ⟨rfl, rfl, rfl⟩
  · have hescape := slack_readEscape hsecond
    rw [List.nil_append]
    omega
  · have hplain := slack_readPlain hsecond
    rw [List.length_append, show (units '\\').length = 1 from rfl, LiteralReader.slack]
    omega

theorem eq_nil_or_exists_of_run {r : LiteralReader} {rest : List Char} {us : List Nat}
    (h : r.run quote (c :: rest) = some us) :
    us = [] ∨ ∃ next written others, r.step quote c = .go next written ∧
      next.run quote rest = some others ∧ us = written ++ others := by
  rw [LiteralReader.run] at h
  split at h
  · cases h
  · split_ifs at h
    exact .inl (Option.some.inj h).symm
  · next next written hstep =>
    obtain ⟨others, hothers, rfl⟩ := Option.map_eq_some_iff.mp h
    exact .inr ⟨next, written, others, hstep, hothers, rfl⟩

/-- What an escaped text in front of the closing quote denotes is no longer than the text, but for
    the slack of the reader. -/
theorem length_run_le (hquote : quote ≠ '\\') {r : LiteralReader} {us : List Nat}
    (h : r.run quote (escapeMarks marks text ++ [quote]) = some us) :
    us.length ≤ r.slack + (text.flatMap units).length := by
  induction text generalizing r us with
  | nil =>
    rcases eq_nil_or_exists_of_run h with rfl | ⟨next, written, others, -, hothers, -⟩
    · exact Nat.zero_le _
    · cases hothers
  | cons c text ih =>
    by_cases hc : c ∈ marks
    · rw [escapeMarks_cons_of_mem hc, List.cons_append, List.cons_append] at h
      rcases eq_nil_or_exists_of_run h with rfl | ⟨mid, first, others, hfirst, hothers, rfl⟩
      · exact Nat.zero_le _
      rcases eq_nil_or_exists_of_run hothers with rfl | ⟨next, second, others, hsecond, hrest, rfl⟩
      · have hslack := slack_step hfirst
        have hpos := length_units_pos c
        rw [show (units '\\').length = 1 from rfl] at hslack
        rw [List.flatMap_cons, List.append_nil, List.length_append]
        omega
      · have hlength := ih hrest
        have hmark := slack_mark hquote hfirst hsecond
        rw [List.flatMap_cons]
        simp only [List.length_append] at hmark ⊢
        omega
    · rw [escapeMarks_cons_of_not_mem hc, List.cons_append] at h
      rcases eq_nil_or_exists_of_run h with rfl | ⟨next, written, others, hstep, hothers, rfl⟩
      · exact Nat.zero_le _
      · have hlength := ih hothers
        have hslack := slack_step hstep
        rw [List.flatMap_cons]
        simp only [List.length_append]
        omega

/-- The letter of a mark without its backslash does not stand for the mark. -/
theorem run_escapeLetter_ne (hquote : quote = '\x27' ∨ quote = '\x22') (hc : c ∈ specials quote)
    (hslash : c ≠ '\\') {rest : List Char} (hrest : rest ≠ []) (us : List Nat) :
    LiteralReader.plain.run quote (escapeLetter c :: rest) ≠ some (units c ++ us) := by
  intro h
  rcases List.mem_cons.mp hc with rfl | hc
  · have hclose : LiteralReader.plain.step c (escapeLetter c) = .close := by
      rcases hquote with rfl | rfl <;> rfl
    cases (run_of_step_close hclose hrest).symm.trans h
  · have hend : c = '\n' ∨ c = '\r' := by
      rcases List.mem_cons.mp hc with hslash' | hend
      · exact absurd hslash' hslash
      · exact List.mem_pair.mp hend
    have hplain : LiteralReader.plain.step quote (escapeLetter c) =
        .go .plain (units (escapeLetter c)) := by
      refine step_plain_of_not_special ?_
      rcases hquote with rfl | rfl <;> rcases hend with rfl | rfl <;> decide
    rw [run_of_step_go hplain] at h
    obtain ⟨others, -, heq⟩ := Option.map_eq_some_iff.mp h
    rcases hend with rfl | rfl <;> cases heq

/-- A backslash in front of an escaped text does not stand for itself. -/
theorem run_escape_ne (hquote : quote = '\x27' ∨ quote = '\x22') (hmarks : marks ⊆ specials quote)
    (hslash : '\\' ∉ marks) :
    LiteralReader.escape.run quote (escapeMarks marks text ++ [quote]) ≠
      some (units '\\' ++ text.flatMap units) := by
  intro h
  cases text with
  | nil => rcases hquote with rfl | rfl <;> cases h
  | cons c text =>
    by_cases hc : c ∈ marks
    · -- The backslash of the mark ends the escape, so that its letter is read on its own.
      have hstep : LiteralReader.escape.step quote '\\' = .go .plain (units '\\') := rfl
      rw [escapeMarks_cons_of_mem hc, List.cons_append, List.cons_append, run_of_step_go hstep] at h
      obtain ⟨others, hothers, heq⟩ := Option.map_eq_some_iff.mp h
      obtain rfl := List.append_cancel_left heq
      refine run_escapeLetter_ne hquote (hmarks hc) ?_ (by simp) _ hothers
      rintro rfl
      exact hslash hc
    · -- What the character stands for behind the backslash is too short for both of them.
      have hne : quote ≠ '\\' := by rcases hquote with rfl | rfl <;> decide
      rw [escapeMarks_cons_of_not_mem hc, List.cons_append] at h
      rcases eq_nil_or_exists_of_run h with hnil | ⟨next, written, others, hstep, hothers, heq⟩
      · cases hnil
      · have hlength := length_run_le hne hothers
        have hslack := slack_readEscape hstep
        have hsum := congrArg List.length heq
        rw [List.flatMap_cons] at hsum
        simp only [List.length_append, show (units '\\').length = 1 from rfl] at hsum
        omega

/-- A special character denotes itself just if it is marked. -/
theorem run_plain_cons_eq_some_iff (hquote : quote = '\x27' ∨ quote = '\x22')
    (hmarks : marks ⊆ specials quote) :
    LiteralReader.plain.run quote (escapeMarks marks (c :: text) ++ [quote]) =
        some ((c :: text).flatMap units) ↔
      (c ∈ specials quote → c ∈ marks) ∧
        LiteralReader.plain.run quote (escapeMarks marks text ++ [quote]) =
          some (text.flatMap units) := by
  have hcancel (read : Option (List Nat)) :
      read.map (units c ++ ·) = some ((c :: text).flatMap units) ↔
        read = some (text.flatMap units) := by
    rw [List.flatMap_cons, Option.map_eq_some_iff]
    simp only [List.append_cancel_left_eq, exists_eq_right]
  by_cases hc : c ∈ marks
  · rw [escapeMarks_cons_of_mem hc, List.cons_append, List.cons_append,
      run_plain_mark hquote (hmarks hc), hcancel, and_iff_right fun _ => hc]
  · rw [escapeMarks_cons_of_not_mem hc, List.cons_append]
    by_cases hspecial : c ∈ specials quote
    · refine iff_of_false (fun h => ?_) fun h => hc (h.1 hspecial)
      rcases List.mem_cons.mp hspecial with rfl | hother
      · have hclose : LiteralReader.plain.step c c = .close := if_pos rfl
        cases (run_of_step_close hclose (by simp)).symm.trans h
      rcases List.mem_cons.mp hother with rfl | hend
      · have hne : quote ≠ '\\' := by rcases hquote with rfl | rfl <;> decide
        rw [run_of_step_go (step_plain_backslash hne), Option.map_eq_some_iff] at h
        obtain ⟨others, hothers, rfl⟩ := h
        exact run_escape_ne hquote hmarks hc hothers
      · have hfail : LiteralReader.plain.step quote c = .fail := by
          rcases hquote with rfl | rfl <;> rcases List.mem_pair.mp hend with rfl | rfl <;> rfl
        cases (run_of_step_fail hfail _).symm.trans h
    · rw [run_of_step_go (step_plain_of_not_special hspecial), hcancel,
        and_iff_right fun h => absurd h hspecial]

end

/-- A text between quotes in which the marks stand behind a backslash. -/
def enclosed (quote : Char) (marks : List Char) (text : String) : String :=
  String.ofList (quote :: escapeMarks marks text.toList ++ [quote])

/-- A text between quotes is read back just if every special character in it is marked. -/
theorem denotes_enclosed_iff {quote : Char} {marks : List Char}
    (hquote : quote = '\x27' ∨ quote = '\x22') (hmarks : marks ⊆ specials quote) (text : String) :
    Denotes (enclosed quote marks text) text ↔
      ∀ c ∈ text.toList, c ∈ specials quote → c ∈ marks := by
  rw [Denotes, denotedUnits?, enclosed, String.toList_ofList, List.cons_append]
  dsimp only
  rw [if_pos hquote]
  induction text.toList with
  | nil =>
    have hclosed : LiteralReader.plain.run quote [quote] = some [] := by
      rcases hquote with rfl | rfl <;> rfl
    exact iff_of_true hclosed (List.forall_mem_nil _)
  | cons c text ih => rw [run_plain_cons_eq_some_iff hquote hmarks, ih, List.forall_mem_cons]

end TypeLint.Text
