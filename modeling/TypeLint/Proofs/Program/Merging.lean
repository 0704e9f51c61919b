import TypeLint.Proofs.Program.Lexemes

namespace TypeLint.Syntax

namespace Kind

/-- A text goes on into the next one with a longer punctuator. -/
def joins (text next : String) : Bool :=
  all.any fun k => k.isPunctuation && k.text?.any fun longer =>
    text.toList.length < longer.toList.length && text.toList.isPrefixOf longer.toList &&
      longer.toList.isPrefixOf (text.toList ++ next.toList)

/-- The punctuation with which an expression begins. -/
def startMarks : List Kind :=
  [.openParenToken, .openBracketToken, .openBraceToken, .lessThanToken, .plusToken, .minusToken,
    .exclamationToken, .tildeToken, .plusPlusToken, .minusMinusToken]

/-- The punctuation with which an expression ends. -/
def endMarks : List Kind :=
  [.closeParenToken, .closeBracketToken, .closeBraceToken, .exclamationToken, .plusPlusToken,
    .minusMinusToken]

/-- What ends a statement, the head of a clause, a part of a template, or the file. -/
def stopMarks : List Kind :=
  [.semicolonToken, .colonToken, .closeBraceToken, .templateMiddle, .templateTail, .endOfFileToken]

/-- What stands right in front of an expression. -/
def openers : List Kind :=
  stopMarks ++ ([.openParenToken, .closeParenToken, .openBracketToken, .openBraceToken,
    .lessThanToken, .greaterThanToken, .plusToken, .minusToken, .exclamationToken, .tildeToken,
    .plusPlusToken, .minusMinusToken, .templateHead] : List Kind)

/-- What stands right behind an expression. -/
def closers : List Kind :=
  [.closeParenToken, .closeBracketToken, .closeBraceToken, .commaToken, .semicolonToken,
    .colonToken, .dotToken, .questionDotToken, .openBracketToken, .openParenToken,
    .exclamationToken, .plusPlusToken, .minusMinusToken, .greaterThanToken, .endOfFileToken]

/-- An expression may begin with a token of the kind. -/
def starts (k : Kind) : Bool := !k.isPunctuation || startMarks.contains k

/-- An expression may end with a token of the kind. -/
def ends (k : Kind) : Bool := !k.isPunctuation || endMarks.contains k

/-- A token of the kind may stand right in front of an expression. -/
def opens (k : Kind) : Bool := openers.contains k

/-- A token of the kind may stand right behind an expression. -/
def closes (k : Kind) : Bool := closers.contains k

/-- A token of the kind ends something that is no expression. -/
def stops (k : Kind) : Bool := stopMarks.contains k

theorem opens_of_stops {k : Kind} (h : k.stops = true) : k.opens = true := by
  have hall : ∀ k ∈ stopMarks, k.opens = true := by decide
  exact hall k (List.contains_iff_mem.mp h)

theorem mem_startMarks {k : Kind} (h : k.starts = true) (hmark : k.isPunctuation = true) :
    k ∈ startMarks := by
  simpa [starts, hmark] using h

theorem mem_endMarks {k : Kind} (h : k.ends = true) (hmark : k.isPunctuation = true) :
    k ∈ endMarks := by
  simpa [ends, hmark] using h

/-- A sign goes on with the same sign. -/
def signsMeet (k next : Kind) : Bool :=
  k == .plusToken && (next == .plusToken || next == .plusPlusToken) ||
    k == .minusToken && (next == .minusToken || next == .minusMinusToken)

theorem joins_opener_start : ∀ k ∈ openers, ∀ next ∈ startMarks, k.isPunctuation = true →
    joins (k.text?.getD "") (next.text?.getD "") = signsMeet k next := by
  decide +kernel

theorem joins_end_closer : ∀ k ∈ endMarks, ∀ next ∈ closers,
    joins (k.text?.getD "") (next.text?.getD "") = false := by
  decide +kernel

theorem text?_of_isPunctuation {k : Kind} (h : k.isPunctuation = true) :
    k.text? = some (k.text?.getD "") := by
  cases k <;> first | rfl | cases h

end Kind

namespace Lexeme

/-- Names, keywords and numbers. -/
def isWord (a : Lexeme) : Bool :=
  a.kind.isKeyword || [.identifier, .numericLiteral, .bigIntLiteral].contains a.kind

/-- A number of digits, which a point would continue. -/
def isInteger (a : Lexeme) : Bool :=
  a.kind == .numericLiteral && !a.text.isEmpty && a.text.toList.all fun c => c.isDigit || c == '_'

/-- The token begins with a point. -/
def isPointed (a : Lexeme) : Bool := a.text.toList.head? == some '.'

/-- With nothing between them, two tokens begin a longer punctuator, or both are words, or a point
    stands right behind an integer. -/
def Merges (a b : Lexeme) : Prop :=
  b.lead = "" ∧
    (a.kind.isPunctuation = true ∧ b.kind.isPunctuation = true ∧ Kind.joins a.text b.text = true ∨
      a.isWord = true ∧ b.isWord = true ∨ a.isInteger = true ∧ b.isPointed = true)

instance : DecidableRel Merges := fun _ _ => inferInstanceAs (Decidable (_ ∧ _))

/-- No token merges with the one behind it. -/
abbrev Apart (as : List Lexeme) : Prop := as.IsChain fun a b => ¬ a.Merges b

/-- A sign stands right in front of a token that begins with the same sign, or an integer right in
    front of a point. -/
def Glued (a b : Lexeme) : Prop :=
  b.lead = "" ∧
    (Kind.signsMeet a.kind b.kind = true ∨ a.isInteger = true ∧ b.isPointed = true)

/-- One token ends an expression and the other one stands behind it, or one token stands in front of
    an expression and the other one begins it. -/
def Around (a b : Lexeme) : Prop :=
  b.lead = "" →
    a.kind.ends = true ∧ b.kind.closes = true ∨ a.kind.opens = true ∧ b.kind.starts = true

theorem text_eq_of_isPunctuation {a : Lexeme} (ha : a.IsSpelled)
    (hmark : a.kind.isPunctuation = true) : a.text = a.kind.text?.getD "" :=
  ha _ (Kind.text?_of_isPunctuation hmark)

theorem isWord_eq_false_of_closes {a : Lexeme} (h : a.kind.closes = true) :
    a.isWord = false := by
  have hall : ∀ k ∈ Kind.closers,
      (k.isKeyword || [.identifier, .numericLiteral, .bigIntLiteral].contains k) = false := by
    decide
  exact hall _ (List.contains_iff_mem.mp h)

theorem not_word_of_opens {a : Lexeme} (h : a.kind.opens = true) :
    a.isWord = false ∧ a.isInteger = false := by
  have hall : ∀ k ∈ Kind.openers,
      (k.isKeyword || [.identifier, .numericLiteral, .bigIntLiteral].contains k) = false ∧
        (k == .numericLiteral) = false := by
    decide
  obtain ⟨hword, hnumber⟩ := hall _ (List.contains_iff_mem.mp h)
  exact ⟨hword, by rw [isInteger, hnumber, Bool.false_and, Bool.false_and]⟩

theorem isPunctuation_of_signsMeet {k next : Kind} (h : Kind.signsMeet k next = true) :
    k.isPunctuation = true ∧ next.isPunctuation = true ∧ k.ends = false := by
  rw [Kind.signsMeet, Bool.or_eq_true, Bool.and_eq_true, Bool.and_eq_true, Bool.or_eq_true,
    Bool.or_eq_true] at h
  simp only [beq_iff_eq] at h
  rcases h with ⟨rfl, rfl | rfl⟩ | ⟨rfl, rfl | rfl⟩ <;> exact ⟨rfl, rfl, rfl⟩

/-- At an end of an expression two tokens merge only if they are glued. -/
theorem Around.merges_iff {a b : Lexeme} (h : a.Around b) (ha : a.IsSpelled) (hb : b.IsSpelled) :
    a.Merges b ↔ a.Glued b := by
  refine and_congr_right fun hlead => ?_
  rcases h hlead with ⟨hends, hcloses⟩ | ⟨hopens, hstarts⟩
  · have hword := isWord_eq_false_of_closes hcloses
    have hsigns : Kind.signsMeet a.kind b.kind = false := by
      by_contra hmeet
      have hnot := (isPunctuation_of_signsMeet (by simpa using hmeet)).2.2
      exact Bool.false_ne_true (hnot.symm.trans hends)
    have hjoins (hmark : a.kind.isPunctuation = true) (hmark' : b.kind.isPunctuation = true) :
        Kind.joins a.text b.text = false := by
      rw [text_eq_of_isPunctuation ha hmark, text_eq_of_isPunctuation hb hmark']
      exact Kind.joins_end_closer _ (Kind.mem_endMarks hends hmark) _
        (List.contains_iff_mem.mp hcloses)
    constructor
    · rintro (⟨hmark, hmark', hjoin⟩ | ⟨-, hword'⟩ | hpoint)
      · cases (hjoins hmark hmark').symm.trans hjoin
      · cases hword.symm.trans hword'
      · exact .inr hpoint
    · rintro (hmeet | hpoint)
      · cases hsigns.symm.trans hmeet
      · exact .inr (.inr hpoint)
  · obtain ⟨hword, hinteger⟩ := not_word_of_opens hopens
    have hjoins (hmark : a.kind.isPunctuation = true) (hmark' : b.kind.isPunctuation = true) :
        Kind.joins a.text b.text = Kind.signsMeet a.kind b.kind := by
      rw [text_eq_of_isPunctuation ha hmark, text_eq_of_isPunctuation hb hmark']
      exact Kind.joins_opener_start _ (List.contains_iff_mem.mp hopens) _
        (Kind.mem_startMarks hstarts hmark') hmark
    constructor
    · rintro (⟨hmark, hmark', hjoin⟩ | ⟨hword', -⟩ | ⟨hinteger', -⟩)
      · exact .inl ((hjoins hmark hmark').symm.trans hjoin)
      · cases hword.symm.trans hword'
      · cases hinteger.symm.trans hinteger'
    · rintro (hmeet | ⟨hinteger', -⟩)
      · obtain ⟨hmark, hmark', -⟩ := isPunctuation_of_signsMeet hmeet
        exact .inl ⟨hmark, hmark', (hjoins hmark hmark').trans hmeet⟩
      · cases hinteger.symm.trans hinteger'

theorem isChain_led_iff {trivia : String} {as : List Lexeme} :
    Apart (led trivia as) ↔ Apart as := by
  match as with
  | [] => exact Iff.rfl
  | [a] => simp only [led, Apart, List.isChain_singleton]
  | a :: b :: rest =>
    rw [led, Apart, Apart, List.isChain_cons_cons, List.isChain_cons_cons]
    exact Iff.rfl

end Lexeme

end TypeLint.Syntax
