import TypeLint.Binding.Bind
import TypeLint.Proofs.Values.Literals

namespace TypeLint.Values

open TypeLint.Types TypeLint.Binding

/-- The digits of a text without separators, of which one may stand between two digits. -/
def unseparated? (behindDigit : Bool) : List Char → Option (List Char)
  | [] => if behindDigit then some [] else none
  | c :: rest =>
    if c = '_' then if behindDigit then unseparated? false rest else none
    else (unseparated? true rest).map (c :: ·)

/-- The radix that a mark behind a leading zero tells. -/
def radixOf? : Char → Option Nat
  | 'x' | 'X' => some 16
  | 'o' | 'O' => some 8
  | 'b' | 'B' => some 2
  | _ => none

/-- The number that a big integer literal without its suffix denotes as scripts read it. -/
def scriptMagnitude? : List Char → Option Nat
  | ['0'] => some 0
  | '0' :: mark :: digits =>
    (radixOf? mark).bind fun radix => (unseparated? false digits).bind (readIn? radix)
  | digits => (unseparated? false digits).bind (readIn? 10)

/-- The number that a big integer literal denotes as scripts read it, if it is well formed. -/
def denotedBigint? (literal : String) : Option Nat :=
  match literal.toList.reverse with
  | 'n' :: rest => scriptMagnitude? rest.reverse
  | _ => none

/-- A mark tells the radix of the literal. -/
def hasRadixMark (literal : String) : Bool :=
  match literal.toList with
  | '0' :: mark :: _ => (radixOf? mark).isSome
  | _ => false

/-- The literal has decimal digits without separators. -/
def isPlain (literal : String) : Bool := !hasRadixMark literal && !literal.toList.contains '_'

example : denotedBigint? "1_000n" = some 1000 := by decide
example : denotedBigint? "0xF_fn" = some 255 := by decide
example : denotedBigint? "01n" = none := by decide
example : denotedBigint? "1__0n" = none := by decide

variable {cs ds : List Char} {n radix : Nat} {literal : String}

theorem exists_of_denotedBigint? (h : denotedBigint? literal = some n) :
    ∃ cs, literal.toList = cs ++ ['n'] ∧ scriptMagnitude? cs = some n := by
  rw [denotedBigint?] at h
  split at h
  · next rest hrest =>
    exact ⟨rest.reverse, by rw [← List.reverse_cons, ← hrest, List.reverse_reverse], h⟩
  · cases h

theorem mem_of_unseparated? {behindDigit : Bool} (h : unseparated? behindDigit cs = some ds) :
    ∀ c ∈ cs, c = '_' ∨ c ∈ ds := by
  induction cs generalizing behindDigit ds with
  | nil => exact List.forall_mem_nil _
  | cons c rest ih =>
    rw [unseparated?] at h
    split_ifs at h with hseparator
    · exact List.forall_mem_cons.mpr ⟨.inl hseparator, ih h⟩
    · obtain ⟨tail, htail, rfl⟩ := Option.map_eq_some_iff.mp h
      refine List.forall_mem_cons.mpr ⟨.inr List.mem_cons_self, fun d hd => ?_⟩
      exact (ih htail d hd).imp_right (List.mem_cons_of_mem _)

/-- Where there are no separators, the digits are all there is. -/
theorem eq_of_unseparated? {behindDigit : Bool} (h : unseparated? behindDigit cs = some ds)
    (hplain : '_' ∉ cs) : ds = cs := by
  induction cs generalizing behindDigit ds with
  | nil =>
    rw [unseparated?] at h
    split_ifs at h
    exact (Option.some.inj h).symm
  | cons c rest ih =>
    obtain ⟨hc, hrest⟩ := not_or.mp (List.mem_cons.not.mp hplain)
    rw [unseparated?, if_neg (Ne.symm hc)] at h
    obtain ⟨tail, htail, rfl⟩ := Option.map_eq_some_iff.mp h
    rw [ih htail hrest]

theorem exists_digitIn?_of_readFrom? {m : Nat} (h : readFrom? radix m cs = some n) :
    ∀ c ∈ cs, ∃ value, digitIn? radix c = some value := by
  induction cs generalizing m with
  | nil => exact List.forall_mem_nil _
  | cons c rest ih =>
    obtain ⟨value, hvalue, hrest⟩ := Option.bind_eq_some_iff.mp h
    exact List.forall_mem_cons.mpr ⟨⟨value, hvalue⟩, ih hrest⟩

theorem exists_digitIn?_of_readIn? (h : readIn? radix cs = some n) :
    cs ≠ [] ∧ ∀ c ∈ cs, ∃ value, digitIn? radix c = some value := by
  rw [readIn?] at h
  split_ifs at h with hempty
  exact ⟨fun hnil => hempty (List.isEmpty_iff.mpr hnil), exists_digitIn?_of_readFrom? h⟩

theorem le_toLower {c : Char} (h : c.isAlpha = true) : 97 ≤ c.toLower.toNat := by
  rw [Char.isAlpha, Bool.or_eq_true] at h
  unfold Char.toLower
  split_ifs with hupper
  · have hlow : 65 ≤ c.val.toNat := UInt32.le_iff_toNat_le.mp hupper.1
    have hhigh : c.val.toNat ≤ 90 := UInt32.le_iff_toNat_le.mp hupper.2
    change 97 ≤ (c.val.toNat + 32) % 2 ^ 32
    omega
  · rcases h with h | h
    · exact absurd (by simpa [Char.isUpper] using h) hupper
    · have hlow : 97 ≤ c.val ∧ c.val ≤ 122 := by simpa [Char.isLower] using h
      exact UInt32.le_iff_toNat_le.mp hlow.1

theorem isDigit_of_digitIn? {c : Char} {value : Nat} (h : digitIn? 10 c = some value) :
    c.isDigit = true := by
  by_contra hnot
  simp only [digitIn?, if_neg hnot, Option.ite_none_right_eq_some, Bool.and_eq_true,
    decide_eq_true_iff] at h
  obtain ⟨⟨halphanum, hlt⟩, -⟩ := h
  rw [Char.isAlphanum, Bool.eq_false_iff.mpr hnot, Bool.or_false] at halphanum
  have hlow := le_toLower halphanum
  omega

/-- The suffix is no digit in any radix that a literal may have. -/
theorem digitIn?_suffix (hradix : radix ≤ 16) : digitIn? radix 'n' = none := by
  have hlarge : decide ('n'.toLower.toNat - 87 < radix) = false :=
    decide_eq_false (show ¬ 23 < radix by omega)
  rw [digitIn?]
  exact if_neg (by rw [Bool.and_eq_true, not_and_or]; exact .inr (by simpa using hlarge))

theorem suffix_not_mem_digits (hradix : radix ≤ 16)
    (h : (unseparated? false cs).bind (readIn? radix) = some n) : 'n' ∉ cs := by
  intro hmem
  obtain ⟨ds, hds, hread⟩ := Option.bind_eq_some_iff.mp h
  rcases mem_of_unseparated? hds 'n' hmem with heq | hdigit
  · cases heq
  · obtain ⟨value, hvalue⟩ := (exists_digitIn?_of_readIn? hread).2 'n' hdigit
    cases (digitIn?_suffix hradix).symm.trans hvalue

theorem le_of_radixOf? {mark : Char} (h : radixOf? mark = some radix) :
    radix ≤ 16 ∧ mark ≠ 'n' := by
  unfold radixOf? at h
  split at h <;> cases h
  all_goals exact ⟨by omega, by decide⟩

/-- How a well-formed literal is spelled without its suffix: as a zero, behind a mark, or by
    decimal digits of which the first one is not zero. -/
inductive Spelling (cs : List Char) (n : Nat) : Prop where
  | zero (hcs : cs = ['0']) (hn : n = 0)
  | marked {mark : Char} {digits : List Char} {radix : Nat} (hcs : cs = '0' :: mark :: digits)
      (hradix : radixOf? mark = some radix)
      (hread : (unseparated? false digits).bind (readIn? radix) = some n)
  | decimal {c : Char} {rest : List Char} (hcs : cs = c :: rest) (hc : c ≠ '0')
      (hread : (unseparated? false cs).bind (readIn? 10) = some n)

theorem spelling_of_scriptMagnitude? (h : scriptMagnitude? cs = some n) : Spelling cs n := by
  unfold scriptMagnitude? at h
  split at h
  · exact .zero rfl (Option.some.inj h).symm
  · obtain ⟨radix, hradix, hread⟩ := Option.bind_eq_some_iff.mp h
    exact .marked rfl hradix hread
  · next hzero hmark =>
    cases hcs : cs with
    | nil => rw [hcs] at h; cases h
    | cons c rest =>
      refine .decimal rfl (fun hc => ?_) (hcs ▸ h)
      cases rest with
      | nil => exact hzero (by rw [hcs, hc])
      | cons mark digits => exact hmark mark digits (by rw [hcs, hc])

theorem Spelling.suffix_not_mem (h : Spelling cs n) : 'n' ∉ cs := by
  cases h with
  | zero hcs _ =>
    rw [hcs]
    decide
  | marked hcs hradix hread =>
    obtain ⟨hle, hmark⟩ := le_of_radixOf? hradix
    rw [hcs, List.mem_cons, List.mem_cons]
    exact not_or.mpr ⟨by decide, not_or.mpr ⟨hmark.symm, suffix_not_mem_digits hle hread⟩⟩
  | decimal _ _ hread => exact suffix_not_mem_digits (by decide) hread

/-- What is kept of a well-formed literal is all but its suffix. -/
theorem toList_bigintDigits (h : Spelling cs n) (hcs : literal.toList = cs ++ ['n']) :
    (TypeTable.bigintDigits literal).toList = cs := by
  have hkeep : cs.reverse.dropWhile (· == 'n') = cs.reverse := by
    cases hlast : cs.reverse with
    | nil => rfl
    | cons c rest =>
      refine List.dropWhile_cons_of_neg fun hc => h.suffix_not_mem ?_
      rw [← List.mem_reverse, hlast, beq_iff_eq.mp hc]
      exact List.mem_cons_self
  rw [TypeTable.bigintDigits, String.toList_ofList, hcs, List.reverse_append,
    List.reverse_singleton, List.singleton_append, List.dropWhile_cons_of_pos rfl, hkeep,
    List.reverse_reverse]

theorem hasRadixMark_eq {c d : Char} {rest : List Char} (hcs : literal.toList = c :: d :: rest) :
    hasRadixMark literal = (c == '0' && (radixOf? d).isSome) := by
  rw [hasRadixMark, hcs]
  split
  · next heq =>
    obtain ⟨rfl, hrest⟩ := List.cons.inj heq
    obtain ⟨rfl, -⟩ := List.cons.inj hrest
    rfl
  · next hmark =>
    have hc : (c == '0') = false := beq_false_of_ne fun hc => hmark d rest (by rw [hc])
    rw [hc, Bool.false_and]

/-- Decimal digits of which the first one is not zero have a value that is not zero. -/
theorem ne_zero_of_decimal {c : Char} {rest : List Char} (hc : c ≠ '0')
    (hread : (unseparated? false (c :: rest)).bind (readIn? 10) = some n) :
    n ≠ 0 ∧ c.isDigit = true := by
  obtain ⟨ds, hds, hread⟩ := Option.bind_eq_some_iff.mp hread
  obtain ⟨hne, hdigits⟩ := exists_digitIn?_of_readIn? hread
  have hall (d : Char) (hd : d ∈ ds) : d.isDigit = true :=
    isDigit_of_digitIn? (hdigits d hd).choose_spec
  have hmem : c ∈ ds := by
    have hc' : c ≠ '_' := by
      rintro rfl
      cases hds
    exact (mem_of_unseparated? hds c List.mem_cons_self).resolve_left hc'
  refine ⟨?_, hall c hmem⟩
  rintro rfl
  rw [readIn?, if_neg (by simpa using hne)] at hread
  exact hc ((zeros_of_readFrom? hall hread).2 c hmem)

/-- What is kept of a literal counts as true if its value is not zero, and also if a mark tells its
    radix. -/
theorem Spelling.isTruthy_iff (h : Spelling cs n) (hcs : literal.toList = cs ++ ['n']) :
    (LiteralValue.bigint (TypeTable.bigintDigits literal)).isTruthy = true ↔
      n ≠ 0 ∨ hasRadixMark literal = true := by
  rw [LiteralValue.isTruthy, toList_bigintDigits h hcs]
  cases h with
  | zero hzero hn =>
    rw [hzero] at hcs
    rw [hzero, hn, hasRadixMark_eq hcs]
    decide
  | @marked mark digits radix hmarked hradix hread =>
    rw [hmarked] at hcs
    have hmark : (mark == '0') = false := beq_false_of_ne fun heq => by
      rw [heq] at hradix
      cases hradix
    rw [hmarked, hasRadixMark_eq hcs, hradix, List.dropWhile_cons_of_neg (by decide),
      List.dropWhile_cons_of_pos rfl, List.dropWhile_cons_of_neg (by rw [hmark]; decide)]
    exact ⟨fun _ => .inr rfl, fun _ => rfl⟩
  | @decimal c rest hdecimal hc hread =>
    rw [hdecimal] at hcs hread
    obtain ⟨hn, hdigit⟩ := ne_zero_of_decimal hc hread
    have hminus : (c == '-') = false := beq_false_of_ne fun heq => by
      rw [heq] at hdigit
      cases hdigit
    have hzero : (c == '0') = false := beq_false_of_ne hc
    rw [hdecimal, List.dropWhile_cons_of_neg (by rw [hminus]; decide),
      List.dropWhile_cons_of_neg (by rw [hzero]; decide)]
    exact ⟨fun _ => .inl hn, fun _ => rfl⟩

/-- A plain literal is a zero or has decimal digits without a leading zero, and nothing else. -/
theorem Spelling.digits_of_isPlain (h : Spelling cs n) (hcs : literal.toList = cs ++ ['n'])
    (hplain : isPlain literal = true) :
    cs = ['0'] ∧ n = 0 ∨ cs ≠ [] ∧ (∀ c ∈ cs, c.isDigit = true) ∧ cs.head? ≠ some '0' ∧
      n = Decimal.digitsValue cs := by
  obtain ⟨hmark, hseparator⟩ : hasRadixMark literal = false ∧ '_' ∉ cs := by
    simpa [isPlain, hcs] using hplain
  cases h with
  | zero hzero hn => exact .inl ⟨hzero, hn⟩
  | marked hmarked hradix hread =>
    rw [hmarked] at hcs
    rw [hasRadixMark_eq hcs, hradix] at hmark
    cases hmark
  | decimal hdecimal hc hread =>
    obtain ⟨ds, hds, hvalue⟩ := Option.bind_eq_some_iff.mp hread
    rw [eq_of_unseparated? hds hseparator] at hvalue
    obtain ⟨hne, hdigits⟩ := exists_digitIn?_of_readIn? hvalue
    have hall (d : Char) (hd : d ∈ cs) : d.isDigit = true :=
      isDigit_of_digitIn? (hdigits d hd).choose_spec
    rw [← magnitude?_of_isDigit hall, magnitude?_decimal hne hall] at hvalue
    refine .inr ⟨hne, hall, ?_, (Option.some.inj hvalue).symm⟩
    rw [hdecimal]
    exact fun heq => hc (Option.some.inj heq)

/-- Plain literals of one number are spelled alike. -/
theorem eq_of_isPlain {literal' : String} (h : denotedBigint? literal = some n)
    (h' : denotedBigint? literal' = some n) (hplain : isPlain literal = true)
    (hplain' : isPlain literal' = true) : literal = literal' := by
  obtain ⟨cs, hcs, hn⟩ := exists_of_denotedBigint? h
  obtain ⟨ds, hds, hn'⟩ := exists_of_denotedBigint? h'
  suffices heq : cs = ds from String.toList_injective (by rw [hcs, hds, heq])
  have hnonzero {l : List Char} (hne : l ≠ []) (hall : ∀ c ∈ l, c.isDigit = true)
      (hfirst : l.head? ≠ some '0') : 0 ≠ Decimal.digitsValue l := fun hzero =>
    hne (eq_nil_of_digitsValue hall hfirst hzero.symm)
  rcases (spelling_of_scriptMagnitude? hn).digits_of_isPlain hcs hplain with
    ⟨hzero, rfl⟩ | ⟨hne, hall, hfirst, rfl⟩ <;>
  rcases (spelling_of_scriptMagnitude? hn').digits_of_isPlain hds hplain' with
    ⟨hzero', hvalue⟩ | ⟨hne', hall', hfirst', hvalue⟩
  · rw [hzero, hzero']
  · exact absurd hvalue (hnonzero hne' hall' hfirst')
  · exact absurd hvalue.symm (hnonzero hne hall hfirst)
  · exact eq_of_digitsValue_eq hall hall' hfirst hfirst' hvalue

end TypeLint.Values
