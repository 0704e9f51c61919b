import TypeLint.Decimal.Reader
import TypeLint.Proofs.Values.Basic

namespace TypeLint.Values

theorem digitIn?_zero : digitIn? 10 '0' = some 0 := by decide

theorem digitIn?_of_isDigit {c : Char} {value : Nat} (hc : c.isDigit = true)
    (h : digitIn? 10 c = some value) (hne : c ≠ '0') : 0 < value := by
  simp only [digitIn?, hc, if_true] at h
  split_ifs at h
  cases h
  have hbound : 48 ≤ c.val ∧ c.val ≤ 57 := by simpa [Char.isDigit] using hc
  have hlow : 48 ≤ c.toNat := UInt32.le_iff_toNat_le.mp hbound.1
  have hneq : c.toNat ≠ 48 := fun heq => hne (Char.toNat_inj.mp heq)
  omega

theorem readFrom?_zeros {cs : List Char} (h : ∀ c ∈ cs, c = '0') :
    readFrom? 10 0 cs = some 0 := by
  induction cs with
  | nil => rfl
  | cons c rest ih =>
    obtain ⟨rfl, hrest⟩ := List.forall_mem_cons.mp h
    rw [readFrom?, digitIn?_zero]
    exact ih hrest

/-- What has been read in decimal does not become zero again, and only zeros keep it at zero. -/
theorem zeros_of_readFrom? {cs : List Char} (hdigits : ∀ c ∈ cs, c.isDigit = true) {n : Nat}
    (h : readFrom? 10 n cs = some 0) : n = 0 ∧ ∀ c ∈ cs, c = '0' := by
  induction cs generalizing n with
  | nil => exact ⟨Option.some.inj h, List.forall_mem_nil _⟩
  | cons c rest ih =>
    obtain ⟨hc, hrest⟩ := List.forall_mem_cons.mp hdigits
    obtain ⟨value, hvalue, hread⟩ := Option.bind_eq_some_iff.mp h
    obtain ⟨hn, hzeros⟩ := ih hrest hread
    have hzero : c = '0' := by
      by_contra hne
      have := digitIn?_of_isDigit hc hvalue hne
      omega
    exact ⟨by omega, List.forall_mem_cons.mpr ⟨hzero, hzeros⟩⟩

theorem magnitude?_of_isDigit {cs : List Char} (h : ∀ c ∈ cs, c.isDigit = true) :
    magnitude? cs = readIn? 10 cs := by
  unfold magnitude?
  split <;> first | rfl | exact absurd (h _ (List.mem_cons_of_mem _ List.mem_cons_self)) (by decide)

theorem magnitude?_minus (cs : List Char) : magnitude? ('-' :: cs) = none := rfl

theorem eq_zero_of_zeros {cs : List Char} (h : ∀ c ∈ cs, c = '0') {n : Nat}
    (hn : magnitude? cs = some n) : n = 0 := by
  rw [magnitude?_of_isDigit fun c hc => h c hc ▸ rfl, readIn?, readFrom?_zeros h] at hn
  split_ifs at hn
  exact (Option.some.inj hn).symm

theorem zeros_of_magnitude? {cs : List Char} (h : ∀ c ∈ cs, c.isDigit = true)
    (hn : magnitude? cs = some 0) : ∀ c ∈ cs, c = '0' := by
  rw [magnitude?_of_isDigit h, readIn?] at hn
  split_ifs at hn
  exact (zeros_of_readFrom? h hn).2

theorem dropWhile_beq_eq_nil {c : Char} {cs : List Char} :
    cs.dropWhile (· == c) = [] ↔ ∀ d ∈ cs, d = c := by
  simp [List.dropWhile_eq_nil_iff]

end TypeLint.Values

namespace TypeLint.Types.LiteralValue

open Values

/-- The digits of a big integer are decimal ones, behind at most one minus sign. -/
def IsDecimal : LiteralValue → Prop
  | bigint digits =>
    ∃ cs : List Char, (∀ c ∈ cs, c.isDigit = true) ∧
      (digits.toList = cs ∨ digits.toList = '-' :: cs)
  | _ => True

variable {value : LiteralValue} {v : Value}

theorem Denotes.isNullish_eq_false (h : value.Denotes v) : v.isNullish = false := by
  cases value with
  | bigint digits =>
    obtain ⟨n, -, rfl⟩ := h
    rfl
  | _ =>
    obtain rfl := h
    rfl

theorem isTruthy_bigint_eq_false_iff {digits : String} :
    (bigint digits).isTruthy = false ↔
      ∀ c ∈ digits.toList.dropWhile (· == '-'), c = '0' := by
  rw [isTruthy, Bool.not_eq_false', List.isEmpty_iff, dropWhile_beq_eq_nil]

theorem Denotes.isTruthy_eq_false (h : value.Denotes v) (hfalse : value.isTruthy = false) :
    v.isTruthy = false := by
  cases value with
  | bigint digits =>
    obtain ⟨n, hn, rfl⟩ := h
    rw [isTruthy_bigint_eq_false_iff] at hfalse
    suffices hzero : n = 0 by rw [hzero]; rfl
    rw [bigintValue?] at hn
    split at hn
    · next rest hsign =>
      obtain ⟨m, hm, rfl⟩ := Option.map_eq_some_iff.mp hn
      rw [hsign, List.dropWhile_cons_of_pos rfl] at hfalse
      cases rest with
      | nil => cases hm
      | cons c rest =>
        by_cases hc : c = '-'
        · cases (magnitude?_minus rest).symm.trans (hc ▸ hm)
        · rw [List.dropWhile_cons_of_neg (by simpa using hc)] at hfalse
          rw [eq_zero_of_zeros hfalse hm]
          rfl
    · next cs hsign =>
      obtain ⟨m, hm, rfl⟩ := Option.map_eq_some_iff.mp hn
      have hkeep : digits.toList.dropWhile (· == '-') = digits.toList := by
        cases hcs : digits.toList with
        | nil => rfl
        | cons c rest =>
          refine List.dropWhile_cons_of_neg fun hc => ?_
          exact hsign rest (hcs.trans (by rw [beq_iff_eq.mp hc]))
      rw [eq_zero_of_zeros (hkeep ▸ hfalse) hm]
      rfl
  | _ =>
    obtain rfl := h
    exact hfalse

theorem Denotes.isTruthy (h : value.Denotes v) (hdecimal : value.IsDecimal)
    (htrue : value.isTruthy = true) : v.isTruthy = true := by
  cases value with
  | bigint digits =>
    obtain ⟨n, hn, rfl⟩ := h
    obtain ⟨cs, hdigits, hcs⟩ := hdecimal
    refine bne_iff_ne.mpr fun hzero => ?_
    refine Bool.eq_false_iff.mp (isTruthy_bigint_eq_false_iff.mpr ?_) htrue
    have hkeep : cs.dropWhile (· == '-') = cs := by
      cases cs with
      | nil => rfl
      | cons c rest =>
        refine List.dropWhile_cons_of_neg fun hc => ?_
        exact absurd (hdigits c List.mem_cons_self) (by rw [beq_iff_eq.mp hc]; decide)
    have hmagnitude : magnitude? cs = some 0 := by
      rw [bigintValue?] at hn
      rcases hcs with hcs | hcs
      · rw [hcs] at hn
        split at hn
        · next rest => exact absurd (hdigits '-' List.mem_cons_self) (by decide)
        · obtain ⟨m, hm, heq⟩ := Option.map_eq_some_iff.mp hn
          rwa [show m = 0 by omega] at hm
      · rw [hcs] at hn
        obtain ⟨m, hm, heq⟩ := Option.map_eq_some_iff.mp hn
        rwa [show m = 0 by omega] at hm
    have hzeros := zeros_of_magnitude? hdigits hmagnitude
    rcases hcs with hcs | hcs
    · rwa [hcs, hkeep]
    · rwa [hcs, List.dropWhile_cons_of_pos rfl, hkeep]
  | _ =>
    obtain rfl := h
    exact htrue

end TypeLint.Types.LiteralValue

namespace TypeLint.Values

variable {c : Char} {cs : List Char} {digits : String}

theorem bounds_of_isDigit (h : c.isDigit = true) : 48 ≤ c.toNat ∧ c.toNat ≤ 57 := by
  have hbound : 48 ≤ c.val ∧ c.val ≤ 57 := by simpa [Char.isDigit] using h
  exact ⟨UInt32.le_iff_toNat_le.mp hbound.1, UInt32.le_iff_toNat_le.mp hbound.2⟩

theorem digitIn?_decimal (h : c.isDigit = true) : digitIn? 10 c = some (c.toNat - 48) := by
  have hbounds := bounds_of_isDigit h
  have halphanum : c.isAlphanum = true := by rw [Char.isAlphanum, h, Bool.or_true]
  have hlt : c.toNat - 48 < 10 := by omega
  simp only [digitIn?, if_pos h, halphanum, decide_eq_true hlt, Bool.and_self, if_true]

theorem readFrom?_decimal (h : ∀ c ∈ cs, c.isDigit = true) (n : Nat) :
    readFrom? 10 n cs = some (cs.foldl (fun n c => 10 * n + (c.toNat - 48)) n) := by
  induction cs generalizing n with
  | nil => rfl
  | cons c rest ih =>
    obtain ⟨hc, hrest⟩ := List.forall_mem_cons.mp h
    rw [readFrom?, digitIn?_decimal hc, Option.bind_some, ih hrest, List.foldl_cons]

theorem magnitude?_decimal (hne : cs ≠ []) (h : ∀ c ∈ cs, c.isDigit = true) :
    magnitude? cs = some (Decimal.digitsValue cs) := by
  rw [magnitude?_of_isDigit h, readIn?, if_neg (by simpa using hne), readFrom?_decimal h]
  rfl

theorem digitsValue_concat (cs : List Char) (c : Char) :
    Decimal.digitsValue (cs ++ [c]) = 10 * Decimal.digitsValue cs + (c.toNat - 48) := by
  rw [Decimal.digitsValue, List.foldl_append]
  rfl

/-- Without leading zeros only no digits spell zero. -/
theorem eq_nil_of_digitsValue (h : ∀ c ∈ cs, c.isDigit = true) (hfirst : cs.head? ≠ some '0')
    (hzero : Decimal.digitsValue cs = 0) : cs = [] := by
  have hread : readFrom? 10 0 cs = some 0 := by
    rw [readFrom?_decimal h]
    exact congrArg some hzero
  cases cs with
  | nil => rfl
  | cons c rest =>
    have hc := (zeros_of_readFrom? h hread).2 c List.mem_cons_self
    exact absurd (congrArg some hc) hfirst

/-- Without leading zeros different digits spell different numbers. -/
theorem eq_of_digitsValue_eq {ds : List Char} (hcs : ∀ c ∈ cs, c.isDigit = true)
    (hds : ∀ c ∈ ds, c.isDigit = true) (hfirst : cs.head? ≠ some '0')
    (hfirst' : ds.head? ≠ some '0')
    (h : Decimal.digitsValue cs = Decimal.digitsValue ds) : cs = ds := by
  induction cs using List.reverseRecOn generalizing ds with
  | nil => exact (eq_nil_of_digitsValue hds hfirst' h.symm).symm
  | append_singleton cs c ih =>
    rcases List.eq_nil_or_concat ds with rfl | ⟨ds, d, rfl⟩
    · exact eq_nil_of_digitsValue hcs hfirst h
    · rw [List.concat_eq_append] at hds hfirst' h ⊢
      obtain ⟨hcs', hc⟩ := List.forall_mem_append.mp hcs
      obtain ⟨hds', hd⟩ := List.forall_mem_append.mp hds
      have hcbounds := bounds_of_isDigit (hc c (List.mem_singleton_self c))
      have hdbounds := bounds_of_isDigit (hd d (List.mem_singleton_self d))
      have hhead {l : List Char} {e : Char} (h : (l ++ [e]).head? ≠ some '0') :
          l.head? ≠ some '0' := by
        cases l with
        | nil => exact nofun
        | cons => exact h
      rw [digitsValue_concat, digitsValue_concat] at h
      obtain rfl : c = d := Char.toNat_inj.mp (by omega)
      rw [ih hcs' hds' (hhead hfirst) (hhead hfirst') (by omega)]

theorem ne_cons_of_isDigit (h : ∀ c ∈ cs, c.isDigit = true) (hc : c.isDigit = false)
    (rest : List Char) : cs ≠ c :: rest := by
  rintro rfl
  cases hc.symm.trans (h c List.mem_cons_self)

theorem readSign_of_isDigit (h : ∀ c ∈ cs, c.isDigit = true) :
    Decimal.readSign cs = (false, cs) := by
  unfold Decimal.readSign
  split
  · exact absurd rfl (ne_cons_of_isDigit h rfl _)
  · exact absurd rfl (ne_cons_of_isDigit h rfl _)
  · rfl

theorem bigintValue?_of_isDigit (h : ∀ c ∈ cs, c.isDigit = true) (hcs : digits.toList = cs) :
    bigintValue? digits = (magnitude? cs).map fun n : Nat => (n : Int) := by
  rw [bigintValue?, hcs]
  split
  · exact absurd rfl (ne_cons_of_isDigit h rfl _)
  · rfl

theorem bigintValue?_minus (hcs : digits.toList = '-' :: cs) :
    bigintValue? digits = (magnitude? cs).map fun n : Nat => -(n : Int) := by
  simp only [bigintValue?, hcs]

/-- Digits in decimal are read as the integer that they spell. -/
theorem readInt?_eq_bigintValue? (hne : cs ≠ []) (h : ∀ c ∈ cs, c.isDigit = true)
    (hcs : digits.toList = cs ∨ digits.toList = '-' :: cs) :
    Decimal.readInt? digits = bigintValue? digits := by
  have hcond : (!cs.isEmpty && cs.all Char.isDigit) = true := by simpa [hne] using h
  rcases hcs with hcs | hcs
  · rw [bigintValue?_of_isDigit h hcs, magnitude?_decimal hne h]
    simp only [Decimal.readInt?, hcs, readSign_of_isDigit h, if_pos hcond]
    rfl
  · rw [bigintValue?_minus hcs, magnitude?_decimal hne h]
    simp only [Decimal.readInt?, hcs, Decimal.readSign, if_pos hcond]
    rfl

end TypeLint.Values
