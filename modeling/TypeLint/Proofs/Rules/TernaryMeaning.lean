import TypeLint.Proofs.Lint.Outcomes
import TypeLint.Proofs.Values.Tests
import TypeLint.Proofs.Values.Verdicts
import TypeLint.Proofs.Syntax.Parentheses

namespace TypeLint.Rules.NullishCoalescing

open Syntax Binding Check Values TypeLint.Types TypeLint.Types.Store

/-- The value of a node that is `null` or `undefined`. -/
def nullishValue? (t : Tree) (r : NodeRef) : Option Value :=
  if t.isNullLiteral r then some .null
  else if t.isUndefinedIdentifier r then some .undefined
  else none

/-- The value of an operand that is `null` or `undefined`, perhaps in parentheses. -/
def nullishOperand? (t : Tree) (operand : NodeRef) : Option Value :=
  (t.skipParentheses operand).toOption.bind (nullishValue? t)

/-- One side of the comparison is `null` or `undefined`, and the other one is not. -/
def Pairs (t : Tree) (b : Binary) : Prop :=
  (nullishOperand? t b.left).isSome ≠ (nullishOperand? t b.right).isSome

instance (t : Tree) (b : Binary) : Decidable (Pairs t b) := instDecidableNot

/-- Where the condition joins two comparisons, each has `null` or `undefined` on one side. -/
def Paired (t : Tree) (condition : NodeRef) : Prop :=
  ∀ inner b left right, t.skipParentheses condition = .ok inner → t.binary? inner = some b →
    t.binary? b.left = some left → t.binary? b.right = some right → Pairs t left ∧ Pairs t right

/-- Where the condition joins two comparisons, each is one with `null` or `undefined`: the same as a
    test. -/
def isPaired (t : Tree) (condition : NodeRef) : Bool :=
  match (t.skipParentheses condition).toOption.bind t.binary? with
  | none => true
  | some b =>
    match t.binary? b.left, t.binary? b.right with
    | some left, some right => Pairs t left && Pairs t right
    | _, _ => true

variable {t : Tree} {expected r inner : NodeRef} {v : Value}

theorem paired_of_isPaired {condition : NodeRef} (h : isPaired t condition = true) :
    Paired t condition := by
  intro inner b left right hinner hb hleft hright
  rw [isPaired, hinner, Except.toOption, Option.bind_some, hb] at h
  simpa only [hleft, hright, Bool.and_eq_true, decide_eq_true_eq] using h

theorem nullishOperand?_eq (hinner : t.skipParentheses r = .ok inner) :
    nullishOperand? t r = nullishValue? t inner := by
  rw [nullishOperand?, hinner]
  rfl

theorem isNullish_of_nullishOperand? {n : Value} (h : nullishOperand? t r = some n) :
    n.isNullish = true := by
  obtain ⟨inner, -, h⟩ := Option.bind_eq_some_iff.mp h
  rw [nullishValue?] at h
  split_ifs at h <;> cases h <;> rfl

theorem operandValue?_of_nullishOperand? {n : Value} (h : nullishOperand? t r = some n) :
    operandValue? t expected v r = some n := by
  obtain ⟨inner, hinner, h⟩ := Option.bind_eq_some_iff.mp h
  rw [operandValue?, hinner, Option.bind_some]
  rw [nullishValue?] at h
  split_ifs at h with hnull hundefined
  · rw [if_pos hnull, h]
  · rw [if_neg hnull, if_pos hundefined, h]

/-- The operand is the tested expression, perhaps in parentheses. -/
def IsTested (t : Tree) (expected operand : NodeRef) : Prop :=
  ∃ inner, t.skipParentheses operand = .ok inner ∧ t.nodesEqual inner expected = .ok true

theorem operandValue?_of_isTested (hnone : nullishOperand? t r = none)
    (h : IsTested t expected r) : operandValue? t expected v r = some v := by
  obtain ⟨inner, hinner, hequal⟩ := h
  rw [nullishOperand?_eq hinner, nullishValue?] at hnone
  rw [operandValue?, hinner, Except.toOption, Option.bind_some]
  split_ifs at hnone with hnull hundefined
  rw [if_neg hnull, if_neg hundefined, if_pos hequal]

/-- The operand is `null`, `undefined` or the tested expression. -/
def Sorted (t : Tree) (expected operand : NodeRef) : Prop :=
  (nullishOperand? t operand).isSome = true ∨ IsTested t expected operand

/-- What sorting the operands tells about them. -/
theorem tested?_spec {operands : List NodeRef} {start found : Tested}
    (h : tested? t expected start operands = .ok (some found)) :
    (∀ operand ∈ operands, Sorted t expected operand) ∧
      (found.null = true ↔
        start.null = true ∨ ∃ operand ∈ operands, nullishOperand? t operand = some .null) ∧
      (found.undefined = true ↔
        start.undefined = true ∨
          ∃ operand ∈ operands, nullishOperand? t operand = some .undefined) ∧
      ∀ x, found.value = some x → start.value = some x ∨
        ∃ operand ∈ operands, t.skipParentheses operand = .ok x ∧
          t.nodesEqual x expected = .ok true ∧ nullishOperand? t operand = none := by
  induction operands generalizing start with
  | nil =>
    cases h
    simp
  | cons operand rest ih =>
    obtain ⟨inner, hinner, h⟩ := Result.bind_eq_ok_iff.mp h
    have hoperand := nullishOperand?_eq hinner
    rw [nullishValue?] at hoperand
    split_ifs at h hoperand with hnull hundefined
    · obtain ⟨hsorted, hnulls, hundefineds, hvalue⟩ := ih h
      refine ⟨List.forall_mem_cons.mpr ⟨.inl (by rw [hoperand]; rfl), hsorted⟩, ?_, ?_, ?_⟩
      · simp [hnulls, hoperand]
      · simp [hundefineds, hoperand]
      · intro x hx
        simpa [hoperand] using hvalue x hx
    · obtain ⟨hsorted, hnulls, hundefineds, hvalue⟩ := ih h
      refine ⟨List.forall_mem_cons.mpr ⟨.inl (by rw [hoperand]; rfl), hsorted⟩, ?_, ?_, ?_⟩
      · simp [hnulls, hoperand]
      · simp [hundefineds, hoperand]
      · intro x hx
        simpa [hoperand] using hvalue x hx
    · obtain ⟨equal, hequal, h⟩ := Result.bind_eq_ok_iff.mp h
      split_ifs at h with htrue
      · subst htrue
        obtain ⟨hsorted, hnulls, hundefineds, hvalue⟩ := ih h
        refine ⟨List.forall_mem_cons.mpr ⟨.inr ⟨inner, hinner, hequal⟩, hsorted⟩, ?_, ?_, ?_⟩
        · simp [hnulls, hoperand]
        · simp [hundefineds, hoperand]
        · intro x hx
          rcases hvalue x hx with hx | ⟨other, hother, hx⟩
          · obtain rfl := Option.some.inj hx
            exact .inr ⟨operand, List.mem_cons_self, hinner, hequal, hoperand⟩
          · exact .inr ⟨other, List.mem_cons_of_mem _ hother, hx⟩
      · cases h

/-- A comparison of the tested expression with a nullish value: the operator and the value. -/
abbrev NullishTest := Kind × Value

/-- The comparison holds for being equal. -/
def NullishTest.matches (test : NullishTest) (v : Value) : Bool :=
  Value.equalsNullish test.1 test.2 v

/-- A comparison with `null` or `undefined` on one side is a test of the other one. -/
theorem exists_test {b : Binary} (hoperator : b.operator.isEqualityOperator = true)
    (hleft : Sorted t expected b.left) (hright : Sorted t expected b.right) (hpairs : Pairs t b) :
    ∃ n : Value, n.isNullish = true ∧
      (∀ m, nullishOperand? t b.left = some m ∨ nullishOperand? t b.right = some m ↔ n = m) ∧
      ∀ v, ∃ left right, operandValue? t expected v b.left = some left ∧
        operandValue? t expected v b.right = some right ∧
        Value.compare? b.operator left right =
          some (Value.asksEqual b.operator == Value.equalsNullish b.operator n v) := by
  cases hl : nullishOperand? t b.left with
  | none =>
    cases hr : nullishOperand? t b.right with
    | none => exact (hpairs (by rw [hl, hr])).elim
    | some n =>
      have hn := isNullish_of_nullishOperand? hr
      rw [Sorted, hl] at hleft
      refine ⟨n, hn, by simp, fun v => ⟨v, n, ?_, operandValue?_of_nullishOperand? hr, ?_⟩⟩
      · exact operandValue?_of_isTested hl (hleft.resolve_left (by simp))
      · exact (Value.compare?_nullish hoperator hn).1
  | some n =>
    cases hr : nullishOperand? t b.right with
    | none =>
      have hn := isNullish_of_nullishOperand? hl
      rw [Sorted, hr] at hright
      refine ⟨n, hn, by simp, fun v => ⟨n, v, operandValue?_of_nullishOperand? hl, ?_, ?_⟩⟩
      · exact operandValue?_of_isTested hr (hright.resolve_left (by simp))
      · exact (Value.compare?_nullish hoperator hn).2
    | some m => exact (hpairs (by rw [hl, hr]; rfl)).elim

/-- Two comparisons that make one ask the same, and they are joined as fits that. -/
theorem combined?_spec {logical left right operator : Kind}
    (h : combined? logical left right = some operator) :
    (left.isEqualityOperator = true ∧ right.isEqualityOperator = true) ∧
      (Value.asksEqual left = Value.asksEqual operator ∧
        Value.asksEqual right = Value.asksEqual operator) ∧
      isLoose operator = (isLoose left || isLoose right) ∧
      (logical = .barBarToken ∧ Value.asksEqual operator = true ∨
        logical = .ampersandAmpersandToken ∧ Value.asksEqual operator = false) := by
  simp only [combined?] at h
  split at h
  · split_ifs at h with hstrict hloose
    · simp only [Bool.and_eq_true, beq_iff_eq] at hstrict
      obtain ⟨rfl, rfl⟩ := hstrict
      cases h
      decide
    · simp only [Bool.and_eq_true, Bool.or_eq_true, beq_iff_eq] at hstrict hloose
      cases h
      obtain ⟨rfl | rfl, rfl | rfl⟩ := hloose
      · exact (hstrict ⟨rfl, rfl⟩).elim
      · decide
      · decide
      · decide
  · split_ifs at h with hstrict hloose
    · simp only [Bool.and_eq_true, beq_iff_eq] at hstrict
      obtain ⟨rfl, rfl⟩ := hstrict
      cases h
      decide
    · simp only [Bool.and_eq_true, Bool.or_eq_true, beq_iff_eq] at hstrict hloose
      cases h
      obtain ⟨rfl | rfl, rfl | rfl⟩ := hloose
      · exact (hstrict ⟨rfl, rfl⟩).elim
      · decide
      · decide
      · decide
  · cases h

/-- A node with the fields of a binary expression is not in parentheses. -/
theorem skipParentheses_of_binary? {b : Binary} (hb : t.binary? r = some b) :
    t.skipParentheses r = .ok r := by
  obtain ⟨n, hn, hb⟩ := Option.bind_eq_some_iff.mp hb
  have hnone : n.parenthesized? = none := by
    rw [Node.parenthesized?, Node.wrapped?]
    rw [Node.binary?] at hb
    split
    · next e hpayload =>
      rw [hpayload] at hb
      cases hb
    · rfl
  exact Tree.skipParentheses_of_eq_none (by rw [hn, Option.bind_some, hnone])

/-- A condition that the rule accepts decides by tests of the expression with nullish values. -/
theorem exists_tests {condition : NodeRef} {b : Binary} {operands : List NodeRef} {operator : Kind}
    {found : Tested} {x test : NodeRef} (htest : t.skipParentheses condition = .ok test)
    (hb : t.binary? test = some b) (hcomparison : comparison? t b = some (operands, operator))
    (hfound : tested? t expected ⟨none, false, false⟩ operands = .ok (some found))
    (hvalue : found.value = some x) (hsome : found.null = true ∨ found.undefined = true)
    (hpaired : Paired t condition) :
    ∃ tests : List NullishTest, (∀ test ∈ tests, test.2.isNullish = true) ∧
      (found.null = true ↔ ∃ test ∈ tests, test.2 = .null) ∧
      (found.undefined = true ↔ ∃ test ∈ tests, test.2 = .undefined) ∧
      (isLoose operator = true ↔ ∃ test ∈ tests, isLoose test.1 = true) ∧
      ∀ v, Decides t expected v condition
        (Value.asksEqual operator == tests.any (·.matches v)) := by
  obtain ⟨hsorted, hnull, hundefined, hvalues⟩ := tested?_spec hfound
  simp only [Bool.false_eq_true, false_or, reduceCtorEq] at hnull hundefined hvalues
  rw [comparison?] at hcomparison
  split_ifs at hcomparison with hoperator
  · cases hcomparison
    simp only [List.forall_mem_cons, List.exists_mem_cons_iff, List.not_mem_nil, false_and,
      exists_false, or_false] at hsorted hnull hundefined hvalues
    have hpairs : Pairs t b := by
      -- One operand is the tested expression, and so the value that was found is the other one.
      have hnullish : (nullishOperand? t b.left).isSome = true ∨
          (nullishOperand? t b.right).isSome = true := by
        rcases hsome with hsome | hsome
        · rcases hnull.mp hsome with h | h <;> simp [h]
        · rcases hundefined.mp hsome with h | h <;> simp [h]
      rcases hvalues x hvalue with ⟨-, -, hnone⟩ | ⟨-, -, hnone⟩ <;> simp_all [Pairs]
    obtain ⟨n, hn, hoperands, hdecides⟩ := exists_test hoperator hsorted.1 hsorted.2.1 hpairs
    refine ⟨[(b.operator, n)], ?_, ?_, ?_, ?_, fun v => ?_⟩
    · simpa using hn
    · simp [hnull, ← hoperands]
    · simp [hundefined, ← hoperands]
    · simp
    · obtain ⟨left, right, hleft, hright, houtcome⟩ := hdecides v
      rw [List.any_cons, List.any_nil, Bool.or_false]
      exact .comparison htest hb hleft hright houtcome
  · obtain ⟨l, hl, hcomparison⟩ := Option.bind_eq_some_iff.mp hcomparison
    obtain ⟨r, hr, hcomparison⟩ := Option.bind_eq_some_iff.mp hcomparison
    obtain ⟨both, hboth, hcomparison⟩ := Option.bind_eq_some_iff.mp hcomparison
    cases hcomparison
    simp only [List.forall_mem_cons, List.exists_mem_cons_iff, List.not_mem_nil, false_and,
      exists_false, or_false] at hsorted hnull hundefined
    obtain ⟨⟨hlop, hrop⟩, ⟨hlasks, hrasks⟩, hloose, hjoined⟩ := combined?_spec hboth
    obtain ⟨hlpairs, hrpairs⟩ := hpaired test b l r htest hb hl hr
    obtain ⟨n, hn, hnoperands, hndecides⟩ := exists_test hlop hsorted.1 hsorted.2.1 hlpairs
    obtain ⟨m, hm, hmoperands, hmdecides⟩ :=
      exists_test hrop hsorted.2.2.1 hsorted.2.2.2.1 hrpairs
    refine ⟨[(l.operator, n), (r.operator, m)], ?_, ?_, ?_, ?_, fun v => ?_⟩
    · simp [hn, hm]
    · simp [hnull, ← hnoperands, ← hmoperands, or_assoc]
    · simp [hundefined, ← hnoperands, ← hmoperands, or_assoc]
    · simp [hloose]
    · obtain ⟨_, _, hleft, hright, houtcome⟩ := hndecides v
      have hdecided := Decides.comparison (skipParentheses_of_binary? hl) hl hleft hright
        houtcome
      obtain ⟨_, _, hleft', hright', houtcome'⟩ := hmdecides v
      have hdecided' := Decides.comparison (skipParentheses_of_binary? hr) hr hleft' hright'
        houtcome'
      rw [hlasks] at hdecided
      rw [hrasks] at hdecided'
      simp only [List.any_cons, List.any_nil, Bool.or_false, NullishTest.matches]
      rcases hjoined with ⟨hlogical, hasks⟩ | ⟨hlogical, hasks⟩
      · rw [hasks] at hdecided hdecided' ⊢
        simpa using Decides.or htest hb hlogical hdecided hdecided'
      · rw [hasks] at hdecided hdecided' ⊢
        simpa using Decides.and htest hb hlogical hdecided hdecided'

/-- The comparisons that were found suffice as a test for being nullish: both values are tested, or
    one of them is, by a loose comparison or on a type that does not have the other one. -/
def Suffices (t : Oracle) (operator : Kind) (found : Tested) (x : NodeRef) : Prop :=
  found.undefined = true ∧ found.null = true ∨
    found.undefined ≠ found.null ∧
      (isLoose operator = true ∨
        ∃ id, t.typeAt? x = some id ∧ strictTestSuffices t.store found.undefined id = true)

theorem Suffices.some_tested {oracle : Oracle} {operator : Kind} {found : Tested} {x : NodeRef}
    (h : Suffices oracle operator found x) : found.null = true ∨ found.undefined = true := by
  rcases h with ⟨-, hnull⟩ | ⟨hne, -⟩
  · exact .inl hnull
  · revert hne
    cases found.null <;> cases found.undefined <;> simp

theorem matches_of_loose {test : NullishTest} (h : isLoose test.1 = true)
    (hv : v.isNullish = true) : test.matches v = true := by
  rw [isLoose, Bool.or_eq_true, beq_iff_eq, beq_iff_eq] at h
  rw [NullishTest.matches, Value.equalsNullish, if_pos h]
  exact hv

theorem matches_self {test : NullishTest} (hv : v.isNullish = true) (h : test.2 = v) :
    test.matches v = true := by
  rw [NullishTest.matches, Value.equalsNullish]
  split_ifs
  · exact hv
  · exact beq_iff_eq.mpr h.symm

/-- Tests that suffice hold exactly for nullish values of the type, if it is overt. -/
theorem any_matches_eq {oracle : Oracle} (hn : oracle.store.Normal) {tests : List NullishTest}
    {operator : Kind} {found : Tested} {x : NodeRef} {w : World}
    (hnullish : ∀ test ∈ tests, test.2.isNullish = true)
    (hnull : found.null = true ↔ ∃ test ∈ tests, test.2 = .null)
    (hundefined : found.undefined = true ↔ ∃ test ∈ tests, test.2 = .undefined)
    (hloose : isLoose operator = true ↔ ∃ test ∈ tests, isLoose test.1 = true)
    (hsuffices : Suffices oracle operator found x)
    (htype : ∀ id, oracle.typeAt? x = some id →
      oracle.store.Overt id ∧ Inhabits w oracle.store v id) :
    tests.any (·.matches v) = v.isNullish := by
  rw [Bool.eq_iff_iff, List.any_eq_true]
  constructor
  · rintro ⟨test, htest, hmatches⟩
    exact Value.isNullish_of_equalsNullish (hnullish test htest) hmatches
  · intro hv
    have htested {n : Value} (h : v = n) (htest : ∃ test ∈ tests, test.2 = n) :
        ∃ test ∈ tests, test.matches v = true := by
      obtain ⟨test, hmem, heq⟩ := htest
      exact ⟨test, hmem, matches_self hv (heq.trans h.symm)⟩
    rcases hsuffices with ⟨hu, hn'⟩ | ⟨hne, hl | ⟨id, hid, hstrict⟩⟩
    · rcases Value.isNullish_iff.mp hv with h | h
      · exact htested h (hundefined.mp hu)
      · exact htested h (hnull.mp hn')
    · obtain ⟨test, htest, hl⟩ := hloose.mp hl
      exact ⟨test, htest, matches_of_loose hl hv⟩
    · obtain ⟨hovert, hvalue⟩ := htype id hid
      simp only [strictTestSuffices, Bool.and_eq_true, Bool.not_eq_true'] at hstrict
      -- The type has only the nullish value that is tested.
      rcases hn.hasFlag_of_isNullish hovert hstrict.1 hvalue hv with ⟨h, hflag⟩ | ⟨h, hflag⟩
      · refine htested h (hundefined.mp ?_)
        by_contra hu
        rw [if_neg hu] at hstrict
        cases hflag.symm.trans hstrict.2
      · refine htested h (hnull.mp ?_)
        by_contra hnone
        have hu : found.undefined = true := by
          revert hne hnone
          cases found.null <;> cases found.undefined <;> simp
        rw [if_pos hu] at hstrict
        cases hflag.symm.trans hstrict.2

/-- The branch that a conditional expression takes. -/
def branch (c : Conditional) (outcome : Bool) : NodeRef :=
  if outcome then c.whenTrue else c.whenFalse

/-- A report on a conditional expression comes from a test of the value of one of its branches that
    suffices. -/
def TernaryReport (t : Oracle) (f : SourceFile) (report : Report) : Prop :=
  report.messageId = "preferNullishOverTernary" →
    ∃ r c test b operands operator expected found x,
      (f.tree.get? r).bind Node.conditional? = some c ∧
      f.tree.skipParentheses c.condition = .ok test ∧ f.tree.binary? test = some b ∧
      comparison? f.tree b = some (operands, operator) ∧
      f.tree.skipParentheses (branch c !isPositive operator) = .ok expected ∧
      tested? f.tree expected ⟨none, false, false⟩ operands = .ok (some found) ∧
      found.value = some x ∧ Suffices t operator found x ∧
      report = ternaryReport f r (branch c !isPositive operator) (branch c (isPositive operator))

variable {oracle : Oracle} {f : SourceFile}

theorem givesOn_testsNullish (ht : oracle.Closed) (operator : Kind) (found : Tested) (x : NodeRef) :
    (testsNullish operator found x).GivesOn oracle f fun fixable =>
      fixable = true → Suffices oracle operator found x := by
  rw [testsNullish]
  split_ifs with heq hloose
  · refine givesOn_pure fun hu => ?_
    exact .inl ⟨hu, (beq_iff_eq.mp heq) ▸ hu⟩
  · exact givesOn_pure fun _ => .inr ⟨by simpa using heq, .inl hloose⟩
  · refine givesOn_bind agree_store fun s hs => ?_
    refine givesOn_bind_of (agree_typeAt ht x) (givesOn_typeAt x) fun id hid htype => ?_
    refine givesOn_pure fun hstrict => .inr ⟨by simpa using heq, .inr ⟨id, htype, ?_⟩⟩
    simpa only [strictTestSuffices, hs.1.hasFlag_eq ht.store hid.1] using hstrict

theorem ternaryReport_of_messageId {report : Report}
    (h : report.messageId ≠ "preferNullishOverTernary") : TernaryReport oracle f report :=
  fun hid => (h hid).elim

theorem givesOn_nil (P : Report → Prop) :
    (pure [] : Check (List Report)).GivesOn oracle f fun reports => ∀ report ∈ reports, P report :=
  givesOn_pure (List.forall_mem_nil _)

theorem givesOn_checkTernary (ht : oracle.Closed) (r : NodeRef) :
    (checkTernary r).GivesOn oracle f fun reports =>
      ∀ report ∈ reports, TernaryReport oracle f report := by
  refine givesOn_bind agree_file ?_
  rintro _ ⟨rfl, -⟩
  dsimp only
  split
  · exact givesOn_nil _
  · next c hc =>
    refine givesOn_bind (agree_lift _) fun test htest => ?_
    split
    · exact givesOn_nil _
    · next operands operator hcomparison =>
      obtain ⟨b, hb, hcomparison⟩ := Option.bind_eq_some_iff.mp hcomparison
      refine givesOn_bind (agree_lift _) fun whenTrue hwhenTrue => ?_
      refine givesOn_bind (agree_lift _) fun whenFalse hwhenFalse => ?_
      have hexpected : f.tree.skipParentheses (branch c !isPositive operator) =
          .ok (if isPositive operator then whenFalse else whenTrue) := by
        cases isPositive operator
        · exact hwhenTrue.1
        · exact hwhenFalse.1
      have hbranches : (if isPositive operator then (c.whenFalse, c.whenTrue)
          else (c.whenTrue, c.whenFalse)) =
            (branch c !isPositive operator, branch c (isPositive operator)) := by
        cases isPositive operator <;> rfl
      rw [hbranches]
      dsimp only
      refine givesOn_bind (agree_lift _) fun tested htested => ?_
      split
      · exact givesOn_nil _
      · next found =>
        split
        · exact givesOn_nil _
        · next x hx =>
          refine givesOn_bind_of (NullishCoalescing.steady_testsNullish ht _ _ _)
            (givesOn_testsNullish ht _ _ _) fun fixable _ hfixable => ?_
          split_ifs with htrue
          · refine givesOn_pure (List.forall_mem_singleton.mpr fun _ => ?_)
            exact ⟨r, c, test, b, operands, operator, _, found, x, hc, htest.1, hb, hcomparison,
              hexpected, htested.1, hx, hfixable htrue, rfl⟩
          · exact givesOn_nil _

theorem givesOn_check (ht : oracle.Closed) (o : Options) (r : NodeRef) :
    (check o r).GivesOn oracle f fun reports => ∀ report ∈ reports, TernaryReport oracle f report := by
  refine givesOn_bind agree_tree ?_
  rintro _ ⟨rfl, -⟩
  split
  · refine givesOn_bind agree_file ?_
    rintro _ ⟨rfl, -⟩
    split
    · exact givesOn_nil _
    · refine givesOn_bind agree_store fun s hs => ?_
      refine givesOn_bind (agree_typeAt ht _) fun left _ => ?_
      split_ifs
      · exact givesOn_nil _
      refine givesOn_bind (agree_lift _) fun exempt _ => ?_
      split_ifs
      · exact givesOn_nil _
      · refine givesOn_bind (agree_orFail _ _) fun operator _ => ?_
        refine givesOn_pure (List.forall_mem_singleton.mpr (ternaryReport_of_messageId ?_))
        change "preferNullishOverOr" ≠ _
        decide
  · split_ifs
    · exact givesOn_nil _
    · exact givesOn_checkTernary ht r
  · exact givesOn_nil _

theorem givesOn_requireStrictNullChecks (allowed : Bool) :
    (requireStrictNullChecks allowed).GivesOn oracle f fun reports =>
      ∀ report ∈ reports, TernaryReport oracle f report := by
  refine givesOn_bind agree_options fun options _ => ?_
  split_ifs
  · exact givesOn_nil _
  · refine givesOn_pure (List.forall_mem_singleton.mpr (ternaryReport_of_messageId ?_))
    change noStrictNullCheck.1 ≠ _
    decide

/-- Where linting proposes `value ?? fallback` for a conditional expression, its condition decides
    for every value of the tested expression, and it takes the fallback exactly if the value is
    nullish. This needs that joined comparisons each have `null` or `undefined` on one side and that
    the type of the expression is overt. -/
theorem lint_ternary_meaning {o : Options} {category : Category} (ht : oracle.Closed)
    (hmade : oracle.store.Made) {found : List Diagnostic} {oracle' : Option Oracle}
    (hlint : Linter.lint ⟨[⟨rule o, category⟩]⟩ f (some oracle) = .ok (.ok (found, oracle')))
    {d : Diagnostic} (hd : d ∈ found) (hid : d.messageId = "preferNullishOverTernary") :
    ∃ r c x value fallback, (f.tree.get? r).bind Node.conditional? = some c ∧
      f.range r = (d.start, d.stop) ∧
      (value = c.whenTrue ∧ fallback = c.whenFalse ∨ value = c.whenFalse ∧ fallback = c.whenTrue) ∧
      d.fixes = [⟨fixDescription,
        [f.replace r (operandText f value ++ " ?? " ++ operandText f fallback)]⟩] ∧
      (∃ test b operands operator, f.tree.skipParentheses c.condition = .ok test ∧
        f.tree.binary? test = some b ∧ comparison? f.tree b = some (operands, operator) ∧
        ∃ operand ∈ operands, f.tree.skipParentheses operand = .ok x) ∧
      ∃ tested, f.tree.skipParentheses value = .ok tested ∧
        f.tree.nodesEqual x tested = .ok true ∧
        (Paired f.tree c.condition → ∀ w v,
          (∀ id, oracle.typeAt? x = some id →
            oracle.store.Overt id ∧ Inhabits w oracle.store v id) →
          ∃ outcome, Decides f.tree tested v c.condition outcome ∧
            branch c outcome = if v.isNullish then fallback else value) := by
  obtain ⟨report, hreport, rfl⟩ := Linter.exists_report
    ((Rule.Builtin.nullishCoalescing o).steady ht) (givesOn_requireStrictNullChecks _)
    (fun r _ => givesOn_check ht o r) hlint hd
  obtain ⟨r, c, test, b, operands, operator, expected, tested, x, hc, htest, hb, hcomparison,
    hexpected, htested, hx, hsuffices, rfl⟩ := hreport hid
  obtain ⟨-, -, -, hvalue⟩ := tested?_spec htested
  obtain ⟨operand, hoperand, hinner, hequal, -⟩ := (hvalue x hx).resolve_left (by simp)
  refine ⟨r, c, x, branch c !isPositive operator, branch c (isPositive operator), hc, rfl, ?_, rfl,
    ⟨test, b, operands, operator, htest, hb, hcomparison, operand, hoperand, hinner⟩, expected,
    hexpected, hequal, fun hpaired w v htype => ?_⟩
  · cases isPositive operator
    · exact .inl ⟨rfl, rfl⟩
    · exact .inr ⟨rfl, rfl⟩
  · obtain ⟨tests, hnullish, hnull, hundefined, hloose, hdecides⟩ :=
      exists_tests htest hb hcomparison htested hx hsuffices.some_tested hpaired
    refine ⟨_, hdecides v, ?_⟩
    rw [any_matches_eq hmade.normal hnullish hnull hundefined hloose hsuffices htype]
    have hasks : Value.asksEqual operator = isPositive operator := by
      rw [Bool.eq_iff_iff]
      simp [Value.asksEqual, isPositive]
    rw [hasks]
    cases isPositive operator <;> cases v.isNullish <;> rfl

/-- A store with the type `string | null | undefined`. -/
def nullishStore : Store :=
  (Store.initial.union [TypeId.string, TypeId.null, TypeId.undefined]).2

/-- `undefined === x || x === null ? y : x;` -/
def testsBoth : TypeLint.Program :=
  [.statement (.expression (.conditional
    (.binary (.binary (.identifier "undefined") .equalsEqualsEqualsToken (.identifier "x"))
      .barBarToken (.binary (.identifier "x") .equalsEqualsEqualsToken (.keyword .nullKeyword)))
    (.identifier "y") (.identifier "x")))]

/-- A table in which the two tested operands of `testsBoth` have the type
    `string | null | undefined`. -/
def nullishTable : TypeTable :=
  { TypeTable.new .strict with
    store := nullishStore, nodeTypes := [(some 2, 14), (some 5, 14)] }

theorem made_nullishStore : nullishStore.Made := .union .initial (by decide)

theorem closed_nullishTable : nullishTable.Closed :=
  TypeTable.closed_of_nodeTypes made_nullishStore.normal.closed (by decide) .strict

theorem lint_ternary_meaning_both :
    ∃ b found oracle d, Program.build "a.ts" testsBoth = .ok b ∧ nullishTable.oracle.Closed ∧
      nullishTable.store.Made ∧
      Linter.lint ⟨[⟨rule .default, .error⟩]⟩ b.file (some nullishTable.oracle) =
        .ok (.ok (found, oracle)) ∧
      d ∈ found ∧ d.messageId = "preferNullishOverTernary" ∧
      ∃ r c value fallback, (b.file.tree.get? r).bind Node.conditional? = some c ∧
        b.file.range r = (d.start, d.stop) ∧
        d.fixes = [⟨fixDescription, [b.file.replace r
          (operandText b.file value ++ " ?? " ++ operandText b.file fallback)]⟩] ∧
        ∃ tested, b.file.tree.skipParentheses value = .ok tested ∧
          ∀ w v, Inhabits w nullishStore v 14 →
            ∃ outcome, Decides b.file.tree tested v c.condition outcome ∧
              branch c outcome = if v.isNullish then fallback else value := by
  have hrun : Linter.messages? ⟨rule .default, .error⟩ testsBoth nullishTable =
      some [("preferNullishOverTernary", 0, 37)] := by
    decide +kernel
  obtain ⟨b, found, oracle, d, hb, hlint, hd, hmessage, -⟩ := Linter.exists_of_messages? hrun
  obtain ⟨r, c, x, value, fallback, hc, hrange, -, hfixes, -, tested, htested, -, hmeaning⟩ :=
    lint_ternary_meaning closed_nullishTable.oracle made_nullishStore hlint hd hmessage
  have hpaired : Paired b.file.tree c.condition := by
    have hall : ((Program.build "a.ts" testsBoth).toOption.map fun b =>
        b.file.tree.nodes.all fun n =>
          n.conditional?.all fun c => isPaired b.file.tree c.condition) = some true := by
      decide +kernel
    rw [hb] at hall
    obtain ⟨n, hn, hc⟩ := Option.bind_eq_some_iff.mp hc
    obtain ⟨i, -, hn⟩ := Option.bind_eq_some_iff.mp hn
    have hpaired := Array.all_eq_true_iff_forall_mem.mp (Option.some.inj hall) n
      (Array.mem_of_getElem? hn)
    rw [hc] at hpaired
    exact paired_of_isPaired hpaired
  refine ⟨b, found, oracle, d, hb, closed_nullishTable.oracle, made_nullishStore, hlint, hd, hmessage,
    r, c, value, fallback, hc, hrange, hfixes, tested, htested,
    fun w v hv => hmeaning hpaired w v fun id htype => ?_⟩
  obtain rfl : id = 14 := by
    simp only [TypeTable.oracle, TypeTable.typeAt?, nullishTable, List.lookup_cons,
      List.lookup_nil] at htype
    split at htype
    · exact (Option.some.inj htype).symm
    · split at htype
      · exact (Option.some.inj htype).symm
      · cases htype
  exact ⟨by decide, hv⟩

/-- A table in which the tested operand of `testsNull` has the type `void`. -/
def voidTable : TypeTable := (TypeTable.new .strict).setType (some 0) TypeId.void

/-- `x === null ? y : x;` -/
def testsNull : TypeLint.Program :=
  [.statement (.expression (.conditional
    (.binary (.identifier "x") .equalsEqualsEqualsToken (.keyword .nullKeyword))
    (.identifier "y") (.identifier "x")))]

/-- A conditional expression is reported whose tested expression is of the type `void`, although it
    gives the value of the expression where that is `undefined`. -/
theorem lint_ternary_void :
    ∃ b found oracle d c tested, Program.build "a.ts" testsNull = .ok b ∧
      Linter.lint ⟨[⟨rule .default, .error⟩]⟩ b.file (some voidTable.oracle) =
        .ok (.ok (found, oracle)) ∧
      d ∈ found ∧ d.messageId = "preferNullishOverTernary" ∧ (d.start, d.stop) = (0, 18) ∧
      (b.file.tree.get? (some 8)).bind Node.conditional? = some c ∧
      voidTable.typeAt? (some 0) = some TypeId.void ∧
      (∀ w, Inhabits w voidTable.store .undefined TypeId.void) ∧
      b.file.tree.skipParentheses c.whenFalse = .ok tested ∧
      Decides b.file.tree tested .undefined c.condition false ∧
      branch c false = c.whenFalse := by
  have hlints : Linter.messages? ⟨rule .default, .error⟩ testsNull voidTable =
      some [("preferNullishOverTernary", 0, 18)] := by
    decide +kernel
  obtain ⟨b, found, oracle, d, hb, hlint, hd, hmessage, hrange⟩ := Linter.exists_of_messages? hlints
  have hrun : ((Program.build "a.ts" testsNull).toOption.bind fun b =>
      ((b.file.tree.get? (some 8)).bind Node.conditional?).bind fun c =>
        (b.file.tree.skipParentheses c.whenFalse).toOption.bind fun tested =>
          (b.file.tree.skipParentheses c.condition).toOption.bind fun condition =>
            (b.file.tree.binary? condition).bind fun test =>
              let value := operandValue? b.file.tree tested .undefined
              (value test.left).bind fun left =>
                (value test.right).bind (Value.compare? test.operator left)) = some false := by
    decide +kernel
  rw [hb, Except.toOption, Option.bind_some] at hrun
  obtain ⟨c, hc, hrun⟩ := Option.bind_eq_some_iff.mp hrun
  obtain ⟨tested, htested, hrun⟩ := Option.bind_eq_some_iff.mp hrun
  obtain ⟨condition, hcondition, hrun⟩ := Option.bind_eq_some_iff.mp hrun
  obtain ⟨test, htest, hrun⟩ := Option.bind_eq_some_iff.mp hrun
  obtain ⟨left, hleft, hrun⟩ := Option.bind_eq_some_iff.mp hrun
  obtain ⟨right, hright, hrun⟩ := Option.bind_eq_some_iff.mp hrun
  exact ⟨b, found, oracle, d, c, tested, hb, hlint, hd, hmessage, hrange, hc, rfl,
    fun w => .intrinsic rfl rfl, eq_ok_of_toOption htested,
    .comparison (eq_ok_of_toOption hcondition) htest hleft hright hrun, rfl⟩

end TypeLint.Rules.NullishCoalescing
