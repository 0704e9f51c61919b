import TypeLint.Proofs.Rules.CoalescingFix
import TypeLint.Proofs.Rules.Negations
import TypeLint.Proofs.Text.UnitOrder
import TypeLint.Proofs.Values.Truthiness

namespace TypeLint.Values

/-- The first value is smaller than the second one: a text by its UTF-16 units, or an integer. -/
inductive Value.Less : Value → Value → Prop where
  | string {a b : String} (h : Text.utf16 a < Text.utf16 b) : Less (.string a) (.string b)
  | bigint {m n : Int} (h : m < n) : Less (.bigint m) (.bigint n)

theorem Value.less_string_iff {a b : String} :
    Less (.string a) (.string b) ↔ Text.utf16 a < Text.utf16 b :=
  ⟨fun | .string h => h, .string⟩

theorem Value.less_bigint_iff {m n : Int} : Less (.bigint m) (.bigint n) ↔ m < n :=
  ⟨fun | .bigint h => h, .bigint⟩

end TypeLint.Values

namespace TypeLint.Rules.Comparison

open Syntax TypeLint.Types Values

/-- Decimal digits behind an optional minus sign that spell an integer of 128 bits. -/
structure IsWide (digits : String) (n : Int) : Prop where
  spelled : (LiteralValue.bigint digits).IsSpelled
  value : bigintValue? digits = some n
  low : -2 ^ 127 ≤ n
  high : n < 2 ^ 127

/-- Two literals with an order, and their values. -/
inductive Comparable : LiteralValue → LiteralValue → Value → Value → Prop where
  | strings (a b : String) : Comparable (.string a) (.string b) (.string a) (.string b)
  | bigints {a b : String} {m n : Int} (ha : IsWide a m) (hb : IsWide b n) :
      Comparable (.bigint a) (.bigint b) (.bigint m) (.bigint n)

/-- What is told about the comparisons of two values fits together and tells equal values from
    different ones. -/
structure Coherent (verdict : Kind → Bool) (v w : Value) : Prop where
  /-- Just one of `<`, `===` and `>` holds. -/
  single : (verdict .lessThanToken).toNat + (verdict .equalsEqualsEqualsToken).toNat +
    (verdict .greaterThanToken).toNat = 1
  atMost : verdict .lessThanEqualsToken =
    (verdict .lessThanToken || verdict .equalsEqualsEqualsToken)
  atLeast : verdict .greaterThanEqualsToken =
    (verdict .greaterThanToken || verdict .equalsEqualsEqualsToken)
  strictlyDiffer : verdict .exclamationEqualsEqualsToken = !verdict .equalsEqualsEqualsToken
  looselyDiffer : verdict .exclamationEqualsToken = !verdict .equalsEqualsToken
  loosely : verdict .equalsEqualsToken = verdict .equalsEqualsEqualsToken
  equal : verdict .equalsEqualsEqualsToken = true ↔ v = w

/-- The results follow the order of the values, except that equality is the one of the literals. -/
structure Follows (verdict : Kind → Bool) (x y : LiteralValue) (v w : Value) : Prop where
  less : verdict .lessThanToken = true ↔ v.Less w
  greater : verdict .greaterThanToken = true ↔ w.Less v
  atMost : verdict .lessThanEqualsToken = true ↔ v.Less w ∨ v = w
  atLeast : verdict .greaterThanEqualsToken = true ↔ w.Less v ∨ v = w
  strictly : verdict .equalsEqualsEqualsToken = true ↔ x = y
  loosely : verdict .equalsEqualsToken = verdict .equalsEqualsEqualsToken
  strictlyDiffer : verdict .exclamationEqualsEqualsToken = !verdict .equalsEqualsEqualsToken
  looselyDiffer : verdict .exclamationEqualsToken = !verdict .equalsEqualsToken

variable {x y : LiteralValue} {v w : Value}

theorem IsWide.wideInteger?_eq {digits : String} {n : Int} (h : IsWide digits n) :
    wideInteger? digits = some n := by
  obtain ⟨cs, hne, hdigits, hcs⟩ := h.spelled
  have hlow := h.low
  have hhigh := h.high
  rw [wideInteger?, readInt?_eq_bigintValue? hne hdigits hcs, h.value, Option.filter_some,
    if_pos (by simpa using ⟨hlow, hhigh⟩)]

/-- Literals with an order are ordered as their values are. -/
theorem Comparable.exists_order (h : Comparable x y v w) :
    ∃ o : Ordering, order? (.value x) (.value y) = some (some o) ∧
      (o = .lt ↔ v.Less w) ∧ (o = .eq ↔ v = w) ∧ (o = .gt ↔ w.Less v) := by
  cases h with
  | strings a b =>
    have horder := Text.compareUnits_compares a b
    refine ⟨_, rfl, ?_, ?_, ?_⟩
    · rw [horder.eq_lt, Value.less_string_iff]
    · rw [horder.eq_eq, Text.utf16_injective.eq_iff, Value.string.injEq]
    · rw [horder.eq_gt, Value.less_string_iff]
  | @bigints a b m n ha hb =>
    refine ⟨compare m n, ?_, ?_, ?_, ?_⟩
    · simp only [order?, ha.wideInteger?_eq, hb.wideInteger?_eq]
      rfl
    · rw [compare_lt_iff_lt, Value.less_bigint_iff]
    · rw [compare_eq_iff_eq, Value.bigint.injEq]
    · rw [compare_gt_iff_gt, Value.less_bigint_iff]

theorem Comparable.strictlyEqual_eq (h : Comparable x y v w) :
    strictlyEqual (.value x) (.value y) = (x == y) := by
  cases h <;> rfl

theorem Comparable.looselyEqual?_eq (h : Comparable x y v w) :
    looselyEqual? (.value x) (.value y) = some (x == y) := by
  cases h <;> rfl

theorem Comparable.eq_of_eq (h : Comparable x y v w) (heq : x = y) : v = w := by
  cases h with
  | strings a b => rw [LiteralValue.string.inj heq]
  | bigints ha hb =>
    have hvalue := ha.value
    rw [LiteralValue.bigint.inj heq, hb.value] at hvalue
    rw [Option.some.inj hvalue]

/-- The result of a comparison of two literals. -/
def verdict (x y : LiteralValue) (operator : Kind) : Bool :=
  (compareOperands? operator (.value x) (.value y)).getD false

/-- Every comparison of literals with an order has a result. -/
theorem Comparable.compareOperands?_eq (h : Comparable x y v w) {operator : Kind}
    (hoperator : (operator.isEqualityOperator || operator.isRelationalOperator) = true) :
    compareOperands? operator (.value x) (.value y) = some (verdict x y operator) := by
  obtain ⟨o, ho, -⟩ := h.exists_order
  cases operator with
  | equalsEqualsToken | exclamationEqualsToken | equalsEqualsEqualsToken
  | exclamationEqualsEqualsToken | lessThanToken | greaterThanToken | lessThanEqualsToken
  | greaterThanEqualsToken =>
    simp only [verdict, compareOperands?, ho, h.looselyEqual?_eq, Option.map_some,
      Option.getD_some]
  | _ => cases hoperator

theorem Comparable.follows (h : Comparable x y v w) : Follows (verdict x y) x y v w := by
  obtain ⟨o, ho, hlt, heq, hgt⟩ := h.exists_order
  constructor <;>
    simp only [verdict, compareOperands?, ho, h.strictlyEqual_eq, h.looselyEqual?_eq,
      Option.map_some, Option.getD_some, ← hlt, ← heq, ← hgt] <;>
    cases o <;> simp

/-- The results fit together just if equal values are spelled alike. -/
theorem Comparable.coherent_iff (h : Comparable x y v w) :
    Coherent (verdict x y) v w ↔ (v = w → x = y) := by
  have hfollows := h.follows
  constructor
  · exact fun hcoherent hvalues => hfollows.strictly.mp (hcoherent.equal.mpr hvalues)
  · intro hspelled
    have hequal : verdict x y .equalsEqualsEqualsToken = true ↔ v = w :=
      hfollows.strictly.trans ⟨h.eq_of_eq, hspelled⟩
    refine ⟨?_, ?_, ?_, hfollows.strictlyDiffer, hfollows.looselyDiffer, hfollows.loosely, hequal⟩
    · obtain ⟨o, -, hlt, heq, hgt⟩ := h.exists_order
      rw [Bool.eq_iff_iff.mpr (hfollows.less.trans (hlt.symm.trans beq_iff_eq.symm)),
        Bool.eq_iff_iff.mpr (hequal.trans (heq.symm.trans beq_iff_eq.symm)),
        Bool.eq_iff_iff.mpr (hfollows.greater.trans (hgt.symm.trans beq_iff_eq.symm))]
      cases o <;> rfl
    · rw [Bool.eq_iff_iff, Bool.or_eq_true, hfollows.atMost, hfollows.less, hequal]
    · rw [Bool.eq_iff_iff, Bool.or_eq_true, hfollows.atLeast, hfollows.greater, hequal]

end TypeLint.Rules.Comparison

namespace TypeLint.Rules.Condition

open Syntax Binding Check TypeLint.Types TypeLint.Types.Store Values

/-- A comparison in a file of two operands whose types have only the values of two literals. -/
structure Compares (f : SourceFile) (t : Oracle) (r : NodeRef) (b : Binary)
    (x y : LiteralValue) : Prop where
  visited : r ∈ f.tree.preorder f.root
  binary : (f.tree.get? r).bind Node.binary? = some b
  comparison : (b.operator.isEqualityOperator || b.operator.isRelationalOperator) = true
  left : ∃ id, t.typeAt? b.left = some id ∧
    t.store.literalValue? (t.store.baseConstraint id) = some x
  right : ∃ id, t.typeAt? b.right = some id ∧
    t.store.literalValue? (t.store.baseConstraint id) = some y

section

variable {s : Store} {id : TypeId} {x y : LiteralValue} {v w : Value} {f : SourceFile}
  {t : Oracle} {r : NodeRef} {b : Binary}

theorem operand?_of_literalValue? (hs : s.Closed) (h : s.literalValue? id = some x) :
    Comparison.operand? s id = some (.value x) := by
  have hnone {id : TypeId} (hid : Store.initial.Known id)
      (hinitial : Store.initial.literalValue? id = none) : s.literalValue? id = none :=
    (hs.initial.literalValue?_eq hid).trans hinitial
  rw [Comparison.operand?]
  split_ifs with hnull hundefined
  · cases (hnull ▸ h).symm.trans (hnone (by decide) (by decide))
  · cases (hundefined ▸ h).symm.trans (hnone (by decide) (by decide))
  · rw [h, Option.map_some]

theorem isLiteralOperand_of_literalValue? (h : s.literalValue? id = some x)
    (hx : x.flags = .stringLiteral ∨ x.flags = .bigintLiteral) : isLiteralOperand s id = true := by
  rw [isLiteralOperand, Bool.or_eq_true]
  refine .inr ?_
  rw [literalValue?] at h
  split at h
  · next hdata =>
    cases h
    rw [flagsOf_of_isBasic hdata rfl, TypeData.flags]
    rcases hx with hx | hx <;> rw [hx] <;> decide
  · next hdata =>
    cases h
    rw [flagsOf_of_isBasic hdata rfl, TypeData.flags]
    rcases hx with hx | hx <;> rw [hx] <;> decide
  · cases h

theorem isLiteralOperand_of_comparable (hvalues : Comparison.Comparable x y v w)
    {left right : TypeId} (hx : s.literalValue? left = some x)
    (hy : s.literalValue? right = some y) :
    (isLiteralOperand s left && isLiteralOperand s right) = true := by
  rw [Bool.and_eq_true]
  cases hvalues with
  | strings =>
    exact ⟨isLiteralOperand_of_literalValue? hx (.inl rfl),
      isLiteralOperand_of_literalValue? hy (.inl rfl)⟩
  | bigints =>
    exact ⟨isLiteralOperand_of_literalValue? hx (.inr rfl),
      isLiteralOperand_of_literalValue? hy (.inr rfl)⟩

theorem checkBinary_eq_checkComparison
    (h : (b.operator.isEqualityOperator || b.operator.isRelationalOperator) = true) :
    checkBinary r b = checkComparison r b := by
  rw [checkBinary]
  split
  case h_7 => exact if_pos h
  all_goals
    next heq =>
    rw [heq] at h
    cases h

/-- The result of the comparison is what is reported at it. -/
theorem Compares.returns_check (hs : t.store.Closed) (h : Compares f t r b x y)
    (hvalues : Comparison.Comparable x y v w) (o : Options) :
    (check o r).Returns f t [literalReport f r (some (Comparison.verdict x y b.operator))] := by
  obtain ⟨left, hleft, hx⟩ := h.left
  obtain ⟨right, hright, hy⟩ := h.right
  obtain ⟨n, hn, hbinary⟩ := Option.bind_eq_some_iff.mp h.binary
  have hevaluate : Comparison.evaluate? t.store b.operator (t.store.baseConstraint left)
      (t.store.baseConstraint right) = some (Comparison.verdict x y b.operator) := by
    rw [Comparison.evaluate?, operand?_of_literalValue? hs hx, operand?_of_literalValue? hs hy]
    exact hvalues.compareOperands?_eq h.comparison
  refine returns_bind returns_tree ?_
  simp only [hn, NullishCoalescing.kind_of_binary? hbinary, hbinary, onSome,
    checkBinary_eq_checkComparison h.comparison]
  refine returns_bind returns_file (returns_bind returns_store
    (returns_bind (returns_constrainedTypeAt hleft)
      (returns_bind (returns_constrainedTypeAt hright) ?_)))
  rw [if_pos (isLiteralOperand_of_comparable hvalues hx hy), hevaluate]
  exact returns_pure _

end

/-- Whatever the file and the table, what is reported at a comparison of two strings or two big
    integers in decimal that fit into 128 bits is the result of comparing them, and nothing else.
    The results follow the order of the values, but `===` holds of literals that are spelled alike.
    So they fit together just if equal values are spelled alike. Whenever linting comes to an end,
    the result is among what it finds. -/
theorem lint_comparisons {x y : LiteralValue} {v w : Value}
    (hvalues : Comparison.Comparable x y v w) :
    ∃ verdict : Kind → Bool,
      (∀ (o : Options) (category : Category) (f : SourceFile) (t : Oracle),
        SourceFile.ofTree f.fileName f.text f.tree f.root = .ok f → t.Closed →
        ∀ r b, Compares f t r b x y →
          ((rule o).check r).Returns f t [literalReport f r (some (verdict b.operator))] ∧
          (f.tree.Grounded → t.store.Grounded → ∃ found oracle,
            Linter.lint ⟨[⟨rule o, category⟩]⟩ f (some t) = .ok (.ok (found, oracle))) ∧
          ∀ found oracle,
            Linter.lint ⟨[⟨rule o, category⟩]⟩ f (some t) = .ok (.ok (found, oracle)) →
            info.diagnostic f.fileName category (literalReport f r (some (verdict b.operator))) ∈
              found) ∧
      Comparison.Follows verdict x y v w ∧
      (Comparison.Coherent verdict v w ↔ (v = w → x = y)) := by
  refine ⟨Comparison.verdict x y, fun o category f t hf ht r b h => ?_, hvalues.follows,
    hvalues.coherent_iff⟩
  have hreturns := h.returns_check ht.store hvalues o
  obtain ⟨n, hn, hbinary⟩ := Option.bind_eq_some_iff.mp h.binary
  have hkind : f.tree.kind? r = some .binaryExpression := by
    rw [Tree.kind?, hn, Option.map_some, NullishCoalescing.kind_of_binary? hbinary]
  refine ⟨hreturns, fun htree hstore => exists_lint ht hstore o category htree,
    fun found oracle hlint => ?_⟩
  refine Linter.mem_of_returns (Rule.Builtin.condition o |>.steady ht) rfl hkind (by simp)
    hreturns h.visited hlint ?_
  exact mem_findings_singleton hf hn ⟨rule o, category⟩ rfl rfl

/-- `a < b;`, or the same with another operator. -/
def comparison (operator : Kind) : TypeLint.Program :=
  [.statement (.expression (.binary (.identifier "a") operator (.identifier "b")))]

/-- A table in which `a` and `b` have the types of two literals. -/
def literalTable (x y : LiteralValue) : TypeTable :=
  { TypeTable.new .strict with
    store := ((Store.initial.intern (.literal x)).2.intern (.literal y)).2
    nodeTypes := [(some 0, 14), (some 2, 15)] }

theorem made_literalTable (x y : LiteralValue) : (literalTable x y).store.Made :=
  .intern (.intern .initial rfl (List.forall_mem_nil _)) rfl (List.forall_mem_nil _)

theorem closed_literalTable {x y : LiteralValue} (h : (literalTable x y).store.Known 15) :
    (literalTable x y).Closed := by
  refine TypeTable.closed_of_nodeTypes (made_literalTable x y).normal.closed ?_ .strict
  exact List.forall_mem_cons.mpr ⟨Nat.lt_of_succ_lt h, List.forall_mem_singleton.mpr h⟩

/-- A text with the larger code point, but the smaller units, and the other one. -/
def textTable : TypeTable := literalTable (.string "😀") (.string "ａ")

theorem lint_comparisons_strings :
    ∃ b found oracle, Program.build "a.ts" (comparison .lessThanToken) = .ok b ∧
      Linter.lint ⟨[⟨rule .default, .error⟩]⟩ b.file (some textTable.oracle) =
        .ok (.ok (found, oracle)) ∧
      info.diagnostic b.file.fileName .error (literalReport b.file (some 3) (some true)) ∈ found ∧
      (Value.string "😀").Less (.string "ａ") := by
  obtain ⟨b, hb⟩ : ∃ b, Program.build "a.ts" (comparison .lessThanToken) = .ok b :=
    Program.exists_build _ (by decide +kernel)
  obtain ⟨verdict, hreported, hfollows, -⟩ := lint_comparisons (.strings "😀" "ａ")
  have hless : (Value.string "😀").Less (.string "ａ") := .string (by decide +kernel)
  obtain ⟨hvisited, hbinary, hleft, hright, hx, hy⟩ := Program.of_build hb (fun b =>
    some 3 ∈ b.file.tree.preorder b.file.root ∧
      (b.file.tree.get? (some 3)).bind Node.binary? =
        some ⟨some 0, some 1, .lessThanToken, some 2⟩ ∧
      textTable.typeAt? (some 0) = some 14 ∧ textTable.typeAt? (some 2) = some 15 ∧
      textTable.store.literalValue? (textTable.store.baseConstraint 14) = some (.string "😀") ∧
      textTable.store.literalValue? (textTable.store.baseConstraint 15) = some (.string "ａ"))
    (by decide +kernel)
  have hf := (Program.shown_of_build hb).1
  obtain ⟨-, hends, hfinds⟩ := hreported .default .error b.file textTable.oracle hf.ofTree_eq
    (closed_literalTable (by decide +kernel)).oracle (some 3) _
    ⟨hvisited, hbinary, rfl, ⟨14, hleft, hx⟩, ⟨15, hright, hy⟩⟩
  obtain ⟨found, oracle, hlint⟩ := hends (hf.grounded (by decide +kernel))
    (made_literalTable _ _).ordered.grounded
  have hfound := hfinds found oracle hlint
  rw [hfollows.less.mpr hless] at hfound
  exact ⟨b, found, oracle, hb, hlint, hfound, hless⟩

/-- The messages about a comparison of two literals. -/
def messageTexts? (x y : LiteralValue) (operator : Kind) : Option (List String) :=
  Linter.viewWith? ⟨rule .default, .error⟩ (comparison operator) (fun _ => literalTable x y)
    (·.messageText)

/-- Of the integer `0` and the same integer spelled `-0`, none of `<`, `===` and `>` is told to
    hold, but `<=` is. -/
theorem lint_comparison_respelled :
    Comparison.Comparable (.bigint "0") (.bigint "-0") (.bigint 0) (.bigint 0) ∧
      (∀ operator ∈ [.lessThanToken, .equalsEqualsEqualsToken, .greaterThanToken],
        messageTexts? (.bigint "0") (.bigint "-0") operator =
          some [info.message "literalComparisonResult" ["false"]]) ∧
      messageTexts? (.bigint "0") (.bigint "-0") .lessThanEqualsToken =
        some [info.message "literalComparisonResult" ["true"]] := by
  have hplain : Comparison.IsWide "0" 0 :=
    ⟨⟨['0'], by decide, List.forall_mem_singleton.mpr rfl, .inl rfl⟩, rfl,
      by norm_num, by norm_num⟩
  have hsigned : Comparison.IsWide "-0" 0 :=
    ⟨⟨['0'], by decide, List.forall_mem_singleton.mpr rfl, .inr rfl⟩, rfl,
      by norm_num, by norm_num⟩
  exact ⟨.bigints hplain hsigned, by decide +kernel, by decide +kernel⟩

end TypeLint.Rules.Condition
