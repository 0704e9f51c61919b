import TypeLint.Proofs.Lint.Outcomes
import TypeLint.Proofs.Values.Verdicts

namespace TypeLint.Rules.Condition

open Syntax Binding Check MemberNullability Values TypeLint.Types TypeLint.Types.Store

/-- The operators whose left operand is tested. -/
def testingOperators : List Kind :=
  [.ampersandAmpersandToken, .barBarToken, .ampersandAmpersandEqualsToken, .barBarEqualsToken]

/-- The expression is tested for counting as true, or for counting as false if it stands under a
    negation. -/
inductive Tested (t : Tree) : NodeRef → Bool → Prop where
  | ofIf {r : NodeRef} {n : Node} {s : If} (hn : t.get? r = some n)
      (hs : n.ifStatement? = some s) : Tested t s.expression false
  | ofConditional {r : NodeRef} {n : Node} {c : Conditional} (hn : t.get? r = some n)
      (hc : n.conditional? = some c) : Tested t c.condition false
  | ofLoop {r : NodeRef} {n : Node} {l : Loop} (hn : t.get? r = some n)
      (hl : n.loop? = some l) : Tested t l.condition false
  | ofLeft {r : NodeRef} {n : Node} {b : Binary} (hn : t.get? r = some n)
      (hb : n.binary? = some b) (hoperator : b.operator ∈ testingOperators) : Tested t b.left false
  /-- What the callback of an array predicate returns. -/
  | ofCallback {r object callback result : NodeRef} {n : Node} {call : Call}
      (hn : t.get? r = some n) (hcall : n.call? = some call)
      (hobject : predicateObject? t call.expression = some object)
      (hcallback : call.arguments.head? = some callback)
      (hresult : functionResult t callback = .expression result) : Tested t result false
  | inside {r inner : NodeRef} {negated : Bool} (h : Tested t r negated)
      (hinner : t.skipParentheses r = .ok inner) : Tested t inner negated
  | negation {r operand : NodeRef} {n : Node} {negated : Bool} (h : Tested t r negated)
      (hn : t.get? r = some n) (hoperand : negated? n = some operand) : Tested t operand true
  /-- The right operand of a logical expression decides when the left one does not. -/
  | right {r right : NodeRef} {n : Node} {negated : Bool} (h : Tested t r negated)
      (hn : t.get? r = some n) (hright : logicalRight? n = some right) : Tested t right false

/-- The expression is the left operand of `??` or `??=`, inside any parentheses. -/
inductive Coalesced (t : Tree) : NodeRef → Prop where
  | left {r inner : NodeRef} {n : Node} {b : Binary} (hn : t.get? r = some n)
      (hb : n.binary? = some b)
      (hoperator : b.operator = .questionQuestionToken ∨ b.operator = .questionQuestionEqualsToken)
      (hinner : t.skipParentheses b.left = .ok inner) : Coalesced t inner

variable {t : Oracle} {f : SourceFile} {report : Report}

/-- A report that a condition has always the same outcome is one on the type of a tested
    expression. -/
def TruthReport (t : Oracle) (f : SourceFile) (report : Report) : Prop :=
  report.messageId = "alwaysTruthy" ∨ report.messageId = "alwaysFalsy" →
    ∃ x negated id, Tested f.tree x negated ∧ f.range x = (report.start, report.stop) ∧
      t.typeAt? x = some id ∧
      truthVerdict? t.store negated (t.store.baseConstraint id) = some report.messageId

/-- A report that a left operand of `??` is never or always nullish is one on its type. -/
def NullishReport (t : Oracle) (f : SourceFile) (report : Report) : Prop :=
  report.messageId = "neverNullish" ∨ report.messageId = "alwaysNullish" →
    ∃ x id, Coalesced f.tree x ∧ f.range x = (report.start, report.stop) ∧ t.typeAt? x = some id ∧
      t.store.hasFlag (t.store.baseConstraint id) unjudged = false ∧
      (report.messageId = "neverNullish" →
        t.store.isPossiblyNullish (t.store.baseConstraint id) = false) ∧
      (report.messageId = "alwaysNullish" →
        t.store.isAlwaysNullish (t.store.baseConstraint id) = true)

/-- A report is right about the type that it goes by. -/
def Justified (t : Oracle) (f : SourceFile) (report : Report) : Prop :=
  TruthReport t f report ∧ NullishReport t f report

/-- Reports with other messages do not matter here. -/
theorem justified_of_messageId (h : report.messageId ∉
    ["alwaysTruthy", "alwaysFalsy", "neverNullish", "alwaysNullish"]) : Justified t f report := by
  simp only [List.mem_cons, List.not_mem_nil, or_false, not_or] at h
  exact ⟨fun hid => (hid.elim h.1 h.2.1).elim, fun hid => (hid.elim h.2.2.1 h.2.2.2).elim⟩

theorem messageId_of_truthVerdict? {s : Store} {negated : Bool} {id : TypeId} {message : String}
    (h : truthVerdict? s negated id = some message) :
    message ∉ ["neverNullish", "alwaysNullish"] := by
  rw [truthVerdict?] at h
  split_ifs at h <;> cases h <;> decide

theorem messageId_of_callbackVerdict? {s : Store} {returns : List TypeId} {message : String}
    (h : callbackVerdict? s returns = some message) :
    message ∉ ["alwaysTruthy", "alwaysFalsy", "neverNullish", "alwaysNullish"] := by
  rw [callbackVerdict?] at h
  split_ifs at h <;> cases h <;> decide

theorem messageId_literalReport (r : NodeRef) (result : Option Bool) :
    (literalReport f r result).messageId = "literalBooleanExpression" := by
  cases result <;> rfl

/-- All reports of the check are justified. -/
abbrev JustifiedOn (check : Check (List Report)) (t : Oracle) (f : SourceFile) : Prop :=
  check.GivesOn t f fun reports => ∀ report ∈ reports, Justified t f report

theorem justifiedOn_nil : JustifiedOn (pure []) t f := givesOn_pure (List.forall_mem_nil _)

theorem justifiedOn_single (h : Justified t f report) : JustifiedOn (pure [report]) t f :=
  givesOn_pure (List.forall_mem_singleton.mpr h)

theorem justifiedOn_new {message : String} {range : Nat × Nat}
    (h : message ∉ ["alwaysTruthy", "alwaysFalsy", "neverNullish", "alwaysNullish"]) :
    JustifiedOn (pure [.new message range]) t f :=
  justifiedOn_single (justified_of_messageId h)

theorem justifiedOn_onSome {α : Type} (value : Option α) {check : α → Check (List Report)}
    (hcheck : ∀ a, value = some a → JustifiedOn (check a) t f) :
    JustifiedOn (onSome value check) t f := by
  cases value with
  | none => exact justifiedOn_nil
  | some a => exact hcheck a rfl

theorem justifiedOn_ite_bind {α : Type} {c : Prop} [Decidable c] {yes no : Check α}
    {next : α → Check (List Report)} (hyes : yes.Steady t f) (hno : no.Steady t f)
    (hnext : ∀ a, JustifiedOn (next a) t f) :
    JustifiedOn (if c then yes >>= next else no >>= next) t f := by
  split_ifs
  · exact givesOn_bind hyes fun a _ => hnext a
  · exact givesOn_bind hno fun a _ => hnext a

theorem justifiedOn_requireStrictNullChecks (allowed : Bool) :
    JustifiedOn (requireStrictNullChecks allowed) t f := by
  refine givesOn_bind agree_options fun options _ => ?_
  split_ifs
  · exact justifiedOn_nil
  · exact justifiedOn_new (by decide)

variable (ht : t.Closed)

include ht

theorem justifiedOn_checkConditionTo (depth : Nat) {r : NodeRef} {negated : Bool}
    (hr : Tested f.tree r negated) : JustifiedOn (checkConditionTo depth r negated) t f := by
  induction depth generalizing r negated with
  | zero => exact givesOn_crash _ _
  | succ depth ih =>
    refine givesOn_bind agree_file ?_
    rintro _ ⟨rfl, -⟩
    refine givesOn_bind (agree_lift _) fun inner hinner => ?_
    have hinside := hr.inside hinner.1
    split
    · exact justifiedOn_nil
    · next n hn =>
      split
      · next operand hoperand => exact ih (hinside.negation hn hoperand)
      · refine givesOn_bind agree_options fun options _ => ?_
        refine justifiedOn_ite_bind (agree_pure rfl) (steady_readsIndex ht _) fun skipped => ?_
        dsimp only
        split_ifs
        · exact justifiedOn_nil
        · split
          · next right hright => exact ih (hinside.right hn hright)
          · refine givesOn_bind agree_store fun s hs => ?_
            refine givesOn_bind_of (agree_constrainedTypeAt ht _)
              (givesOn_constrainedTypeAt ht _) ?_
            rintro _ ⟨hid, -⟩ ⟨id, htype, rfl⟩
            rw [truthVerdict?_eq hs.1 ht hid]
            cases hverdict : truthVerdict? t.store negated (t.store.baseConstraint id) with
            | none => exact justifiedOn_nil
            | some message =>
              have hother := messageId_of_truthVerdict? hverdict
              simp only [List.mem_cons, List.not_mem_nil, or_false, not_or] at hother
              exact justifiedOn_single ⟨fun _ => ⟨_, negated, id, hinside, rfl, htype, hverdict⟩,
                fun hmessage => (hmessage.elim hother.1 hother.2).elim⟩

theorem justifiedOn_checkCondition {r : NodeRef} (hr : Tested f.tree r false) :
    JustifiedOn (checkCondition r) t f := by
  refine givesOn_bind agree_tree ?_
  rintro _ ⟨rfl, -⟩
  exact justifiedOn_checkConditionTo ht _ hr

theorem justifiedOn_checkNullish {r : NodeRef}
    (hr : ∀ inner, f.tree.skipParentheses r = .ok inner → Coalesced f.tree inner) :
    JustifiedOn (checkNullish r) t f := by
  refine givesOn_bind agree_file ?_
  rintro _ ⟨rfl, -⟩
  refine givesOn_bind (agree_lift _) fun inner hinner => ?_
  refine givesOn_bind agree_store fun s hs => ?_
  refine givesOn_bind_of (agree_constrainedTypeAt ht _) (givesOn_constrainedTypeAt ht _) ?_
  rintro _ ⟨hid, -⟩ ⟨id, htype, rfl⟩
  rw [hs.1.hasFlag_eq ht.store hid, hs.1.hasFlag_eq ht.store hid,
    hs.1.isPossiblyNullish_eq ht.store hid, hs.1.isAlwaysNullish_eq ht.store hid]
  have hjudged (message : String) (hmessage : message ∉ ["alwaysTruthy", "alwaysFalsy"])
      (hunjudged : t.store.hasFlag (t.store.baseConstraint id) unjudged = false)
      (hnever : message = "neverNullish" →
        t.store.isPossiblyNullish (t.store.baseConstraint id) = false)
      (halways : message = "alwaysNullish" →
        t.store.isAlwaysNullish (t.store.baseConstraint id) = true) :
      Justified t f (.new message (f.range inner)) := by
    simp only [List.mem_cons, List.not_mem_nil, or_false, not_or] at hmessage
    exact ⟨fun htruth => (htruth.elim hmessage.1 hmessage.2).elim,
      fun _ => ⟨_, id, hr inner hinner.1, rfl, htype, hunjudged, hnever, halways⟩⟩
  split_ifs with hunjudged hnever hnullish halways
  · exact justifiedOn_nil
  · exact justifiedOn_new (by decide)
  · refine givesOn_bind (steady_mayBeNullishAnyway ht _) fun anyway _ => ?_
    split_ifs
    · exact justifiedOn_nil
    · exact justifiedOn_single (hjudged _ (by decide) (by simpa using hunjudged)
        (fun _ => by simpa using hnullish) fun h => absurd h (by decide))
  · exact justifiedOn_single (hjudged _ (by decide) (by simpa using hunjudged)
      (fun h => absurd h (by decide)) fun _ => halways)
  · exact justifiedOn_nil

theorem justifiedOn_checkComparison (r : NodeRef) (b : Binary) :
    JustifiedOn (checkComparison r b) t f := by
  refine givesOn_bind agree_file ?_
  rintro _ ⟨rfl, -⟩
  refine givesOn_bind agree_store fun s hs => ?_
  refine givesOn_bind (agree_constrainedTypeAt ht _) fun left _ => ?_
  refine givesOn_bind (agree_constrainedTypeAt ht _) fun right _ => ?_
  split_ifs
  · refine justifiedOn_single (justified_of_messageId ?_)
    rw [messageId_literalReport]
    decide
  · refine givesOn_bind agree_options fun options _ => ?_
    split_ifs
    · exact justifiedOn_new (by decide)
    · exact justifiedOn_nil

theorem justifiedOn_checkArrayPredicate (r : NodeRef) :
    JustifiedOn (checkArrayPredicate r) t f := by
  refine givesOn_bind agree_file ?_
  rintro _ ⟨rfl, -⟩
  split
  · exact justifiedOn_nil
  · next call hcall =>
    obtain ⟨n, hn, hcall⟩ := Option.bind_eq_some_iff.mp hcall
    split
    · next callback object hcallback hobject =>
      refine givesOn_bind agree_store fun s hs => ?_
      refine givesOn_bind (agree_constrainedTypeAt ht _) fun objectType _ => ?_
      split_ifs
      · exact justifiedOn_nil
      · split
        · exact justifiedOn_nil
        · next result hresult =>
          exact justifiedOn_checkCondition ht (.ofCallback hn hcall hobject hcallback hresult)
        · refine givesOn_bind (agree_constrainedTypeAt ht _) fun callbackType _ => ?_
          cases hverdict : callbackVerdict? s (s.allCallReturns callbackType) with
          | none => exact justifiedOn_nil
          | some message =>
            exact justifiedOn_new (messageId_of_callbackVerdict? hverdict)
    · exact justifiedOn_nil

theorem justifiedOn_checkBinary {r : NodeRef} {n : Node} {b : Binary} (hn : f.tree.get? r = some n)
    (hb : n.binary? = some b) : JustifiedOn (checkBinary r b) t f := by
  rw [checkBinary]
  split
  · next hoperator => exact justifiedOn_checkNullish ht fun _ => .left hn hb (.inl hoperator)
  · next hoperator => exact justifiedOn_checkNullish ht fun _ => .left hn hb (.inr hoperator)
  · next hoperator => exact justifiedOn_checkCondition ht (.ofLeft hn hb (hoperator ▸ by decide))
  · next hoperator => exact justifiedOn_checkCondition ht (.ofLeft hn hb (hoperator ▸ by decide))
  · next hoperator => exact justifiedOn_checkCondition ht (.ofLeft hn hb (hoperator ▸ by decide))
  · next hoperator => exact justifiedOn_checkCondition ht (.ofLeft hn hb (hoperator ▸ by decide))
  · split_ifs
    · exact justifiedOn_checkComparison ht r b
    · exact justifiedOn_nil

theorem justifiedOn_checkLoop (o : Options) {r : NodeRef} {n : Node} {l : Loop}
    (hn : f.tree.get? r = some n) (hl : n.loop? = some l) : JustifiedOn (checkLoop o l) t f := by
  have hrest (constant : Bool) :
      JustifiedOn (if constant then pure [] else checkCondition l.condition) t f := by
    split_ifs
    · exact justifiedOn_nil
    · exact justifiedOn_checkCondition ht (.ofLoop hn hl)
  rw [checkLoop]
  by_cases hnone : l.condition.isNone = true
  · rw [if_pos hnone]
    exact justifiedOn_nil
  · rw [if_neg hnone]
    dsimp only
    split_ifs
    · exact givesOn_bind (agree_constrainedTypeAt ht _) fun id _ => hrest (id == TypeId.trueLiteral)
    · exact hrest false

theorem justifiedOn_check (o : Options) (r : NodeRef) :
    JustifiedOn (Condition.check o r) t f := by
  refine givesOn_bind agree_tree ?_
  rintro _ ⟨rfl, -⟩
  split
  · exact justifiedOn_nil
  · next n hn =>
    split
    · exact justifiedOn_onSome _ fun _ hs => justifiedOn_checkCondition ht (.ofIf hn hs)
    · exact justifiedOn_onSome _ fun _ hc => justifiedOn_checkCondition ht (.ofConditional hn hc)
    · exact justifiedOn_onSome _ fun _ hl => justifiedOn_checkLoop ht o hn hl
    · exact justifiedOn_onSome _ fun _ hl => justifiedOn_checkLoop ht o hn hl
    · exact justifiedOn_onSome _ fun _ hl => justifiedOn_checkLoop ht o hn hl
    · exact justifiedOn_onSome _ fun _ hb => justifiedOn_checkBinary ht hn hb
    · exact justifiedOn_checkArrayPredicate ht r
    · exact justifiedOn_nil

/-- What every value of a tested expression counts as if a message about its condition is right. -/
def claimedTruth (message : String) (negated : Bool) : Bool :=
  (message == "alwaysTruthy") != negated

omit ht

section

variable {s : Store} {negated : Bool} {id : TypeId} {message : String} {w : World} {v : Value}

theorem truthVerdict?_cases (h : truthVerdict? s negated id = some message) :
    s.hasFlag id unjudged = false ∧
      (message = "never" ∨
        s.isPossiblyTruthy id = false ∧ claimedTruth message negated = false ∨
        s.isPossiblyFalsy id = false ∧ claimedTruth message negated = true) := by
  rw [truthVerdict?] at h
  by_cases hunjudged : s.hasFlag id unjudged = true
  · rw [if_pos hunjudged] at h
    cases h
  · rw [if_neg hunjudged] at h
    refine ⟨Bool.eq_false_iff.mpr hunjudged, ?_⟩
    split_ifs at h with hnever htruthy hfalsy
    · exact .inl (Option.some.inj h).symm
    all_goals
      cases h
      cases negated <;> simp_all [claimedTruth]

theorem hasFlag_anyOrUnknown_of_unjudged (h : s.hasFlag id unjudged = false) :
    s.hasFlag id .anyOrUnknown = false := by
  rw [unjudged, hasFlag_union, Bool.or_eq_false_iff] at h
  exact h.1

/-- A message about a condition is right about every value of the type. -/
theorem isTruthy_of_truthVerdict? (hn : s.Normal) (h : truthVerdict? s negated id = some message)
    (hnever : message ≠ "never")
    (hsure : claimedTruth message negated = true → s.Overt id ∧ s.DecimalParts id)
    (hv : Inhabits w s v id) : v.isTruthy = claimedTruth message negated := by
  obtain ⟨hunjudged, hmessage | ⟨htruthy, hclaimed⟩ | ⟨hfalsy, hclaimed⟩⟩ := truthVerdict?_cases h
  · exact (hnever hmessage).elim
  · rw [hclaimed]
    exact isTruthy_eq_false_of_isPossiblyTruthy htruthy hv
  · obtain ⟨hovert, hdecimal⟩ := hsure hclaimed
    rw [hclaimed]
    exact hn.isTruthy_of_isPossiblyFalsy hovert hdecimal
      (hasFlag_anyOrUnknown_of_unjudged hunjudged) hfalsy hv

end

/-- Linting finds that a condition is always true or false only where all values of the tested
    expression count so, and that a left operand of `??` is never or always nullish only where its
    values are so. That a value counts as true or is not nullish needs an overt type, and the former
    that its big integers are spelled in decimal. -/
theorem lint_verdicts_hold {o : Options} {category : Category} (ht : t.Closed)
    (hmade : t.store.Made) {found : List Diagnostic} {oracle : Option Oracle}
    (hlint : Linter.lint ⟨[⟨rule o, category⟩]⟩ f (some t) = .ok (.ok (found, oracle)))
    {d : Diagnostic} (hd : d ∈ found) :
    (d.messageId = "alwaysTruthy" ∨ d.messageId = "alwaysFalsy" →
      ∃ x negated id, Tested f.tree x negated ∧ f.range x = (d.start, d.stop) ∧
        t.typeAt? x = some id ∧
        ((claimedTruth d.messageId negated = true →
            t.store.Overt (t.store.baseConstraint id) ∧
              t.store.DecimalParts (t.store.baseConstraint id)) →
          ∀ w v, Inhabits w t.store v id → v.isTruthy = claimedTruth d.messageId negated)) ∧
    (d.messageId = "neverNullish" →
      ∃ x id, Coalesced f.tree x ∧ f.range x = (d.start, d.stop) ∧ t.typeAt? x = some id ∧
        (t.store.Overt (t.store.baseConstraint id) →
          ∀ w v, Inhabits w t.store v id → v.isNullish = false)) ∧
    (d.messageId = "alwaysNullish" →
      ∃ x id, Coalesced f.tree x ∧ f.range x = (d.start, d.stop) ∧ t.typeAt? x = some id ∧
        ∀ w v, Inhabits w t.store v id → v.isNullish = true) := by
  have hn := hmade.normal
  obtain ⟨report, ⟨htruth, hnullish⟩, rfl⟩ := Linter.exists_report
    (Rule.Builtin.condition o |>.steady ht) (justifiedOn_requireStrictNullChecks _)
    (fun r _ => justifiedOn_check ht o r) hlint hd
  refine ⟨fun hid => ?_, fun hid => ?_, fun hid => ?_⟩
  · obtain ⟨x, negated, id, hx, hrange, htype, hverdict⟩ := htruth hid
    refine ⟨x, negated, id, hx, hrange, htype, fun hsure w v hv => ?_⟩
    refine isTruthy_of_truthVerdict? hn hverdict ?_ hsure hv.baseConstraint
    rcases hid with hid | hid <;> exact hid ▸ by decide
  · obtain ⟨x, id, hx, hrange, htype, hunjudged, hnever, -⟩ := hnullish (.inl hid)
    refine ⟨x, id, hx, hrange, htype, fun hovert w v hv => ?_⟩
    exact hn.isNullish_eq_false hovert (hasFlag_anyOrUnknown_of_unjudged hunjudged) (hnever hid)
      hv.baseConstraint
  · obtain ⟨x, id, hx, hrange, htype, -, -, halways⟩ := hnullish (.inr hid)
    exact ⟨x, id, hx, hrange, htype, fun w v hv =>
      isNullish_of_isAlwaysNullish (halways hid) hv.baseConstraint⟩

/-- A store with the type `"a" & T` for a type parameter `T`. -/
def brandStore : Store :=
  ((((Store.initial.intern (.literal (.string "a"))).2.intern (.parameter "T" none)).2).intersection
    [14, 15]).2

/-- A table in which the first node of a file has the type `"a" & T`. -/
def brandTable : TypeTable :=
  { TypeTable.new .strict with store := brandStore, nodeTypes := [(some 0, 16)] }

theorem made_brandStore : brandStore.Made :=
  .intersection (.intern (.intern .initial rfl (by decide)) rfl (by decide))
    (by decide)

theorem closed_brandTable : brandTable.Closed :=
  TypeTable.closed_of_nodeTypes made_brandStore.normal.closed (by decide) .strict

/-- `x || y;` -/
def eitherProgram : TypeLint.Program :=
  [.statement (.expression (.binary (.identifier "x") .barBarToken (.identifier "y")))]

theorem lint_verdicts_hold_brand :
    ∃ b found oracle d, Program.build "a.ts" eitherProgram = .ok b ∧ brandTable.oracle.Closed ∧
      brandTable.store.Made ∧
      Linter.lint ⟨[⟨rule .default, .error⟩]⟩ b.file (some brandTable.oracle) =
        .ok (.ok (found, oracle)) ∧
      d ∈ found ∧ d.messageId = "alwaysTruthy" ∧
      ∃ x negated, Tested b.file.tree x negated ∧ b.file.range x = (d.start, d.stop) ∧
        brandTable.typeAt? x = some 16 ∧
        ∀ w v, Inhabits w brandStore v 16 → v.isTruthy = claimedTruth "alwaysTruthy" negated := by
  have hrun : Linter.messages? ⟨rule .default, .error⟩ eitherProgram brandTable =
      some [("alwaysTruthy", 0, 1)] := by
    decide +kernel
  obtain ⟨b, found, oracle, d, hb, hlint, hd, hmessage, -⟩ := Linter.exists_of_messages? hrun
  obtain ⟨x, negated, id, hx, hrange, htype, hvalues⟩ :=
    (lint_verdicts_hold closed_brandTable.oracle made_brandStore hlint hd).1 (.inl hmessage)
  obtain rfl : id = 16 := by
    simp only [TypeTable.oracle, TypeTable.typeAt?, brandTable, List.lookup_cons,
      List.lookup_nil] at htype
    split at htype
    · exact (Option.some.inj htype).symm
    · cases htype
  refine ⟨b, found, oracle, d, hb, closed_brandTable.oracle, made_brandStore, hlint, hd, hmessage, x,
    negated, hx, hrange, htype, ?_⟩
  rw [← hmessage]
  refine hvalues fun _ => ⟨by decide, fun part hpart value hvalue => ?_⟩
  have hparts : brandStore.atomicParts 16 = [14, 15] := by decide
  rw [show brandTable.oracle.store.baseConstraint 16 = 16 by decide] at hpart
  rcases List.mem_pair.mp (hparts ▸ hpart) with rfl | rfl
  · obtain rfl : .string "a" = value :=
      Option.some.inj ((show brandStore.literalValue? 14 = _ by decide).symm.trans hvalue)
    trivial
  · cases (show brandStore.literalValue? 15 = none by decide).symm.trans hvalue

/-- A table in which the first node of a file has the type `void`. -/
def voidTable : TypeTable := (TypeTable.new .strict).setType (some 0) TypeId.void

/-- `x ?? y;` -/
def coalescedProgram : TypeLint.Program :=
  [.statement (.expression (.binary (.identifier "x") .questionQuestionToken (.identifier "y")))]

/-- A left operand of `??` is called never nullish although it is of the type `void`, which has the
    value `undefined`. -/
theorem lint_neverNullish_void :
    ∃ b found oracle d, Program.build "a.ts" coalescedProgram = .ok b ∧
      Linter.lint ⟨[⟨rule .default, .error⟩]⟩ b.file (some voidTable.oracle) =
        .ok (.ok (found, oracle)) ∧
      d ∈ found ∧ d.messageId = "neverNullish" ∧ (d.start, d.stop) = (0, 1) ∧
      voidTable.typeAt? (some 0) = some TypeId.void ∧
      ∀ w, Inhabits w voidTable.store .undefined TypeId.void := by
  have hrun : Linter.messages? ⟨rule .default, .error⟩ coalescedProgram voidTable =
      some [("neverNullish", 0, 1)] := by
    decide +kernel
  obtain ⟨b, found, oracle, d, hb, hlint, hd, hmessage, hrange⟩ := Linter.exists_of_messages? hrun
  exact ⟨b, found, oracle, d, hb, hlint, hd, hmessage, hrange, rfl, fun w => .intrinsic rfl rfl⟩

end TypeLint.Rules.Condition
