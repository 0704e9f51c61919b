import TypeLint.Proofs.Rules.Steady

namespace TypeLint.Rules.Condition

open Syntax Check MemberNullability TypeLint.Types TypeLint.Types.Store

variable {t : Oracle} {file : SourceFile}

section

variable {s : Store} (hs : t.store.Extends s) (h : t.Closed) {id other : TypeId}
  (hid : t.store.Known id) (hother : t.store.Known other)

include hs h hid

theorem truthVerdict?_eq (negated : Bool) :
    truthVerdict? s negated id = truthVerdict? t.store negated id := by
  simp only [truthVerdict?, hs.hasFlag_eq h.store hid, hs.isPossiblyTruthy_eq h.store hid,
    hs.isPossiblyFalsy_eq h.store hid]

omit h in
theorem isLiteralOperand_eq : isLiteralOperand s id = isLiteralOperand t.store id := by
  rw [isLiteralOperand, isLiteralOperand, hs.flagsOf_eq hid]

theorem isComparable_eq (operator : Kind) (flags : Flags) :
    isComparable s operator flags id = isComparable t.store operator flags id :=
  hs.hasFlag_eq h.store hid _

include hother

theorem hasNoOverlap_eq (operator : Kind) :
    hasNoOverlap s operator id other = hasNoOverlap t.store operator id other := by
  simp only [hasNoOverlap, isComparable_eq hs h hid, isComparable_eq hs h hother]

omit h in
theorem evaluate?_eq (operator : Kind) :
    Comparison.evaluate? s operator id other = Comparison.evaluate? t.store operator id other := by
  simp only [Comparison.evaluate?, Comparison.operand?, hs.literalValue?_eq hid,
    hs.literalValue?_eq hother]

omit hid hother

theorem callbackVerdict?_eq {returns : List TypeId} (hreturns : ∀ id ∈ returns, t.store.Known id) :
    callbackVerdict? s returns = callbackVerdict? t.store returns := by
  simp only [callbackVerdict?,
    any_congr_of_mem fun id hid => hs.isAnyOrUnknown_eq h.store (hreturns id hid),
    any_congr_of_mem fun id hid => hs.isPossiblyFalsy_eq h.store (hreturns id hid),
    any_congr_of_mem fun id hid => hs.isPossiblyTruthy_eq h.store (hreturns id hid)]

end

theorem steady_onSome {α : Type} (value : Option α) {check : α → Check (List Report)}
    (hcheck : ∀ a, (check a).Steady t file) : (onSome value check).Steady t file := by
  cases value with
  | none => exact agree_pure rfl
  | some a => exact hcheck a

variable (h : t.Closed)

include h

theorem steady_checkConditionTo (depth : Nat) (r : NodeRef) (negated : Bool) :
    (checkConditionTo depth r negated).Steady t file := by
  induction depth generalizing r negated with
  | zero => exact agree_crash _
  | succ depth ih =>
    refine agree_bind agree_file ?_
    rintro _ _ ⟨rfl, rfl⟩
    refine agree_bind (agree_lift _) ?_
    rintro r _ ⟨-, rfl⟩
    split
    · exact agree_pure rfl
    · split
      · exact ih _ _
      · refine agree_bind agree_options ?_
        rintro _ _ ⟨rfl, rfl⟩
        refine steady_ite_bind (agree_pure rfl) (steady_readsIndex h _) fun skipped => ?_
        dsimp only
        split_ifs
        · exact agree_pure rfl
        · split
          · exact ih _ _
          · refine agree_bind agree_store fun s s' hs => ?_
            refine agree_bind (agree_constrainedTypeAt h _) ?_
            rintro id _ ⟨hid, rfl⟩
            rw [truthVerdict?_eq hs.1 h hid, truthVerdict?_eq hs.2 h hid]
            exact agree_pure rfl

theorem steady_checkCondition (r : NodeRef) : (checkCondition r).Steady t file := by
  refine agree_bind agree_tree ?_
  rintro _ _ ⟨rfl, rfl⟩
  exact steady_checkConditionTo h _ r false

theorem steady_mayBeNullishAnyway (r : NodeRef) : (mayBeNullishAnyway r).Steady t file := by
  refine agree_bind agree_tree ?_
  rintro _ _ ⟨rfl, rfl⟩
  refine agree_bind (steady_readsIndex h r) ?_
  rintro index _ rfl
  by_cases hindex : index = true
  · rw [if_pos hindex]
    exact agree_pure rfl
  · rw [if_neg hindex]
    refine steady_ite_bind (steady_optionalStepReadsIndex h r) (agree_pure rfl) fun chain => ?_
    dsimp only
    split_ifs
    · exact agree_pure rfl
    · exact steady_memberMayBeMissing h r

theorem steady_checkNullish (r : NodeRef) : (checkNullish r).Steady t file := by
  refine agree_bind agree_file ?_
  rintro _ _ ⟨rfl, rfl⟩
  refine agree_bind (agree_lift _) ?_
  rintro r _ ⟨-, rfl⟩
  refine agree_bind agree_store fun s s' hs => ?_
  refine agree_bind (agree_constrainedTypeAt h _) ?_
  rintro id _ ⟨hid, rfl⟩
  rw [hs.1.hasFlag_eq h.store hid, hs.2.hasFlag_eq h.store hid, hs.1.hasFlag_eq h.store hid,
    hs.2.hasFlag_eq h.store hid, hs.1.isPossiblyNullish_eq h.store hid,
    hs.2.isPossiblyNullish_eq h.store hid, hs.1.isAlwaysNullish_eq h.store hid,
    hs.2.isAlwaysNullish_eq h.store hid]
  split_ifs
  · exact agree_pure rfl
  · exact agree_pure rfl
  · refine agree_bind (steady_mayBeNullishAnyway h _) ?_
    rintro anyway _ rfl
    split_ifs <;> exact agree_pure rfl
  · exact agree_pure rfl
  · exact agree_pure rfl

theorem steady_checkComparison (r : NodeRef) (b : Binary) :
    (checkComparison r b).Steady t file := by
  refine agree_bind agree_file ?_
  rintro _ _ ⟨rfl, rfl⟩
  refine agree_bind agree_store fun s s' hs => ?_
  refine agree_bind (agree_constrainedTypeAt h _) ?_
  rintro left _ ⟨hleft, rfl⟩
  refine agree_bind (agree_constrainedTypeAt h _) ?_
  rintro right _ ⟨hright, rfl⟩
  rw [isLiteralOperand_eq hs.1 hleft, isLiteralOperand_eq hs.2 hleft,
    isLiteralOperand_eq hs.1 hright, isLiteralOperand_eq hs.2 hright,
    evaluate?_eq hs.1 hleft hright, evaluate?_eq hs.2 hleft hright]
  split_ifs
  · exact agree_pure rfl
  · refine agree_bind agree_options ?_
    rintro _ _ ⟨rfl, rfl⟩
    rw [hasNoOverlap_eq hs.1 h hleft hright, hasNoOverlap_eq hs.2 h hleft hright]
    split_ifs <;> exact agree_pure rfl

theorem steady_checkArrayPredicate (r : NodeRef) : (checkArrayPredicate r).Steady t file := by
  refine agree_bind agree_file ?_
  rintro _ _ ⟨rfl, rfl⟩
  split
  · exact agree_pure rfl
  · split
    · refine agree_bind agree_store fun s s' hs => ?_
      refine agree_bind (agree_constrainedTypeAt h _) ?_
      rintro object _ ⟨hobject, rfl⟩
      rw [hs.1.isArrayOrTuple_eq h.store hobject, hs.2.isArrayOrTuple_eq h.store hobject]
      split_ifs
      · exact agree_pure rfl
      · split
        · exact agree_pure rfl
        · exact steady_checkCondition h _
        · refine agree_bind (agree_constrainedTypeAt h _) ?_
          rintro callback _ ⟨hcallback, rfl⟩
          rw [hs.1.allCallReturns_eq h.store hcallback, hs.2.allCallReturns_eq h.store hcallback,
            callbackVerdict?_eq hs.1 h fun _ => h.store.known_of_mem_allCallReturns,
            callbackVerdict?_eq hs.2 h fun _ => h.store.known_of_mem_allCallReturns]
          exact agree_pure rfl
    · exact agree_pure rfl

theorem steady_checkBinary (r : NodeRef) (b : Binary) : (checkBinary r b).Steady t file := by
  rw [checkBinary]
  split
  · exact steady_checkNullish h _
  · exact steady_checkNullish h _
  · exact steady_checkCondition h _
  · exact steady_checkCondition h _
  · exact steady_checkCondition h _
  · exact steady_checkCondition h _
  · split_ifs
    · exact steady_checkComparison h r b
    · exact agree_pure rfl

theorem steady_checkLoop (o : Options) (l : Loop) : (checkLoop o l).Steady t file := by
  have hrest (constant : Bool) : (if constant then pure [] else checkCondition l.condition :
      Check (List Report)).Steady t file := by
    split_ifs
    · exact agree_pure rfl
    · exact steady_checkCondition h _
  rw [checkLoop]
  by_cases hnone : l.condition.isNone = true
  · rw [if_pos hnone]
    exact agree_pure rfl
  · rw [if_neg hnone]
    dsimp only
    split_ifs
    · refine agree_bind (agree_constrainedTypeAt h _) ?_
      rintro id _ ⟨-, rfl⟩
      exact hrest (id == TypeId.trueLiteral)
    · exact hrest false

theorem steady_check (o : Options) (r : NodeRef) : (Condition.check o r).Steady t file := by
  refine agree_bind agree_tree ?_
  rintro _ _ ⟨rfl, rfl⟩
  split
  · exact agree_pure rfl
  · split
    · exact steady_onSome _ fun _ => steady_checkCondition h _
    · exact steady_onSome _ fun _ => steady_checkCondition h _
    · exact steady_onSome _ (steady_checkLoop h o)
    · exact steady_onSome _ (steady_checkLoop h o)
    · exact steady_onSome _ (steady_checkLoop h o)
    · exact steady_onSome _ (steady_checkBinary h r)
    · exact steady_checkArrayPredicate h r
    · exact agree_pure rfl

end TypeLint.Rules.Condition
