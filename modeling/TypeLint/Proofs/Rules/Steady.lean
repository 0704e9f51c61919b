import TypeLint.Proofs.Lint.Separation
import TypeLint.Proofs.Rules.MemberQuestions
import TypeLint.Registry

namespace TypeLint

open Syntax Check TypeLint.Types TypeLint.Types.Store

variable {t : Oracle} {file : SourceFile}

theorem Check.steady_lift {α : Type} (result : Result α) : (lift result).Steady t file :=
  (agree_lift result).imp fun _ _ h => h.2

/-- A check that goes on alike behind the two branches of a choice. -/
theorem Check.steady_ite_bind {α β : Type} {c : Prop} [Decidable c] {yes no : Check α}
    {next : α → Check β} (hyes : yes.Steady t file) (hno : no.Steady t file)
    (hnext : ∀ a, (next a).Steady t file) :
    (if c then yes >>= next else no >>= next).Steady t file := by
  split_ifs
  · exact agree_bind hyes fun a _ ha => ha ▸ hnext a
  · exact agree_bind hno fun a _ ha => ha ▸ hnext a

namespace Rules

theorem steady_requireStrictNullChecks (allowed : Bool) :
    (requireStrictNullChecks allowed).Steady t file := by
  refine agree_bind agree_options ?_
  rintro _ _ ⟨rfl, rfl⟩
  split_ifs <;> exact agree_pure rfl

theorem ExtraNonNullAssertion.steady_check (r : NodeRef) :
    (ExtraNonNullAssertion.check r).Steady t file := by
  refine agree_bind agree_file ?_
  rintro _ _ ⟨rfl, rfl⟩
  split
  · exact agree_pure rfl
  · split_ifs
    · exact steady_lift _
    · exact agree_pure rfl

theorem DuplicateCase.steady_check (r : NodeRef) : (DuplicateCase.check r).Steady t file := by
  refine agree_bind agree_file ?_
  rintro _ _ ⟨rfl, rfl⟩
  split <;> exact agree_pure rfl

theorem SuppressionComment.steady_checkComments (f : SourceFile) (comments : List Text.Comment) :
    (SuppressionComment.checkComments f comments).Steady t file := by
  induction comments with
  | nil => exact agree_pure rfl
  | cons c rest ih =>
    refine agree_bind (agree_firstSight _) ?_
    rintro first _ rfl
    refine steady_ite_bind (steady_lift _) (agree_pure rfl) fun here => ?_
    refine agree_bind ih ?_
    rintro others _ rfl
    exact agree_pure rfl

theorem SuppressionComment.steady_check (r : NodeRef) :
    (SuppressionComment.check r).Steady t file := by
  refine agree_bind agree_file ?_
  rintro _ _ ⟨rfl, rfl⟩
  exact SuppressionComment.steady_checkComments _ _

section

variable {s : Store} (hs : t.store.Extends s) (h : t.Closed) {id other : TypeId}
  (hid : t.store.Known id) (hother : t.store.Known other)

include hs h hid hother

omit h hother in
theorem TypeAssertion.isLiteral_eq :
    TypeAssertion.isLiteral s id = TypeAssertion.isLiteral t.store id := by
  rw [TypeAssertion.isLiteral, TypeAssertion.isLiteral, hs.flagsOf_eq hid]

omit hother in
theorem TypeAssertion.definedParts_eq :
    TypeAssertion.definedParts s id = TypeAssertion.definedParts t.store id := by
  rw [TypeAssertion.definedParts, TypeAssertion.definedParts, hs.unionMembers_eq hid]
  exact List.filter_congr fun part hpart => by
    rw [hs.flagsOf_eq (h.store.known_of_mem_unionMembers hid hpart)]

theorem TypeAssertion.isUnchanged_eq (o : CompilerOptions) :
    TypeAssertion.isUnchanged s o id other = TypeAssertion.isUnchanged t.store o id other := by
  rw [TypeAssertion.isUnchanged, TypeAssertion.isUnchanged, hs.hasFlag_eq h.store hid,
    hs.hasFlag_eq h.store hother, TypeAssertion.definedParts_eq hs h hid,
    TypeAssertion.definedParts_eq hs h hother]

theorem NonNullAssertion.isAccepted_eq :
    NonNullAssertion.isAccepted s id other = NonNullAssertion.isAccepted t.store id other := by
  simp only [NonNullAssertion.isAccepted, NonNullAssertion.accepts, hs.hasFlag_eq h.store hid,
    hs.hasFlag_eq h.store hother]

end

section

variable (h : t.Closed)

include h

theorem TypeAssertion.steady_check (o : TypeAssertion.Options) (r : NodeRef) :
    (TypeAssertion.check o r).Steady t file := by
  refine agree_bind agree_file ?_
  rintro _ _ ⟨rfl, rfl⟩
  split
  · exact agree_pure rfl
  · refine agree_bind (agree_orFail _ _) ?_
    rintro a _ ⟨-, rfl⟩
    split_ifs
    · exact agree_pure rfl
    · refine agree_bind agree_oracle fun t₁ t₂ hgrown => ?_
      refine agree_bind (agree_typeAt h _) ?_
      rintro cast _ ⟨hcast, rfl⟩
      rw [TypeAssertion.isLiteral_eq hgrown.1.store hcast,
        TypeAssertion.isLiteral_eq hgrown.2.store hcast]
      split_ifs
      · exact agree_pure rfl
      · refine agree_bind (agree_typeAt h _) ?_
        rintro uncast _ ⟨huncast, rfl⟩
        have hsame {t' : Oracle} (hgrown : t.Grown t') :
            TypeAssertion.isUnnecessary file t' r a uncast cast =
              TypeAssertion.isUnnecessary file t r a uncast cast := by
          rw [TypeAssertion.isUnnecessary, TypeAssertion.isUnnecessary, hgrown.options_eq,
            TypeAssertion.isUnchanged_eq hgrown.store h huncast hcast,
            TypeAssertion.isLiteral_eq hgrown.store hcast]
        rw [hsame hgrown.1, hsame hgrown.2]
        split_ifs
        · split
          · exact agree_pure rfl
          · exact agree_fail _
        · exact agree_pure rfl

theorem NonNullAssertion.steady_check (r : NodeRef) :
    (NonNullAssertion.check r).Steady t file := by
  refine agree_bind agree_file ?_
  rintro _ _ ⟨rfl, rfl⟩
  refine agree_bind (agree_orFail _ _) ?_
  rintro expression _ ⟨-, rfl⟩
  split
  · split_ifs
    · exact steady_lift _
    · exact agree_pure rfl
  · refine agree_bind agree_oracle fun t₁ t₂ hgrown => ?_
    refine agree_bind (agree_constrainedTypeAt h _) ?_
    rintro operand _ ⟨hoperand, rfl⟩
    have hunassigned {t' : Oracle} (hgrown : t.Grown t') :
        NonNullAssertion.mayBeUnassigned file.tree t' expression operand =
          NonNullAssertion.mayBeUnassigned file.tree t expression operand := by
      rw [hgrown.others]
      rfl
    have hexpected {t' : Oracle} (hgrown : t.Grown t') :
        t'.contextualType? r = t.contextualType? r := by
      rw [hgrown.others]
    rw [hgrown.1.store.isNullableLike_eq h.store hoperand, hunassigned hgrown.1, hexpected hgrown.1,
      hgrown.2.store.isNullableLike_eq h.store hoperand, hunassigned hgrown.2, hexpected hgrown.2]
    split_ifs
    · exact agree_pure rfl
    · exact steady_lift _
    · split
      · exact agree_pure rfl
      · next expected hcontext =>
        have hknown := h.contextualType _ _ hcontext
        rw [NonNullAssertion.isAccepted_eq hgrown.1.store h hoperand hknown,
          NonNullAssertion.isAccepted_eq hgrown.2.store h hoperand hknown]
        split_ifs
        · exact steady_lift _
        · exact agree_pure rfl

theorem NullishCoalescing.steady_checkLogicalOr (o : NullishCoalescing.Options) (r : NodeRef) :
    (NullishCoalescing.checkLogicalOr o r).Steady t file := by
  refine agree_bind agree_file ?_
  rintro _ _ ⟨rfl, rfl⟩
  split
  · exact agree_pure rfl
  · next b _ =>
    refine agree_bind agree_store fun s s' hs => ?_
    refine agree_bind (agree_typeAt h _) ?_
    rintro left _ ⟨hleft, rfl⟩
    have hignored {s : Store} (hs : t.store.Extends s) :
        NullishCoalescing.isIgnored s o.ignorePrimitives left =
          NullishCoalescing.isIgnored t.store o.ignorePrimitives left := by
      rw [NullishCoalescing.isIgnored, NullishCoalescing.isIgnored, hs.flagsOf_eq hleft,
        hs.unionMembers_eq hleft, any_congr_of_mem fun part hpart =>
          hs.hasFlag_eq h.store (h.store.known_of_mem_unionMembers hleft hpart) _]
    have hexempt {s : Store} (hs : t.store.Extends s) :
        NullishCoalescing.isExempt o file.tree s r left =
          NullishCoalescing.isExempt o file.tree t.store r left := by
      simp only [NullishCoalescing.isExempt, hignored hs]
    rw [hexempt hs.1, hexempt hs.2, hs.1.isNullable_eq h.store hleft,
      hs.2.isNullable_eq h.store hleft]
    split_ifs
    · exact agree_pure rfl
    · refine agree_bind (agree_lift _) ?_
      rintro exempt _ ⟨-, rfl⟩
      split_ifs
      · exact agree_pure rfl
      · refine agree_bind (agree_orFail _ _) ?_
        rintro operator _ ⟨-, rfl⟩
        exact agree_pure rfl

theorem NullishCoalescing.steady_testsNullish (operator : Kind) (found : NullishCoalescing.Tested)
    (value : NodeRef) : (NullishCoalescing.testsNullish operator found value).Steady t file := by
  rw [NullishCoalescing.testsNullish]
  split_ifs
  · exact agree_pure rfl
  · exact agree_pure rfl
  · refine agree_bind agree_store fun s s' hs => ?_
    refine agree_bind (agree_typeAt h _) ?_
    rintro id _ ⟨hid, rfl⟩
    simp only [NullishCoalescing.strictTestSuffices, hs.1.hasFlag_eq h.store hid,
      hs.2.hasFlag_eq h.store hid]
    exact agree_pure rfl

theorem NullishCoalescing.steady_checkTernary (r : NodeRef) :
    (NullishCoalescing.checkTernary r).Steady t file := by
  refine agree_bind agree_file ?_
  rintro _ _ ⟨rfl, rfl⟩
  dsimp only
  split
  · exact agree_pure rfl
  · refine agree_bind (agree_lift _) ?_
    rintro test _ ⟨-, rfl⟩
    split
    · exact agree_pure rfl
    · refine agree_bind (agree_lift _) ?_
      rintro whenTrue _ ⟨-, rfl⟩
      refine agree_bind (agree_lift _) ?_
      rintro whenFalse _ ⟨-, rfl⟩
      refine agree_bind (agree_lift _) ?_
      rintro tested _ ⟨-, rfl⟩
      split
      · exact agree_pure rfl
      · split
        · exact agree_pure rfl
        · refine agree_bind (NullishCoalescing.steady_testsNullish h _ _ _) ?_
          rintro fixable _ rfl
          split_ifs <;> exact agree_pure rfl

theorem NullishCoalescing.steady_check (o : NullishCoalescing.Options) (r : NodeRef) :
    (NullishCoalescing.check o r).Steady t file := by
  refine agree_bind agree_tree ?_
  rintro _ _ ⟨rfl, rfl⟩
  split
  · exact NullishCoalescing.steady_checkLogicalOr h o r
  · split_ifs
    · exact agree_pure rfl
    · exact NullishCoalescing.steady_checkTernary h r
  · exact agree_pure rfl

namespace MemberNullability

theorem steady_readsIndex (r : NodeRef) : (readsIndex r).Steady t file := by
  refine agree_bind agree_tree ?_
  rintro _ _ ⟨rfl, rfl⟩
  split
  · exact agree_pure rfl
  · refine agree_bind agree_store fun s s' hs => ?_
    refine agree_bind (agree_typeAt h _) ?_
    rintro object _ ⟨hobject, rfl⟩
    have hanswer {s : Store} (hs : t.store.Extends s) :
        (s.unionMembers object).all s.isArray = (t.store.unionMembers object).all t.store.isArray := by
      rw [hs.unionMembers_eq hobject]
      exact all_congr_of_mem fun part hpart =>
        hs.isArray_eq (h.store.known_of_mem_unionMembers hobject hpart)
    rw [hanswer hs.1, hanswer hs.2, hs.1.isTuple_eq hobject, hs.2.isTuple_eq hobject]
    exact agree_pure rfl

theorem steady_optionalStepReadsIndexTo (depth : Nat) (r : NodeRef) :
    (optionalStepReadsIndexTo depth r).Steady t file := by
  induction depth generalizing r with
  | zero => exact agree_crash _
  | succ depth ih =>
    refine agree_bind agree_tree ?_
    rintro _ _ ⟨rfl, rfl⟩
    split
    · exact agree_pure rfl
    · exact ih _
    · refine agree_bind (steady_readsIndex h _) ?_
      rintro found _ rfl
      split_ifs
      · exact agree_pure rfl
      · exact ih _

theorem steady_optionalStepReadsIndex (r : NodeRef) :
    (optionalStepReadsIndex r).Steady t file := by
  refine agree_bind agree_tree ?_
  rintro _ _ ⟨rfl, rfl⟩
  exact steady_optionalStepReadsIndexTo h _ r

theorem steady_memberInheritsNullish (r : NodeRef) :
    (memberInheritsNullish r).Steady t file := by
  refine agree_bind agree_tree ?_
  rintro _ _ ⟨rfl, rfl⟩
  split
  · exact agree_pure rfl
  · split
    · exact agree_pure rfl
    · next n access _ name _ =>
      refine agree_bind agree_store fun s s' hs => ?_
      refine agree_bind (agree_constrainedTypeAt h _) ?_
      rintro object _ ⟨hobject, rfl⟩
      have hpart {part : TypeId} (hpart : part ∈ t.store.unionMembers object) : t.store.Known part :=
        h.store.known_of_mem_unionMembers hobject hpart
      rw [hs.1.isUnion_eq hobject, hs.2.isUnion_eq hobject, hs.1.unionMembers_eq hobject,
        hs.2.unionMembers_eq hobject, hs.1.isNullable_eq h.store hobject,
        hs.2.isNullable_eq h.store hobject]
      split_ifs
      · exact agree_pure rfl
      · refine agree_bind (agree_constrainedTypeAt h _) ?_
        rintro key _ ⟨hkey, rfl⟩
        refine agree_bind (agree_ask (answers_anyType fun part hmem =>
          answers_propertyNullable h.store (hpart hmem) hkey)) ?_
        rintro _ _ ⟨rfl, rfl⟩
        refine agree_bind (agree_lift _) ?_
        rintro own _ ⟨-, rfl⟩
        exact agree_pure rfl
      · refine agree_bind (agree_ask (answers_anyType fun part hmem =>
          answers_memberNullable h.store name (hpart hmem))) ?_
        rintro _ _ ⟨rfl, rfl⟩
        refine agree_bind (agree_lift _) ?_
        rintro own _ ⟨-, rfl⟩
        exact agree_pure rfl

theorem steady_callInheritsNullish (r : NodeRef) : (callInheritsNullish r).Steady t file := by
  refine agree_bind agree_tree ?_
  rintro _ _ ⟨rfl, rfl⟩
  split
  · exact agree_pure rfl
  · refine agree_bind agree_store fun s s' hs => ?_
    refine agree_bind (agree_constrainedTypeAt h _) ?_
    rintro callee _ ⟨hcallee, rfl⟩
    have hown {s : Store} (hs : t.store.Extends s) :
        ((s.unionMembers callee).any fun part => (s.callReturns part).any s.isNullable) =
          (t.store.unionMembers callee).any fun part =>
            (t.store.callReturns part).any t.store.isNullable := by
      rw [hs.unionMembers_eq hcallee]
      refine any_congr_of_mem fun part hpart => ?_
      rw [hs.callReturns_eq (h.store.known_of_mem_unionMembers hcallee hpart)]
      exact any_congr_of_mem fun returned hreturned =>
        hs.isNullable_eq h.store (h.store.known_of_mem_callReturns hreturned)
    simp only [hown hs.1, hown hs.2, hs.1.isUnion_eq hcallee, hs.2.isUnion_eq hcallee,
      hs.1.isNullable_eq h.store hcallee, hs.2.isNullable_eq h.store hcallee]
    split_ifs <;> exact agree_pure rfl

theorem steady_memberMayBeMissing (r : NodeRef) : (memberMayBeMissing r).Steady t file := by
  refine agree_bind agree_tree ?_
  rintro _ _ ⟨rfl, rfl⟩
  split
  · exact agree_pure rfl
  · refine agree_bind agree_store fun s s' hs => ?_
    refine agree_bind (agree_typeAt h _) ?_
    rintro object _ ⟨hobject, rfl⟩
    split_ifs
    · refine agree_bind (agree_typeAt h _) ?_
      rintro key _ ⟨hkey, rfl⟩
      refine agree_bind (agree_ask (answers_propertyNullable h.store hobject hkey)) ?_
      rintro _ _ ⟨rfl, rfl⟩
      exact steady_lift _
    · split
      · exact agree_pure rfl
      · rw [hs.1.isOptionalProperty_eq h.store hobject, hs.2.isOptionalProperty_eq h.store hobject]
        exact agree_pure rfl

end MemberNullability

namespace OptionalChain

open MemberNullability

theorem steady_isOwnNullish (r : NodeRef) : (isOwnNullish r).Steady t file := by
  refine agree_bind agree_tree ?_
  rintro _ _ ⟨rfl, rfl⟩
  split
  · refine agree_bind (steady_memberInheritsNullish h r) ?_
    rintro inherited _ rfl
    exact agree_pure rfl
  · refine agree_bind (steady_memberInheritsNullish h r) ?_
    rintro inherited _ rfl
    exact agree_pure rfl
  · refine agree_bind (steady_callInheritsNullish h r) ?_
    rintro inherited _ rfl
    exact agree_pure rfl
  · exact agree_pure rfl

theorem steady_mayBeNullish (r : NodeRef) : (mayBeNullish r).Steady t file := by
  refine agree_bind agree_store fun s s' hs => ?_
  refine agree_bind (agree_constrainedTypeAt h _) ?_
  rintro id _ ⟨hid, rfl⟩
  rw [hs.1.isAnyOrUnknown_eq h.store hid, hs.2.isAnyOrUnknown_eq h.store hid,
    hs.1.isNullableLike_eq h.store hid, hs.2.isNullableLike_eq h.store hid]
  split_ifs
  · exact agree_pure rfl
  · refine agree_bind (steady_isOwnNullish h r) ?_
    rintro own _ rfl
    exact agree_pure rfl

theorem steady_check (r : NodeRef) : (OptionalChain.check r).Steady t file := by
  refine agree_bind agree_file ?_
  rintro _ _ ⟨rfl, rfl⟩
  split
  · exact agree_pure rfl
  · exact agree_pure rfl
  · refine agree_bind (steady_optionalStepReadsIndex h r) ?_
    rintro readsIndex _ rfl
    split_ifs
    · exact agree_pure rfl
    · refine agree_bind (steady_mayBeNullish h _) ?_
      rintro optionable _ rfl
      split_ifs
      · exact agree_pure rfl
      · refine agree_bind (agree_orFail _ _) ?_
        rintro token _ ⟨-, rfl⟩
        exact agree_pure rfl

end OptionalChain

end

end Rules

end TypeLint
