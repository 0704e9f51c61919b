import TypeLint.Proofs.Rules.SteadyConditions

namespace TypeLint.Types.Store

variable {s s' : Store} {id : TypeId}

/-- A type with one value mentions no other types, so its text is the same in every store that
    has it. -/
theorem Extends.text_eq (hs : s.Extends s') (hid : s.Known id)
    (hliteral : s.isLiteralLike id = true) : s'.text id = s.text id := by
  obtain ⟨data, hdata⟩ := known_iff.mp hid
  rw [isLiteralLike, flagsOf, hdata] at hliteral
  rw [text, text, textTo, textTo, textOver, textOver, hs id hid, hdata]
  cases data with
  | union members =>
    dsimp only at hliteral
    split_ifs at hliteral <;> exact absurd hliteral (by decide)
  | intersection _ | array _ | tuple _ | object _ =>
    dsimp only [TypeData.flags] at hliteral
    exact absurd hliteral (by decide)
  | _ => rfl

end TypeLint.Types.Store

namespace TypeLint

open Syntax Check TypeLint.Types TypeLint.Types.Store

variable {t : Oracle} {file : SourceFile}

namespace Rules.SwitchExhaustiveness

section

variable {s : Store} (hs : t.store.Extends s) (h : t.Closed) {id : TypeId}
  (hid : t.store.Known id)

include hs h hid

theorem missingParts_eq (cases : List TypeId) :
    missingParts s id cases = missingParts t.store id cases := by
  rw [missingParts, missingParts, hs.atomicParts_eq h.store hid]
  exact List.filter_congr fun part hpart => by
    rw [hs.isLiteralLike_eq (h.store.known_of_mem_atomicParts hid hpart)]

theorem hasOpenPart_eq : hasOpenPart s id = hasOpenPart t.store id := by
  rw [hasOpenPart, hasOpenPart, hs.unionMembers_eq hid]
  refine any_congr_of_mem fun part hpart => ?_
  have hpart := h.store.known_of_mem_unionMembers hid hpart
  rw [hs.intersectionMembers_eq hpart]
  exact all_congr_of_mem fun member hmember => by
    rw [hs.isLiteralLike_eq (h.store.known_of_mem_intersectionMembers hpart hmember)]

omit h
variable (hliteral : t.store.isLiteralLike id = true)
include hliteral

theorem plainTest_eq : plainTest s id = plainTest t.store id := by
  rw [plainTest, plainTest, isSymbol, isSymbol, hs.memberName?_eq hid, hs.flagsOf_eq hid,
    hs.text_eq hid hliteral]

theorem shownMember_eq : shownMember s id = shownMember t.store id := by
  rw [shownMember, shownMember, isSymbol, isSymbol, hs.memberName?_eq hid, hs.flagsOf_eq hid,
    hs.text_eq hid hliteral]

theorem caseTest_eq (target : ScriptTarget) (enumName : Option String) :
    caseTest s target enumName id = caseTest t.store target enumName id := by
  simp only [caseTest, hs.memberName?_eq hid, plainTest_eq hs hid hliteral]

end

variable (h : t.Closed)

include h

theorem steady_caseTypes (tree : Tree) (clauses : List NodeRef) :
    (caseTypes tree clauses).Steady t file := by
  induction clauses with
  | nil => exact agree_pure rfl
  | cons clause rest ih =>
    rw [caseTypes]
    split
    · exact ih
    · split_ifs
      · refine agree_bind ih ?_
        rintro _ _ rfl
        exact agree_pure rfl
      · refine agree_bind (agree_constrainedTypeAt h _) ?_
        rintro type _ ⟨-, rfl⟩
        refine agree_bind ih ?_
        rintro _ _ rfl
        exact agree_pure rfl

theorem agree_coverage (r : NodeRef) :
    Agree t file (fun c c' => c = c' ∧
      ∀ id ∈ c.missing, t.store.Known id ∧ t.store.isLiteralLike id = true)
      (coverage r) (coverage r) := by
  refine agree_bind agree_tree ?_
  rintro _ _ ⟨rfl, rfl⟩
  refine agree_bind (agree_orFail _ _) ?_
  rintro switch _ ⟨-, rfl⟩
  refine agree_bind agree_store fun s s' hs => ?_
  refine agree_bind (agree_constrainedTypeAt h _) ?_
  rintro type _ ⟨htype, rfl⟩
  refine agree_bind (steady_caseTypes h _ _) ?_
  rintro ⟨cases, default⟩ _ rfl
  dsimp only
  rw [hs.1.enumName?_eq h.store htype, hs.2.enumName?_eq h.store htype,
    missingParts_eq hs.1 h htype, missingParts_eq hs.2 h htype, hasOpenPart_eq hs.1 h htype,
    hasOpenPart_eq hs.2 h htype]
  refine agree_pure ⟨rfl, fun id hid => ?_⟩
  obtain ⟨hpart, hmissing⟩ := List.mem_filter.mp hid
  rw [Bool.and_eq_true] at hmissing
  exact ⟨h.store.known_of_mem_atomicParts htype hpart, hmissing.1⟩

omit h in
theorem missingReports_eq {s : Store} (hs : t.store.Extends s) (o : Options)
    (target : ScriptTarget) (r : NodeRef) {c : Coverage}
    (hmissing : ∀ id ∈ c.missing, t.store.Known id ∧ t.store.isLiteralLike id = true) :
    missingReports o file s target r c = missingReports o file t.store target r c := by
  have hmembers : c.missing.map (shownMember s) = c.missing.map (shownMember t.store) :=
    List.map_congr_left fun id hid => shownMember_eq hs (hmissing id hid).1 (hmissing id hid).2
  have hfixes : (c.missing.map fun id => caseFix file r c (caseTest s target c.enumName id)) =
      c.missing.map fun id => caseFix file r c (caseTest t.store target c.enumName id) :=
    List.map_congr_left fun id hid => by
      rw [caseTest_eq hs (hmissing id hid).1 (hmissing id hid).2]
  rw [missingReports, missingReports, hmembers, hfixes]

theorem steady_check (o : Options) (r : NodeRef) :
    (SwitchExhaustiveness.check o r).Steady t file := by
  refine agree_bind agree_file ?_
  rintro _ _ ⟨rfl, rfl⟩
  refine agree_bind (agree_coverage h r) ?_
  rintro c _ ⟨rfl, hmissing⟩
  refine agree_bind agree_store fun s s' hs => ?_
  refine agree_bind agree_options ?_
  rintro _ _ ⟨rfl, rfl⟩
  rw [missingReports_eq hs.1 o _ r hmissing, missingReports_eq hs.2 o _ r hmissing]
  exact agree_pure rfl

end Rules.SwitchExhaustiveness

open Rules

/-- The rules of the library with their options. -/
inductive Rule.Builtin : Rule → Prop where
  | typeAssertion (o : TypeAssertion.Options) : Builtin (TypeAssertion.rule o)
  | nonNullAssertion : Builtin NonNullAssertion.rule
  | extraNonNullAssertion : Builtin ExtraNonNullAssertion.rule
  | condition (o : Condition.Options) : Builtin (Condition.rule o)
  | optionalChain : Builtin OptionalChain.rule
  | switchExhaustiveness (o : SwitchExhaustiveness.Options) : Builtin (SwitchExhaustiveness.rule o)
  | nullishCoalescing (o : NullishCoalescing.Options) : Builtin (NullishCoalescing.rule o)
  | suppressionComment : Builtin SuppressionComment.rule
  | duplicateCase : Builtin DuplicateCase.rule

/-- What the registry makes is one of the rules of the library. -/
theorem Registry.builtin_of_create {name : String} {options : Json} {rule : Rule}
    (hrule : Registry.builtin.create name options = .ok rule) : rule.Builtin := by
  rw [create] at hrule
  split at hrule
  · cases hrule
  · next make hmake =>
    split at hrule
    · cases hrule
    · next made hmade =>
      cases hrule
      obtain ⟨before, after, heq, -⟩ := List.lookup_eq_some_iff.mp hmake
      have hmem : (name, make) ∈ Registry.builtin.makers :=
        heq ▸ List.mem_append_right _ List.mem_cons_self
      simp only [Registry.builtin, List.mem_cons, Prod.mk.injEq, List.not_mem_nil, or_false] at hmem
      have hplain {b : Bool} {other : Rule} (h : (if b then some other else none) = some rule) :
          other = rule := by
        split_ifs at h
        exact Option.some.inj h
      rcases hmem with ⟨-, rfl⟩ | ⟨-, rfl⟩ | ⟨-, rfl⟩ | ⟨-, rfl⟩ | ⟨-, rfl⟩ | ⟨-, rfl⟩ |
        ⟨-, rfl⟩ | ⟨-, rfl⟩ | ⟨-, rfl⟩
      · obtain ⟨o, -, rfl⟩ := Option.map_eq_some_iff.mp hmade
        exact .typeAssertion o
      · exact hplain hmade ▸ .nonNullAssertion
      · exact hplain hmade ▸ .extraNonNullAssertion
      · obtain ⟨o, -, rfl⟩ := Option.map_eq_some_iff.mp hmade
        exact .condition o
      · exact hplain hmade ▸ .optionalChain
      · obtain ⟨o, -, rfl⟩ := Option.map_eq_some_iff.mp hmade
        exact .switchExhaustiveness o
      · obtain ⟨o, -, rfl⟩ := Option.map_eq_some_iff.mp hmade
        exact .nullishCoalescing o
      · exact hplain hmade ▸ .suppressionComment
      · exact hplain hmade ▸ .duplicateCase

/-- What a rule of the library reports does not depend on the types that have been made. -/
theorem Rule.Builtin.steady (h : t.Closed) {rule : Rule} (hrule : rule.Builtin) :
    rule.Steady t file := by
  cases hrule with
  | typeAssertion o => exact ⟨agree_pure rfl, TypeAssertion.steady_check h o⟩
  | nonNullAssertion => exact ⟨agree_pure rfl, NonNullAssertion.steady_check h⟩
  | extraNonNullAssertion => exact ⟨agree_pure rfl, ExtraNonNullAssertion.steady_check⟩
  | condition o => exact ⟨steady_requireStrictNullChecks _, Condition.steady_check h o⟩
  | optionalChain => exact ⟨agree_pure rfl, OptionalChain.steady_check h⟩
  | switchExhaustiveness o => exact ⟨agree_pure rfl, SwitchExhaustiveness.steady_check h o⟩
  | nullishCoalescing o =>
    exact ⟨steady_requireStrictNullChecks _, NullishCoalescing.steady_check h o⟩
  | suppressionComment => exact ⟨agree_pure rfl, SuppressionComment.steady_check⟩
  | duplicateCase => exact ⟨agree_pure rfl, DuplicateCase.steady_check⟩

end TypeLint
