import TypeLint.Proofs.Lint.Indifference
import TypeLint.Proofs.Lint.Noninterference

namespace TypeLint

open Syntax Binding

open Check

namespace Rules

variable {file : SourceFile}

theorem DuplicateCase.ignoresTypes : DuplicateCase.rule.Indifferent file Set.univ where
  checkFile := indifferent_pure _
  check r := by
    refine indifferent_bind indifferent_file fun f => ?_
    split <;> exact indifferent_pure _

theorem ExtraNonNullAssertion.ignoresTypes :
    ExtraNonNullAssertion.rule.Indifferent file Set.univ where
  checkFile := indifferent_pure _
  check r := by
    refine indifferent_bind indifferent_file fun f => ?_
    split
    · exact indifferent_pure _
    · split_ifs
      · exact indifferent_lift _
      · exact indifferent_pure _

theorem SuppressionComment.ignoresTypes_checkComments (f : SourceFile)
    (comments : List Text.Comment) : (checkComments f comments).Indifferent file Set.univ := by
  induction comments with
  | nil => exact indifferent_pure _
  | cons c rest ih =>
    have hrest (here : List Report) :
        (checkComments f rest >>= fun others => pure (here ++ others)).Indifferent file Set.univ :=
      indifferent_bind ih fun others => indifferent_pure _
    refine indifferent_bind (indifferent_firstSight _) fun first => ?_
    dsimp only
    split_ifs
    · exact indifferent_bind (indifferent_lift _) hrest
    · exact indifferent_bind (indifferent_pure _) hrest

theorem SuppressionComment.ignoresTypes : SuppressionComment.rule.Indifferent file Set.univ where
  checkFile := indifferent_pure _
  check _ := indifferent_bind indifferent_file fun _ => ignoresTypes_checkComments _ _

end Rules

/-- The names of the rules that do not ask for types. -/
def untypedRules : List String :=
  ["no-duplicate-case", "no-extra-non-null-assertion", "prefer-ts-expect-error"]

theorem Rule.Builtin.requiresTypes_eq {rule : Rule} (hrule : rule.Builtin) :
    rule.info.requiresTypes = !untypedRules.contains rule.info.name := by
  cases hrule <;> rfl

/-- What a rule of the library says about its need of types is true. -/
theorem Rule.Builtin.ignoresTypes {rule : Rule} (hrule : rule.Builtin) (file : SourceFile)
    (huntyped : rule.info.requiresTypes = false) : rule.Indifferent file Set.univ := by
  cases hrule with
  | extraNonNullAssertion => exact Rules.ExtraNonNullAssertion.ignoresTypes
  | suppressionComment => exact Rules.SuppressionComment.ignoresTypes
  | duplicateCase => exact Rules.DuplicateCase.ignoresTypes
  | _ => cases huntyped

namespace Linter

variable {l : Linter} {file : SourceFile}

theorem typedRules_eq_nil_iff :
    l.typedRules = [] ↔ ∀ rule ∈ l.rules, rule.rule.info.requiresTypes = false := by
  rw [typedRules, List.map_eq_nil_iff, List.filter_eq_nil_iff]
  exact forall₂_congr fun _ _ => Bool.not_eq_true _ |>.to_iff

/-- Without an oracle linting fails exactly if there are rules that ask for types. -/
theorem lint_none_eq_error_iff {e : LintError} :
    l.lint file none = .ok (.error e) ↔ l.typedRules ≠ [] ∧ e = .oracleUnavailable l.typedRules := by
  rw [lint]
  by_cases hnil : l.typedRules = []
  · rw [if_neg (by simp [hnil])]
    refine iff_of_false (fun h => ?_) fun h => h.1 hnil
    obtain ⟨x, -, h⟩ := Result.bind_eq_ok_iff.mp h
    cases h
  · rw [if_pos (by simp [hnil])]
    exact ⟨fun h => ⟨hnil, by cases h; rfl⟩, fun h => by rw [h.2]; rfl⟩

/-- Rules that ignore types end in the same way with any oracle and without one. -/
theorem lint_of_ignoresTypes (htyped : l.typedRules = [])
    (h : ∀ rule ∈ l.rules, rule.rule.Indifferent file Set.univ) :
    ∃ outcome : Result (List Diagnostic),
      ∀ oracle, l.lint file oracle = outcome.map fun found => .ok (found, oracle) := by
  obtain ⟨found, vs, hfound⟩ | ⟨c, hcrash⟩ := lookAt_indifferent h
  · refine ⟨.ok (found.mergeSort fun a b => a.start ≤ b.start), fun oracle => ?_⟩
    rw [lint_eq (.inr htyped), hfound oracle (Set.mem_univ oracle)]
    rfl
  · refine ⟨.error c, fun oracle => ?_⟩
    rw [lint_eq (.inr htyped), hcrash oracle (Set.mem_univ oracle)]
    rfl

/-- The rules of the library that ask for types are those that are not on a short list. Without an
    oracle, linting with rules of the library fails exactly if some of them ask for types, and it
    says which ones, in the order in which they are configured. If none of them does, linting ends in
    the same way with any oracle and without one; and it does not crash on a file whose comments and
    assertions can be taken apart. -/
theorem lint_untyped (hl : l.OfLibrary) (file : SourceFile) :
    l.typedRules = l.ruleNames.filter (!untypedRules.contains ·) ∧
    ((∃ e, l.lint file none = .ok (.error e)) ↔
      ∃ rule ∈ l.rules, rule.rule.info.requiresTypes = true) ∧
    (∀ e, l.lint file none = .ok (.error e) → e = .oracleUnavailable l.typedRules) ∧
    ((∀ rule ∈ l.rules, rule.rule.info.requiresTypes = false) →
      ∃ outcome : Result (List Diagnostic),
        (∀ oracle, l.lint file oracle = outcome.map fun found => .ok (found, oracle)) ∧
        (file.Divisible → ∃ found, outcome = .ok found)) := by
  refine ⟨?_, ?_, fun e he => (lint_none_eq_error_iff.mp he).2, fun huntyped => ?_⟩
  · rw [typedRules, ruleNames, List.filter_map]
    exact congrArg _ (List.filter_congr fun rule hrule => (hl.builtin rule hrule).requiresTypes_eq)
  · have hnil : l.typedRules ≠ [] ↔ ∃ rule ∈ l.rules, rule.rule.info.requiresTypes = true := by
      rw [ne_eq, typedRules_eq_nil_iff]
      simp only [not_forall, Bool.not_eq_false, exists_prop]
    rw [← hnil]
    constructor
    · rintro ⟨e, he⟩
      exact (lint_none_eq_error_iff.mp he).1
    · exact fun hnot => ⟨_, lint_none_eq_error_iff.mpr ⟨hnot, rfl⟩⟩
  · obtain ⟨outcome, houtcome⟩ := lint_of_ignoresTypes (typedRules_eq_nil_iff.mpr huntyped)
      fun rule hrule => (hl.builtin rule hrule).ignoresTypes file (huntyped rule hrule)
    refine ⟨outcome, houtcome, fun hfile => ?_⟩
    obtain ⟨found, after, hlint⟩ := exists_lint (t := (TypeTable.new .strict).oracle)
      fun rule hrule => (hl.builtin rule hrule).survives_untyped (huntyped rule hrule) hfile
    rw [houtcome] at hlint
    cases outcome with
    | error c => cases hlint
    | ok found => exact ⟨found, rfl⟩

/-- Rules that do not ask for types. -/
def untypedLinter : Linter :=
  ⟨[⟨Rules.DuplicateCase.rule, .error⟩, ⟨Rules.SuppressionComment.rule, .warning⟩,
    ⟨Rules.ExtraNonNullAssertion.rule, .warning⟩]⟩

theorem untypedLinter_ofLibrary : untypedLinter.OfLibrary := by
  rintro _ (_ | ⟨_, _ | ⟨_, _ | ⟨_, ⟨⟩⟩⟩⟩)
  · exact ⟨"no-duplicate-case", .null, rfl⟩
  · exact ⟨"prefer-ts-expect-error", .null, rfl⟩
  · exact ⟨"no-extra-non-null-assertion", .null, rfl⟩

theorem lint_untyped_twice :
    ∃ b, Program.build "a.ts" twice = .ok b ∧ untypedLinter.OfLibrary ∧ assertionRules.OfLibrary ∧
      b.file.Divisible ∧
      assertionRules.lint b.file none =
        .ok (.error (.oracleUnavailable ["no-unnecessary-non-null-assertion"])) ∧
      ∃ found, found ≠ [] ∧
        ∀ oracle, untypedLinter.lint b.file oracle = .ok (.ok (found, oracle)) := by
  obtain ⟨b, hbuild⟩ : ∃ b, Program.build "a.ts" twice = .ok b :=
    Program.exists_build _ (by decide +kernel)
  have hfile := (Program.shown_of_build hbuild).1.divisible (by decide +kernel)
  have hlength : ((Program.build "a.ts" twice).toOption.map fun b =>
      (Visitor.lookAt b.file untypedLinter.visitors none).toOption.map fun x => x.1.length) =
        some (some 1) := by
    decide +kernel
  obtain ⟨-, hfails, herror, -⟩ := lint_untyped assertionRules_ofLibrary b.file
  obtain ⟨e, he⟩ := hfails.mpr ⟨_, List.mem_cons_of_mem _ List.mem_cons_self, rfl⟩
  obtain ⟨-, -, -, hsame⟩ := lint_untyped untypedLinter_ofLibrary b.file
  obtain ⟨outcome, houtcome, hends⟩ := hsame (by decide)
  obtain ⟨found, rfl⟩ := hends hfile
  refine ⟨b, hbuild, untypedLinter_ofLibrary, assertionRules_ofLibrary, hfile,
    he.trans (congrArg (Except.ok ∘ Except.error) (herror e he)), found, ?_, houtcome⟩
  obtain ⟨all, vs, hall, rfl⟩ := lint_eq_ok (houtcome none)
  rw [hbuild] at hlength
  simp only [Except.toOption, Option.map_some, hall, Option.some.injEq] at hlength
  refine List.ne_nil_of_length_pos ?_
  rw [(List.mergeSort_perm _ _).length_eq, hlength]
  exact Nat.one_pos

/-- Without an oracle linting panics at a comment that ends inside of a character, although no rule
    asks for types. -/
theorem lint_untyped_crashes :
    (∀ rule ∈ untypedLinter.rules, rule.rule.info.requiresTypes = false) ∧
      ∃ file, SourceFile.ofTree "a.ts" "//é" splitTree (some 1) = .ok file ∧
        untypedLinter.outcome file none = .error .panic := by
  refine ⟨by decide, _, rfl, ?_⟩
  decide

end Linter

end TypeLint
