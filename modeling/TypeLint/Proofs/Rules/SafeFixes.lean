import TypeLint.Proofs.Lint.Sources
import TypeLint.Proofs.Lint.Untyped
import TypeLint.Proofs.Program.Boundaries
import TypeLint.Proofs.Rules.Removals
import TypeLint.Proofs.Text.Edits

namespace TypeLint

open Syntax Binding Text Program Check

/-- The edits of the fixes begin and end between characters of the text. -/
def Report.Cuts (text : String) (report : Report) : Prop :=
  ∀ fix ∈ report.fixes, ∀ e ∈ fix.edits,
    isBoundary text e.start = true ∧ isBoundary text e.stop = true

/-- The fixes of everything that a check reports begin and end between characters. -/
def Check.Safe (check : Check (List Report)) (f : SourceFile) : Prop :=
  check.Gives f fun reports => ∀ report ∈ reports, report.Cuts f.text

variable {p : TypeLint.Program} {f : SourceFile}

theorem cuts_of_fixes_eq_nil {text : String} {report : Report} (h : report.fixes = []) :
    report.Cuts text := by
  rw [Report.Cuts, h]
  exact List.forall_mem_nil _

theorem cuts_of_fix {text : String} {report : Report} {description : String}
    {edits : List TextEdit} (h : report.fixes = [⟨description, edits⟩])
    (hedits : ∀ e ∈ edits, isBoundary text e.start = true ∧ isBoundary text e.stop = true) :
    report.Cuts text := by
  rw [Report.Cuts, h]
  exact List.forall_mem_singleton.mpr hedits

theorem safe_nil : Safe (pure []) f := gives_pure (List.forall_mem_nil _)

theorem safe_singleton {report : Report} (h : report.Cuts f.text) : Safe (pure [report]) f :=
  gives_pure (List.forall_mem_singleton.mpr h)

theorem safe_bind {α : Type} {check : Check α} {next : α → Check (List Report)}
    (h : ∀ a, (next a).Safe f) : (check >>= next).Safe f :=
  gives_bind (gives_any check) fun a _ => h a

theorem safe_bind_file {next : SourceFile → Check (List Report)} (h : (next f).Safe f) :
    (Check.file >>= next).Safe f := by
  refine gives_bind gives_file ?_
  rintro _ rfl
  exact h

section

variable (h : Shown p f)

include h

theorem boundaries_replace (r : NodeRef) (text : String) :
    isBoundary f.text (f.replace r text).start = true ∧
      isBoundary f.text (f.replace r text).stop = true :=
  h.isBoundary_range r

theorem boundaries_insertBefore (r : NodeRef) (text : String) :
    isBoundary f.text (f.insertBefore r text).start = true ∧
      isBoundary f.text (f.insertBefore r text).stop = true :=
  ⟨(h.isBoundary_range r).1, (h.isBoundary_range r).1⟩

theorem boundaries_insertAfter (r : NodeRef) (text : String) :
    isBoundary f.text (f.insertAfter r text).start = true ∧
      isBoundary f.text (f.insertAfter r text).stop = true :=
  ⟨(h.isBoundary_range r).2, (h.isBoundary_range r).2⟩

end

namespace Rules

theorem safe_requireStrictNullChecks (allowed : Bool) :
    (requireStrictNullChecks allowed).Safe f := by
  refine safe_bind fun options => ?_
  split
  · exact safe_nil
  · exact safe_singleton (cuts_of_fixes_eq_nil rfl)

namespace DuplicateCase

theorem safe_check (r : NodeRef) : (check r).Safe f := by
  refine safe_bind_file ?_
  split
  · exact safe_nil
  · exact gives_pure (List.forall_mem_map.mpr fun _ _ => cuts_of_fixes_eq_nil rfl)

end DuplicateCase

namespace SuppressionComment

theorem safe_checkComments (h : Shown p f) {comments : List Comment}
    (hcomments : ∀ c ∈ comments, c ∈ f.comments) : (checkComments f comments).Safe f := by
  induction comments with
  | nil => exact safe_nil
  | cons c rest ih =>
    obtain ⟨hc, hrest⟩ := List.forall_mem_cons.mp hcomments
    refine safe_bind fun first => ?_
    have hbehind (here : List Report) (hhere : ∀ report ∈ here, report.Cuts f.text) :
        (checkComments f rest >>= fun others => pure (here ++ others)).Safe f :=
      gives_bind (ih hrest) fun others hothers =>
        gives_pure (List.forall_mem_append.mpr ⟨hhere, hothers⟩)
    dsimp only
    split
    · refine gives_bind (gives_lift _) fun here hhere => hbehind here ?_
      obtain ⟨body, -, hbody⟩ := Result.bind_eq_ok_iff.mp hhere
      cases hbody
      split
      · refine List.forall_mem_singleton.mpr (cuts_of_fix rfl ?_)
        exact List.forall_mem_singleton.mpr (h.isBoundary_comment hc)
      · exact List.forall_mem_nil _
    · exact gives_bind (gives_pure rfl) fun here hhere => hbehind here (hhere ▸ List.forall_mem_nil _)

theorem safe_check (h : Shown p f) (r : NodeRef) : (check r).Safe f :=
  safe_bind_file (safe_checkComments h fun _ => Shown.mem_comments_of_mem_leadingComments)

end SuppressionComment

section

variable (h : Shown p f) (hp : Disciplined p) {r : NodeRef}
  (hkind : f.tree.kind? r = some .nonNullExpression)

include h hp hkind

theorem ExtraNonNullAssertion.cuts_reports {messageId description : String}
    {found : List Report} (hfound : reports f r messageId description = .ok found) :
    ∀ report ∈ found, report.Cuts f.text := by
  rw [reports] at hfound
  split at hfound
  · cases hfound
  · next start last hrange =>
    cases hfound
    have hstop := (h.isBoundary_range r).2
    rw [hrange] at hstop
    refine List.forall_mem_singleton.mpr (cuts_of_fix rfl (List.forall_mem_singleton.mpr ?_))
    exact ⟨h.isBoundary_last hp hkind hrange, hstop⟩

theorem ExtraNonNullAssertion.safe_check : (check r).Safe f := by
  refine check_gives.imp fun found hfound => ?_
  rcases hfound with rfl | ⟨messageId, description, hfound⟩
  · exact List.forall_mem_nil _
  · exact cuts_reports h hp hkind hfound

theorem NonNullAssertion.safe_check : (check r).Safe f := by
  refine check_gives.imp fun found hfound => ?_
  rcases hfound with rfl | ⟨messageId, hfound⟩
  · exact List.forall_mem_nil _
  · exact ExtraNonNullAssertion.cuts_reports h hp hkind hfound

end

namespace TypeAssertion

theorem boundaries_removal (h : Shown p f) {r : NodeRef} {kind : Kind} {a : Assertion}
    {edit : TextEdit} (hedit : removal f r kind a = .ok edit) :
    isBoundary f.text edit.start = true ∧ isBoundary f.text edit.stop = true := by
  rw [removal] at hedit
  split at hedit
  · rw [removeBrackets] at hedit
    split at hedit
    · cases hedit
    · next opening hopening =>
      split at hedit
      · cases hedit
      · next closing hclosing =>
        cases hedit
        exact ⟨(h.isBoundary_range opening).1, (h.isBoundary_range closing).2⟩
  · rw [removeSuffix] at hedit
    split at hedit
    · cases hedit
    · next keyword hkeyword =>
      cases hedit
      refine ⟨?_, (h.isBoundary_range r).2⟩
      have hoperand := (h.isBoundary_range a.expression).2
      dsimp only [SourceFile.removeRange, SourceFile.replaceRange]
      split
      · next c hc =>
        -- The removal begins behind the operand, or behind the last comment before the keyword.
        have hcomment := h.isBoundary_comment
          (Shown.mem_comments_of_mem_leadingComments (List.mem_of_getLast? hc))
        rcases max_choice c.stop (f.range a.expression).2 with hmax | hmax <;> rw [hmax]
        · exact hcomment.2
        · exact hoperand
      · exact hoperand

theorem safe_check (h : Shown p f) (o : Options) (r : NodeRef) : (check o r).Safe f := by
  refine (check_gives o).imp fun found hfound => ?_
  rcases hfound with rfl | ⟨n, a, edit, -, -, hedit, rfl⟩
  · exact List.forall_mem_nil _
  · exact List.forall_mem_singleton.mpr
      (cuts_of_fix rfl (List.forall_mem_singleton.mpr (boundaries_removal h hedit)))

end TypeAssertion

theorem OptionalChain.safe_check (h : Shown p f) (r : NodeRef) : (check r).Safe f := by
  refine check_gives.imp fun found hfound => ?_
  rcases hfound with rfl | ⟨receiver, token, -, -, rfl⟩
  · exact List.forall_mem_nil _
  · exact List.forall_mem_singleton.mpr
      (cuts_of_fix rfl (List.forall_mem_singleton.mpr (boundaries_replace h token _)))

namespace SwitchExhaustiveness

theorem boundaries_insertClause (h : Shown p f) (r : NodeRef) (c : Coverage) (code : String)
    (placement : Placement) :
    isBoundary f.text (insertClause f r c code placement).start = true ∧
      isBoundary f.text (insertClause f r c code placement).stop = true := by
  rw [insertClause]
  split
  · next last hlast =>
    cases placement with
    | beforeLast => exact boundaries_insertBefore h last _
    | afterLast => exact boundaries_insertAfter h last _
  · exact boundaries_replace h c.caseBlock _

theorem safe_check (h : Shown p f) (o : Options) (r : NodeRef) : (check o r).Safe f := by
  refine safe_bind_file ?_
  refine safe_bind fun c => ?_
  refine safe_bind fun s => ?_
  refine safe_bind fun options => gives_pure ?_
  refine List.forall_mem_append.mpr ⟨List.forall_mem_append.mpr ⟨?_, ?_⟩, ?_⟩
  · rw [missingReports]
    split
    · exact List.forall_mem_nil _
    · refine List.forall_mem_singleton.mpr (List.forall_mem_map.mpr fun id _ => ?_)
      exact List.forall_mem_singleton.mpr (boundaries_insertClause h r c _ _)
  · rw [defaultReports]
    split
    · split
      · exact List.forall_mem_singleton.mpr (cuts_of_fixes_eq_nil rfl)
      · exact List.forall_mem_nil _
    · exact List.forall_mem_nil _
  · rw [openReports]
    split
    · refine List.forall_mem_singleton.mpr (cuts_of_fix rfl ?_)
      exact List.forall_mem_singleton.mpr (boundaries_insertClause h r c _ _)
    · exact List.forall_mem_nil _

end SwitchExhaustiveness

namespace NullishCoalescing

theorem boundaries_parenthesize (h : Shown p f) (operand : NodeRef) :
    ∀ e ∈ parenthesize f operand,
      isBoundary f.text e.start = true ∧ isBoundary f.text e.stop = true := by
  rw [parenthesize]
  split
  · exact List.forall_mem_cons.mpr ⟨boundaries_insertBefore h operand _,
      List.forall_mem_singleton.mpr (boundaries_insertAfter h operand _)⟩
  · exact List.forall_mem_nil _

theorem boundaries_coalesceEdits (h : Shown p f) (r operator : NodeRef) (b : Binary) :
    ∀ e ∈ coalesceEdits f r operator b,
      isBoundary f.text e.start = true ∧ isBoundary f.text e.stop = true := by
  simp only [coalesceEdits, List.forall_mem_append]
  refine ⟨⟨⟨⟨?_, boundaries_parenthesize h _⟩, List.forall_mem_singleton.mpr
    (boundaries_replace h operator _)⟩, boundaries_parenthesize h _⟩, ?_⟩
  · split_ifs
    · exact List.forall_mem_singleton.mpr (boundaries_insertBefore h r _)
    · exact List.forall_mem_nil _
  · split_ifs
    · exact List.forall_mem_singleton.mpr (boundaries_insertAfter h r _)
    · exact List.forall_mem_nil _

theorem safe_checkLogicalOr (h : Shown p f) (o : Options) (r : NodeRef) :
    (checkLogicalOr o r).Safe f := by
  refine safe_bind_file ?_
  split
  · exact safe_nil
  · refine safe_bind fun s => ?_
    refine safe_bind fun leftType => ?_
    split
    · exact safe_nil
    refine safe_bind fun exempt => ?_
    split
    · exact safe_nil
    · refine safe_bind fun operator => ?_
      exact safe_singleton (cuts_of_fix rfl (boundaries_coalesceEdits h r operator _))

theorem safe_checkTernary (h : Shown p f) (r : NodeRef) : (checkTernary r).Safe f := by
  refine safe_bind_file ?_
  dsimp only
  split
  · exact safe_nil
  refine safe_bind fun test => ?_
  split
  · exact safe_nil
  refine safe_bind fun whenTrue => ?_
  refine safe_bind fun whenFalse => ?_
  refine safe_bind fun tested => ?_
  split
  · exact safe_nil
  split
  · exact safe_nil
  refine safe_bind fun fixable => ?_
  split
  · exact safe_singleton (cuts_of_fix rfl
      (List.forall_mem_singleton.mpr (boundaries_replace h r _)))
  · exact safe_nil

theorem safe_check (h : Shown p f) (o : Options) (r : NodeRef) : (check o r).Safe f := by
  refine safe_bind fun t => ?_
  split
  · exact safe_checkLogicalOr h o r
  · split
    · exact safe_nil
    · exact safe_checkTernary h r
  · exact safe_nil

end NullishCoalescing

namespace Condition

theorem safe_reportAt (r : NodeRef) (messageId : Option String) :
    Safe (pure (reportAt f r messageId)) f := by
  cases messageId with
  | some id => exact safe_singleton (cuts_of_fixes_eq_nil rfl)
  | none => exact safe_nil

theorem safe_checkConditionTo (depth : Nat) (r : NodeRef) (negated : Bool) :
    (checkConditionTo depth r negated).Safe f := by
  induction depth generalizing r negated with
  | zero => exact gives_crash _ _
  | succ depth ih =>
    refine safe_bind_file ?_
    refine safe_bind fun inner => ?_
    split
    · exact safe_nil
    split
    · exact ih _ _
    refine safe_bind fun options => ?_
    dsimp only
    split
    all_goals
      refine safe_bind fun skipped => ?_
      split
      · exact safe_nil
      split
      · exact ih _ _
      refine safe_bind fun s => ?_
      exact safe_bind fun id => safe_reportAt _ _

theorem safe_checkCondition (r : NodeRef) : (checkCondition r).Safe f :=
  safe_bind fun _ => safe_checkConditionTo _ _ _

theorem safe_checkNullish (r : NodeRef) : (checkNullish r).Safe f := by
  refine safe_bind_file ?_
  refine safe_bind fun inner => ?_
  refine safe_bind fun s => ?_
  refine safe_bind fun id => ?_
  split
  · exact safe_nil
  split
  · exact safe_singleton (cuts_of_fixes_eq_nil rfl)
  split
  · refine safe_bind fun anyway => ?_
    split
    · exact safe_nil
    · exact safe_singleton (cuts_of_fixes_eq_nil rfl)
  split
  · exact safe_singleton (cuts_of_fixes_eq_nil rfl)
  · exact safe_nil

theorem safe_checkComparison (r : NodeRef) (b : Binary) : (checkComparison r b).Safe f := by
  refine safe_bind_file ?_
  refine safe_bind fun s => ?_
  refine safe_bind fun left => ?_
  refine safe_bind fun right => ?_
  split
  · refine safe_singleton (cuts_of_fixes_eq_nil ?_)
    simp only [literalReport]
    split <;> rfl
  · refine safe_bind fun options => ?_
    split
    · exact safe_singleton (cuts_of_fixes_eq_nil rfl)
    · exact safe_nil

theorem safe_checkArrayPredicate (r : NodeRef) : (checkArrayPredicate r).Safe f := by
  refine safe_bind_file ?_
  split
  · exact safe_nil
  split
  · refine safe_bind fun s => ?_
    refine safe_bind fun objectType => ?_
    split
    · exact safe_nil
    split
    · exact safe_nil
    · exact safe_checkCondition _
    · exact safe_bind fun _ => safe_reportAt _ _
  · exact safe_nil

theorem safe_checkBinary (r : NodeRef) (b : Binary) : (checkBinary r b).Safe f := by
  rw [checkBinary]
  split
  · exact safe_checkNullish _
  · exact safe_checkNullish _
  · exact safe_checkCondition _
  · exact safe_checkCondition _
  · exact safe_checkCondition _
  · exact safe_checkCondition _
  · split
    · exact safe_checkComparison r b
    · exact safe_nil

theorem safe_checkLoop (o : Options) (l : Loop) : (checkLoop o l).Safe f := by
  have hjudged (constant : Bool) :
      Safe (if constant = true then pure [] else checkCondition l.condition) f := by
    split
    · exact safe_nil
    · exact safe_checkCondition _
  rw [checkLoop]
  split
  · exact safe_nil
  dsimp only
  split
  · exact safe_bind fun id => safe_bind hjudged
  · exact safe_bind hjudged

theorem safe_onSome {α : Type} (value : Option α) {check : α → Check (List Report)}
    (h : ∀ a, (check a).Safe f) : (onSome value check).Safe f := by
  cases value with
  | none => exact safe_nil
  | some a => exact h a

theorem safe_check (o : Options) (r : NodeRef) : (check o r).Safe f := by
  refine safe_bind fun t => ?_
  split
  · exact safe_nil
  split
  · exact safe_onSome _ fun _ => safe_checkCondition _
  · exact safe_onSome _ fun _ => safe_checkCondition _
  · exact safe_onSome _ (safe_checkLoop o)
  · exact safe_onSome _ (safe_checkLoop o)
  · exact safe_onSome _ (safe_checkLoop o)
  · exact safe_onSome _ (safe_checkBinary r)
  · exact safe_checkArrayPredicate r
  · exact safe_nil

end Condition

end Rules

/-- The fixes of everything that a rule of the library reports begin and end between characters. -/
theorem Rule.Builtin.safe {rule : Rule} (hrule : rule.Builtin) (hp : Disciplined p)
    (h : Shown p f) : rule.checkFile.Safe f ∧
      ∀ r kind, f.tree.kind? r = some kind → rule.IsCalledFor kind → (rule.check r).Safe f := by
  have honly {r : NodeRef} {kind other : Kind} (hkind : f.tree.kind? r = some kind)
      (hcalled : kind ∈ [other]) : f.tree.kind? r = some other :=
    List.mem_singleton.mp hcalled ▸ hkind
  cases hrule with
  | typeAssertion o =>
    exact ⟨safe_nil, fun r _ _ _ => Rules.TypeAssertion.safe_check h o r⟩
  | nonNullAssertion =>
    exact ⟨safe_nil, fun r _ hkind hcalled =>
      Rules.NonNullAssertion.safe_check h hp (honly hkind hcalled)⟩
  | extraNonNullAssertion =>
    exact ⟨safe_nil, fun r _ hkind hcalled =>
      Rules.ExtraNonNullAssertion.safe_check h hp (honly hkind hcalled)⟩
  | condition o =>
    exact ⟨Rules.safe_requireStrictNullChecks _, fun r _ _ _ => Rules.Condition.safe_check o r⟩
  | optionalChain => exact ⟨safe_nil, fun r _ _ _ => Rules.OptionalChain.safe_check h r⟩
  | switchExhaustiveness o =>
    exact ⟨safe_nil, fun r _ _ _ => Rules.SwitchExhaustiveness.safe_check h o r⟩
  | nullishCoalescing o =>
    exact ⟨Rules.safe_requireStrictNullChecks _,
      fun r _ _ _ => Rules.NullishCoalescing.safe_check h o r⟩
  | suppressionComment => exact ⟨safe_nil, fun r _ _ _ => Rules.SuppressionComment.safe_check h r⟩
  | duplicateCase => exact ⟨safe_nil, fun r _ _ _ => Rules.DuplicateCase.safe_check r⟩

/-- Whatever linting a built file finds lies in the text, and each of its fixes can be applied. -/
theorem Linter.lint_fixes_apply {l : Linter} (hl : l.OfLibrary) (hp : Disciplined p) {name : String}
    {b : Built} (hbuild : build name p = .ok b) {oracle oracle' : Option Oracle}
    {found : List Diagnostic} (hlint : l.lint b.file oracle = .ok (.ok (found, oracle')))
    {d : Diagnostic} (hd : d ∈ found) :
    (d.start ≤ d.stop ∧ d.stop ≤ byteLength b.file.text) ∧
      ∀ fix ∈ d.fixes, ∃ text, fix.apply b.file.text = .ok text := by
  obtain ⟨h, -⟩ := shown_of_build hbuild
  obtain ⟨rule, -, report, hcuts, rfl, hfits⟩ := exists_finding
    (P := fun report => report.Cuts b.file.text)
    ⟨fun rule hrule => ((hl.builtin rule hrule).safe hp h).1,
      fun rule hrule => ((hl.builtin rule hrule).safe hp h).2⟩ hlint hd
  obtain ⟨hrange, hvalid⟩ := Diagnostic.fits_iff.mp hfits
  refine ⟨hrange, fun fix hfix => ?_⟩
  obtain ⟨text, happly, -⟩ := Fix.exists_apply
    (Fix.fits_of_validate (hvalid fix hfix) (hcuts fix hfix))
    ((fix.validate_eq_ok_iff _).mp (hvalid fix hfix)).2
  exact ⟨text, happly⟩

/-- A comment and a doubled assertion, both with characters of more than one byte. -/
def accented : TypeLint.Program :=
  [.comment "// @ts-ignore é", .statement (.expression (.nonNull (.nonNull (.identifier "é"))))]

theorem Linter.lint_fixes_apply_accented :
    ∃ b found oracle, build "a.ts" accented = .ok b ∧ Disciplined accented ∧
      untypedLinter.OfLibrary ∧ untypedLinter.lint b.file none = .ok (.ok (found, oracle)) ∧
      found.length = 2 ∧ ∀ d ∈ found,
        (d.start ≤ d.stop ∧ d.stop ≤ byteLength b.file.text) ∧
          ∀ fix ∈ d.fixes, ∃ text, fix.apply b.file.text = .ok text := by
  have hp : Disciplined accented := by decide
  obtain ⟨b, hbuild⟩ : ∃ b, build "a.ts" accented = .ok b := exists_build _ (by decide +kernel)
  have hrun : ((build "a.ts" accented).toOption.bind fun b =>
      (Visitor.lookAt b.file untypedLinter.visitors none).toOption.map fun x => x.1.length) =
        some 2 := by
    decide +kernel
  rw [hbuild, Except.toOption, Option.bind_some] at hrun
  obtain ⟨⟨all, vs, oracle⟩, hall, hlength⟩ := Option.map_eq_some_iff.mp hrun
  have hlint := lint_of_lookAt (.inr (by decide)) (eq_ok_of_toOption hall)
  exact ⟨b, _, oracle, hbuild, hp, untypedLinter_ofLibrary, hlint,
    (List.length_mergeSort _).trans hlength,
    fun d hd => lint_fixes_apply untypedLinter_ofLibrary hp hbuild hlint hd⟩

end TypeLint
