import TypeLint.Proofs.Lint.Separation

namespace TypeLint

open Syntax

/-- The rule is called for nodes of the kind. -/
def Rule.IsCalledFor (rule : Rule) (kind : Kind) : Prop :=
  match rule.subscription with
  | .kinds kinds => kind ∈ kinds
  | .allNodes => True

/-- A diagnostic fits into a text exactly if its range lies in the text and all of its fixes are
    valid there. -/
theorem Diagnostic.fits_iff {d : Diagnostic} {length : Nat} : d.fits length = true ↔
    (d.start ≤ d.stop ∧ d.stop ≤ length) ∧ ∀ fix ∈ d.fixes, fix.validate length = .ok () := by
  rw [fits, Bool.and_eq_true, Bool.and_eq_true, decide_eq_true_eq, decide_eq_true_eq,
    List.all_eq_true]
  refine and_congr_right fun _ => forall₂_congr fun fix _ => ?_
  cases fix.validate length with
  | error e => exact ⟨nofun, nofun⟩
  | ok _ => exact ⟨fun _ => rfl, fun _ => rfl⟩

/-- The diagnostic comes from a report of the rule that satisfies a condition, and it fits into the
    text. -/
def ConfiguredRule.Finding (rule : ConfiguredRule) (file : SourceFile) (P : Report → Prop)
    (d : Diagnostic) : Prop :=
  ∃ report, P report ∧ d = rule.rule.info.diagnostic file.fileName rule.category report ∧
    d.fits (Text.byteLength file.text) = true

namespace Visitor

variable {file : SourceFile} {P : Report → Prop} {check : Check (List Report)} {v v' : Visitor}
  {vs vs' : List Visitor} {oracle oracle' : Option Oracle} {found : List Diagnostic}

theorem finding_of_mem_run (hgives : check.Gives file fun reports => ∀ report ∈ reports, P report)
    (h : v.run check file oracle = .ok (found, v', oracle')) :
    ∀ d ∈ found, v.rule.Finding file P d := by
  intro d hd
  rcases (run_finds hgives h).1 with rfl | ⟨reports, hreports, rfl⟩
  · cases hd
  · obtain ⟨hd, hfits⟩ := List.mem_filter.mp hd
    obtain ⟨report, hreport, rfl⟩ := List.mem_map.mp hd
    exact ⟨report, hreports report hreport, rfl, hfits⟩

theorem finding_of_mem_repeatRun {times : Nat}
    (hgives : 0 < times → check.Gives file fun reports => ∀ report ∈ reports, P report)
    (h : repeatRun check file times v oracle = .ok (found, v', oracle')) :
    ∀ d ∈ found, v.rule.Finding file P d := by
  induction times generalizing v oracle found with
  | zero =>
    cases h
    exact List.forall_mem_nil _
  | succ times ih =>
    obtain ⟨first, v₁, between, rest, hfirst, hrest, rfl⟩ := repeatRun_succ_eq_ok h
    have hcheck := hgives (Nat.succ_pos times)
    have hrule := (run_finds hcheck hfirst).2
    exact List.forall_mem_append.mpr ⟨finding_of_mem_run hcheck hfirst,
      hrule ▸ ih (fun _ => hcheck) hrest⟩

theorem finding_of_mem_runAll {times : Visitor → Nat} {check : Rule → Check (List Report)}
    (hgives : ∀ v ∈ vs, 0 < times v →
      (check v.rule.rule).Gives file fun reports => ∀ report ∈ reports, P report)
    (h : runAll times check file vs oracle = .ok (found, vs', oracle')) :
    ∀ d ∈ found, ∃ rule ∈ rules vs, rule.Finding file P d := by
  induction vs generalizing oracle found vs' with
  | nil =>
    cases h
    exact List.forall_mem_nil _
  | cons v vs ih =>
    obtain ⟨hv, hvs⟩ := List.forall_mem_cons.mp hgives
    obtain ⟨first, v₁, between, rest, vs₁, hfirst, hrest, rfl, rfl⟩ := runAll_cons_eq_ok h
    refine List.forall_mem_append.mpr ⟨fun d hd => ?_, fun d hd => ?_⟩
    · exact ⟨v.rule, List.mem_cons_self, finding_of_mem_repeatRun hv hfirst d hd⟩
    · obtain ⟨rule, hrule, hd⟩ := ih hvs hrest d hd
      exact ⟨rule, List.mem_cons_of_mem _ hrule, hd⟩

/-- The checks of the rules report only what satisfies a condition. -/
structure Reporting (file : SourceFile) (P : Report → Prop) (rules : List ConfiguredRule) :
    Prop where
  checkFile : ∀ rule ∈ rules,
    rule.rule.checkFile.Gives file fun reports => ∀ report ∈ reports, P report
  check : ∀ rule ∈ rules, ∀ r kind, file.tree.kind? r = some kind → rule.rule.IsCalledFor kind →
    (rule.rule.check r).Gives file fun reports => ∀ report ∈ reports, P report

theorem isCalledFor_of_kindCalls_pos {kind : Kind} (h : 0 < v.kindCalls kind) :
    v.rule.rule.IsCalledFor kind := by
  rw [kindCalls] at h
  rw [Rule.IsCalledFor]
  cases hsubscription : v.rule.rule.subscription with
  | kinds kinds =>
    rw [hsubscription] at h
    exact List.count_pos_iff.mp h
  | allNodes => trivial

theorem isCalledFor_of_nodeCalls_pos (h : 0 < v.nodeCalls) (kind : Kind) :
    v.rule.rule.IsCalledFor kind := by
  rw [nodeCalls] at h
  rw [Rule.IsCalledFor]
  cases hsubscription : v.rule.rule.subscription with
  | kinds kinds =>
    rw [hsubscription] at h
    cases h
  | allNodes => trivial

/-- The rules find what comes from reports of theirs, and stay the same. -/
def Works (file : SourceFile) (P : Report → Prop) (work : Work) : Prop :=
  ∀ vs oracle found vs' oracle', Reporting file P (rules vs) →
    work vs oracle = .ok (found, vs', oracle') →
      rules vs' = rules vs ∧ ∀ d ∈ found, ∃ rule ∈ rules vs, rule.Finding file P d

theorem works_lookAt (file : SourceFile) (P : Report → Prop) : Works file P (lookAt file) := by
  refine lookAt_induction ?_ ?_ ?_ ?_ ?_
  · rintro vs oracle _ _ _ - ⟨⟩
    exact ⟨rfl, List.forall_mem_nil _⟩
  · intro work next hwork hnext vs oracle found vs' oracle' hreporting h
    obtain ⟨here, vs₁, between, behind, hhere, hbehind, rfl⟩ := andThen_eq_ok h
    obtain ⟨hrules, hfound⟩ := hwork _ _ _ _ _ hreporting hhere
    obtain ⟨hrules', hfound'⟩ := hnext _ _ _ _ _ (hrules.symm ▸ hreporting) hbehind
    exact ⟨hrules'.trans hrules, List.forall_mem_append.mpr ⟨hfound, hrules ▸ hfound'⟩⟩
  · intro vs oracle found vs' oracle' hreporting h
    exact ⟨(rules_of_runAll h).1, finding_of_mem_runAll
      (fun v hv _ => hreporting.checkFile _ (rule_mem_rules hv)) h⟩
  · intro r _ kind hkind vs oracle found vs' oracle' hreporting h
    exact ⟨(rules_of_runAll h).1, finding_of_mem_runAll (fun v hv hpos =>
      hreporting.check _ (rule_mem_rules hv) r kind hkind (isCalledFor_of_kindCalls_pos hpos)) h⟩
  · intro r _ kind hkind vs oracle found vs' oracle' hreporting h
    exact ⟨(rules_of_runAll h).1, finding_of_mem_runAll (fun v hv hpos => hreporting.check _
      (rule_mem_rules hv) r kind hkind (isCalledFor_of_nodeCalls_pos hpos kind)) h⟩

end Visitor

/-- Everything that linting finds comes from a report of one of the rules and fits into the
    text. -/
theorem Linter.exists_finding {l : Linter} {file : SourceFile} {P : Report → Prop}
    (h : Visitor.Reporting file P l.rules) {oracle oracle' : Option Oracle}
    {found : List Diagnostic} (hlint : l.lint file oracle = .ok (.ok (found, oracle')))
    {d : Diagnostic} (hd : d ∈ found) : ∃ rule ∈ l.rules, rule.Finding file P d := by
  obtain ⟨all, vs, hall, rfl⟩ := lint_eq_ok hlint
  have hfound := (Visitor.works_lookAt file P _ _ _ _ _ ((Visitor.rules_visitors l).symm ▸ h) hall).2 d
    (List.mem_mergeSort.mp hd)
  rwa [Visitor.rules_visitors] at hfound

end TypeLint
