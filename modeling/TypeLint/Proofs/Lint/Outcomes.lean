import TypeLint.Proofs.Lint.Noninterference

namespace TypeLint.Check

open Syntax

variable {α β : Type} {t : Oracle} {file : SourceFile} {check : Check α} {next : α → Check β}
  {P : α → Prop} {Q : β → Prop} {R : α → α → Prop}

/-- Unless it fails, the check gives a result that satisfies a condition, whatever types have been
    made. -/
def GivesOn (check : Check α) (t : Oracle) (file : SourceFile) (P : α → Prop) : Prop :=
  ∀ m a, IsGrown t m.oracle → (check.run file m).1 = .ok a → P a

theorem GivesOn.imp {P' : α → Prop} (h : check.GivesOn t file P) (himp : ∀ a, P a → P' a) :
    check.GivesOn t file P' := fun m a hm ha => himp a (h m a hm ha)

theorem givesOn_pure {a : α} (h : P a) : (pure a : Check α).GivesOn t file P := by
  rintro m b - hb
  cases hb
  exact h

theorem givesOn_crash (c : Crash) (P : α → Prop) : (crash c).GivesOn t file P := by
  rintro m a - ha
  cases ha

/-- What a check that agrees with itself gives is related to itself, and the types are still at hand
    behind the check. -/
theorem Agree.self (h : Agree t file R check check) {m : Memory} (hm : IsGrown t m.oracle) {a : α}
    (ha : (check.run file m).1 = .ok a) : R a a ∧ IsGrown t (check.run file m).2.oracle := by
  obtain ⟨t', ht', hgrown⟩ := hm
  obtain ⟨halike, hmemory⟩ := h m m ⟨rfl, ⟨t', ht', hgrown⟩, ⟨t', ht', hgrown⟩⟩
  rw [ha] at halike
  cases halike with
  | ok hrelated => exact ⟨hrelated, hmemory.oracle⟩

theorem Agree.givesOn (h : Agree t file R check check) :
    check.GivesOn t file fun a => R a a := fun _ _ hm ha => (h.self hm ha).1

/-- What the second check gives may rest on how the first one agrees with itself and on what it
    gives. -/
theorem givesOn_bind_of (hself : Agree t file R check check) (h : check.GivesOn t file P)
    (hnext : ∀ a, R a a → P a → (next a).GivesOn t file Q) :
    (check >>= next).GivesOn t file Q := by
  intro m b hm hb
  have hfirst := h m
  have hkeeps := fun a => hself.self (m := m) (a := a) hm
  rcases hrun : check.run file m with ⟨result, m'⟩
  rw [hrun] at hfirst hkeeps
  cases result with
  | error e =>
    rw [run_bind_of_error hrun] at hb
    cases hb
  | ok a =>
    rw [run_bind_of_ok hrun] at hb
    obtain ⟨hrelated, hgrown⟩ := hkeeps a rfl
    exact hnext a hrelated (hfirst a hm rfl) m' b hgrown hb

theorem givesOn_bind (hself : Agree t file R check check)
    (hnext : ∀ a, R a a → (next a).GivesOn t file Q) : (check >>= next).GivesOn t file Q :=
  givesOn_bind_of hself hself.givesOn fun a hrelated _ => hnext a hrelated

theorem givesOn_typeAt (r : NodeRef) : (typeAt r).GivesOn t file (t.typeAt? r = some ·) := by
  refine givesOn_bind agree_oracle fun t' ht' => ?_
  rw [ht'.1.typeAt?_eq]
  exact (agree_orFail _ _).givesOn.imp fun _ h => h.1

theorem givesOn_constrainedTypeAt (h : t.Closed) (r : NodeRef) :
    (constrainedTypeAt r).GivesOn t file fun id =>
      ∃ declared, t.typeAt? r = some declared ∧ t.store.baseConstraint declared = id := by
  refine givesOn_bind agree_oracle fun t' ht' => ?_
  rw [ht'.1.typeAt?_eq]
  refine givesOn_bind (agree_orFail _ _) fun declared hdeclared => ?_
  rw [ht'.1.store.baseConstraint_eq h.store (h.typeAt _ _ hdeclared.1)]
  exact givesOn_pure ⟨declared, hdeclared.1, rfl⟩

end TypeLint.Check

namespace TypeLint

open Syntax Binding

variable {t : Oracle} {file : SourceFile}

/-- What a check reports satisfies what it gives. -/
theorem ConfiguredRule.Reports.exists_report {rule : ConfiguredRule}
    {check : Check (List Report)} {d : Diagnostic} (h : rule.Reports t file check d)
    {P : Report → Prop}
    (hgives : check.GivesOn t file fun reports => ∀ report ∈ reports, P report) :
    ∃ report, P report ∧ d = rule.rule.info.diagnostic file.fileName rule.category report := by
  obtain ⟨seen, reports, hrun, hd⟩ := h
  obtain ⟨report, hreport, rfl⟩ := List.mem_map.mp (List.mem_of_mem_filter hd)
  exact ⟨report, hgives _ reports isGrown_self hrun report hreport, rfl⟩

/-- What linting with a rule of the library finds satisfies what its checks give. -/
theorem Linter.exists_report {rule : ConfiguredRule} (hsteady : rule.rule.Steady t file)
    {P : Report → Prop}
    (hfile : rule.rule.checkFile.GivesOn t file fun reports => ∀ report ∈ reports, P report)
    (hnode : ∀ r ∈ file.tree.preorder file.root,
      (rule.rule.check r).GivesOn t file fun reports => ∀ report ∈ reports, P report)
    {found : List Diagnostic} {oracle : Option Oracle}
    (hlint : Linter.lint ⟨[rule]⟩ file (some t) = .ok (.ok (found, oracle))) {d : Diagnostic}
    (hd : d ∈ found) :
    ∃ report, P report ∧ d = rule.rule.info.diagnostic file.fileName rule.category report := by
  obtain ⟨all, vs, hall, rfl⟩ := lint_eq_ok hlint
  obtain ⟨rule', hrule', hreports⟩ := (Visitor.separate_lookAt t file).reports
    (Visitor.steady_single (v := ⟨rule, []⟩) hsteady) isGrown_self hall d (List.mem_mergeSort.mp hd)
  obtain rfl : rule' = rule := List.mem_singleton.mp hrule'
  rcases hreports with hreports | ⟨r, hr, hreports⟩
  · exact hreports.exists_report hfile
  · exact hreports.exists_report (hnode r hr)

section

variable {rule : ConfiguredRule} {kinds : List Kind} {r : NodeRef} {kind : Kind}
  {reports : List Report} (hsteady : rule.rule.Steady t file)
  (hkinds : rule.rule.subscription = .kinds kinds) (hkind : file.tree.kind? r = some kind)
  (hmem : kind ∈ kinds) (hreturns : (rule.rule.check r).Returns file t reports)

include hsteady hkinds hkind hmem hreturns

/-- A rule that is handed a node finds what its check reports there. -/
theorem Visitor.mem_visit {v : Visitor} (hv : v.rule = rule) {oracle oracle' : Option Oracle}
    {vs : List Visitor} {found : List Diagnostic} (horacle : IsGrown t oracle)
    (hvisit : Visitor.visit file r [v] oracle = .ok (found, vs, oracle')) {d : Diagnostic}
    (hd : d ∈ rule.findings file reports) : d ∈ found := by
  rw [Visitor.visit, hkind] at hvisit
  obtain ⟨here, vs₁, between, behind, hhere, -, rfl⟩ := andThen_eq_ok hvisit
  obtain ⟨v₁, rfl, hcheck⟩ := runAll_singleton_eq_ok hhere
  obtain ⟨times, htimes⟩ := Nat.exists_eq_succ_of_ne_zero (List.count_pos_iff.mpr hmem).ne'
  have hcalls : v.kindCalls kind = times + 1 := by simp only [Visitor.kindCalls, hv, hkinds, htimes]
  rw [hcalls, hv] at hcheck
  obtain ⟨first, v₂, o, rest, hfirst, -, rfl⟩ := repeatRun_succ_eq_ok hcheck
  -- What the check gives does not depend on the types that have been made.
  have hrun : v.run (rule.rule.check r) file (some t) =
      .ok (rule.findings file reports, { v with seen := v.seen }, some t) := by
    rw [Visitor.run, hreturns v.seen]
    exact congrArg (fun rule => Except.ok (ConfiguredRule.findings rule file reports, v, some t)) hv
  obtain ⟨-, o', hsame, -⟩ :=
    (run_same (hsteady.check r) v isGrown_self horacle).eq_ok hrun
  cases hfirst.symm.trans hsame
  exact List.mem_append_left _ (List.mem_append_left _ hd)

/-- A rule that walks over nodes finds what its check reports at one of them. -/
theorem Visitor.mem_walk {refs : List NodeRef}
    (hrefs : ∀ r ∈ refs, r ∈ file.tree.preorder file.root) (hr : r ∈ refs) {v : Visitor}
    (hv : v.rule = rule) {oracle oracle' : Option Oracle} {vs : List Visitor}
    {found : List Diagnostic} (horacle : IsGrown t oracle)
    (hwalk : Visitor.walk file refs [v] oracle = .ok (found, vs, oracle')) {d : Diagnostic}
    (hd : d ∈ rule.findings file reports) : d ∈ found := by
  induction refs generalizing v oracle found with
  | nil => cases hr
  | cons first rest ih =>
    obtain ⟨hfirst, hrest⟩ := List.forall_mem_cons.mp hrefs
    obtain ⟨here, vs₁, between, behind, hhere, hbehind, rfl⟩ := andThen_eq_ok hwalk
    rcases List.mem_cons.mp hr with rfl | hr
    · exact List.mem_append_left _
        (Visitor.mem_visit hsteady hkinds hkind hmem hreturns hv horacle hhere hd)
    · obtain ⟨v₁, rfl, hrule, hbetween⟩ :=
        (separate_visit hfirst).exists_eq_singleton (hv ▸ hsteady) horacle hhere
      exact List.mem_append_right _ (ih hrest hr (hrule.trans hv) hbetween hbehind)

/-- Linting with a rule of the library finds what its check reports at a node of the file. -/
theorem Linter.mem_of_returns (hr : r ∈ file.tree.preorder file.root) {found : List Diagnostic}
    {oracle : Option Oracle}
    (hlint : Linter.lint ⟨[rule]⟩ file (some t) = .ok (.ok (found, oracle))) {d : Diagnostic}
    (hd : d ∈ rule.findings file reports) : d ∈ found := by
  obtain ⟨all, vs, hall, rfl⟩ := lint_eq_ok hlint
  obtain ⟨ofFile, vs₁, between, ofNodes, hfirst, hrest, rfl⟩ := Visitor.andThen_eq_ok hall
  obtain ⟨v, rfl, hrule, hbetween⟩ := (Visitor.separate_runFile t file).exists_eq_singleton
    (v := ⟨rule, []⟩) hsteady isGrown_self hfirst
  have hmemNodes := Visitor.mem_walk hsteady hkinds hkind hmem hreturns (fun _ hr => hr) hr hrule
    hbetween hrest hd
  exact List.mem_mergeSort.mpr (List.mem_append_right _ hmemNodes)

end

/-- A view of what a rule finds in a program, with a type table for its file. -/
def Linter.viewWith? {α : Type} (rule : ConfiguredRule) (p : TypeLint.Program)
    (table : SourceFile → TypeTable) (view : Diagnostic → α) : Option (List α) := do
  let b ← (Program.build "a.ts" p).toOption
  let result ← (Linter.lint ⟨[rule]⟩ b.file (some (table b.file).oracle)).toOption
  let (found, _) ← result.toOption
  some (found.map view)

/-- The messages and ranges of what a rule finds in a program, with a type table for its file. -/
def Linter.messagesWith? (rule : ConfiguredRule) (p : TypeLint.Program)
    (table : SourceFile → TypeTable) : Option (List (String × Nat × Nat)) :=
  Linter.viewWith? rule p table fun d => (d.messageId, d.start, d.stop)

/-- The messages and ranges of what a rule finds in a program with the same type table for all
    files. -/
def Linter.messages? (rule : ConfiguredRule) (p : TypeLint.Program) (t : TypeTable) :
    Option (List (String × Nat × Nat)) :=
  Linter.messagesWith? rule p fun _ => t

theorem Linter.exists_of_viewWith? {α : Type} {rule : ConfiguredRule} {p : TypeLint.Program}
    {t : SourceFile → TypeTable} {view : Diagnostic → α} {a : α}
    (h : Linter.viewWith? rule p t view = some [a]) :
    ∃ b oracle d, Program.build "a.ts" p = .ok b ∧
      Linter.lint ⟨[rule]⟩ b.file (some (t b.file).oracle) = .ok (.ok ([d], oracle)) ∧
      view d = a := by
  obtain ⟨b, hb, h⟩ := Option.bind_eq_some_iff.mp h
  obtain ⟨result, hlint, h⟩ := Option.bind_eq_some_iff.mp h
  obtain ⟨⟨found, oracle⟩, hresult, hfound⟩ := Option.bind_eq_some_iff.mp h
  obtain rfl := eq_ok_of_toOption hresult
  obtain ⟨d, rfl, hd⟩ := List.map_eq_singleton_iff.mp (Option.some.inj hfound)
  exact ⟨b, oracle, d, eq_ok_of_toOption hb, eq_ok_of_toOption hlint, hd⟩

theorem Linter.exists_of_messagesWith? {rule : ConfiguredRule} {p : TypeLint.Program}
    {t : SourceFile → TypeTable} {message : String} {start stop : Nat}
    (h : Linter.messagesWith? rule p t = some [(message, start, stop)]) :
    ∃ b found oracle d, Program.build "a.ts" p = .ok b ∧
      Linter.lint ⟨[rule]⟩ b.file (some (t b.file).oracle) = .ok (.ok (found, oracle)) ∧ d ∈ found ∧
      d.messageId = message ∧ (d.start, d.stop) = (start, stop) := by
  obtain ⟨b, oracle, d, hb, hlint, hd⟩ := Linter.exists_of_viewWith? h
  obtain ⟨hmessage, hrange⟩ := Prod.mk.inj hd
  exact ⟨b, [d], oracle, d, hb, hlint, List.mem_singleton_self d, hmessage, hrange⟩

theorem Linter.exists_of_messages? {rule : ConfiguredRule} {p : TypeLint.Program} {t : TypeTable}
    {message : String} {start stop : Nat}
    (h : Linter.messages? rule p t = some [(message, start, stop)]) :
    ∃ b found oracle d, Program.build "a.ts" p = .ok b ∧
      Linter.lint ⟨[rule]⟩ b.file (some t.oracle) = .ok (.ok (found, oracle)) ∧ d ∈ found ∧
      d.messageId = message ∧ (d.start, d.stop) = (start, stop) :=
  Linter.exists_of_messagesWith? h

end TypeLint
