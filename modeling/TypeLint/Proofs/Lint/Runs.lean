import Mathlib
import TypeLint.Linter

namespace TypeLint

open Syntax

theorem eq_ok_of_toOption {ε α : Type} {result : Except ε α} {a : α}
    (h : result.toOption = some a) : result = .ok a := by
  cases result with
  | error e => cases h
  | ok b => exact congrArg Except.ok (Option.some.inj h)

namespace Check

variable {α β : Type} {file : SourceFile}

/-- Unless it fails, a check of a file gives a result that satisfies a condition, whatever is
    remembered from the checks before it. -/
def Gives (check : Check α) (file : SourceFile) (P : α → Prop) : Prop :=
  ∀ m a, (check.run file m).1 = .ok a → P a

theorem gives_pure {P : α → Prop} {a : α} (h : P a) : (pure a : Check α).Gives file P := by
  rintro m b hb
  cases hb
  exact h

theorem gives_fail (e : RuleFailure) (P : α → Prop) : (fail e : Check α).Gives file P := by
  rintro m a ha
  cases ha

theorem gives_bind {check : Check α} {next : α → Check β} {P : α → Prop} {Q : β → Prop}
    (h : check.Gives file P) (hnext : ∀ a, P a → (next a).Gives file Q) :
    (check >>= next).Gives file Q := by
  intro m b hb
  have hcheck := h m
  rcases hrun : check.run file m with ⟨result, m'⟩
  rw [hrun] at hcheck
  cases result with
  | error e =>
    rw [run_bind_of_error hrun] at hb
    cases hb
  | ok a =>
    rw [run_bind_of_ok hrun] at hb
    exact hnext a (hcheck a rfl) m' b hb

theorem Gives.imp {check : Check α} {P Q : α → Prop} (h : check.Gives file P)
    (himp : ∀ a, P a → Q a) : check.Gives file Q :=
  fun m a ha => himp a (h m a ha)

theorem gives_any (check : Check α) : check.Gives file fun _ => True := fun _ _ _ => trivial

theorem gives_file : Check.file.Gives file (· = file) := by
  rintro m a ha
  cases ha
  rfl

theorem gives_crash (c : Crash) (P : α → Prop) : (crash c).Gives file P := by
  rintro m a ha
  cases ha

theorem gives_lift (result : Result α) : (lift result).Gives file (result = .ok ·) := by
  cases result with
  | ok a => exact gives_pure rfl
  | error c => exact gives_crash c _

theorem gives_orFail (value : Option α) (e : RuleFailure) :
    (orFail value e).Gives file (value = some ·) := by
  cases value with
  | none => exact gives_fail e _
  | some a => exact gives_pure rfl

end Check

namespace Visitor

variable {file : SourceFile} {check : Check (List Report)} {v v' : Visitor} {vs vs' : List Visitor}
  {oracle oracle' : Option Oracle} {found : List Diagnostic} {times : Nat} {work next : Work}

/-- A run of a check that does not crash finds what the check reports, or nothing if it gives up. -/
theorem run_cases (h : v.run check file oracle = .ok (found, v', oracle')) :
    v' = ⟨v.rule, v'.seen⟩ ∧
      ((∃ reports, check.run file ⟨oracle, v.seen⟩ = (.ok reports, ⟨oracle', v'.seen⟩) ∧
        found = v.rule.findings file reports) ∨
      ∃ e, check.run file ⟨oracle, v.seen⟩ = (.error (.failure e), ⟨oracle', v'.seen⟩) ∧
        found = []) := by
  rw [run] at h
  rcases hrun : check.run file ⟨oracle, v.seen⟩ with ⟨result, m⟩
  rw [hrun] at h
  rcases result with (e | c) | reports
  · cases h
    exact ⟨rfl, .inr ⟨e, rfl, rfl⟩⟩
  · cases h
  · cases h
    exact ⟨rfl, .inl ⟨reports, rfl, rfl⟩⟩

theorem repeatRun_succ_eq_ok
    (h : repeatRun check file (times + 1) v oracle = .ok (found, v', oracle')) :
    ∃ first v₁ between rest, v.run check file oracle = .ok (first, v₁, between) ∧
      repeatRun check file times v₁ between = .ok (rest, v', oracle') ∧ found = first ++ rest := by
  obtain ⟨⟨first, v₁, between⟩, hfirst, h⟩ := Result.bind_eq_ok_iff.mp h
  obtain ⟨⟨rest, v₂, last⟩, hrest, h⟩ := Result.bind_eq_ok_iff.mp h
  cases h
  exact ⟨first, v₁, between, rest, hfirst, hrest, rfl⟩

theorem runAll_cons_eq_ok {times : Visitor → Nat} {check : Rule → Check (List Report)}
    (h : runAll times check file (v :: vs) oracle = .ok (found, vs', oracle')) :
    ∃ first v₁ between rest vs₁,
      repeatRun (check v.rule.rule) file (times v) v oracle = .ok (first, v₁, between) ∧
      runAll times check file vs between = .ok (rest, vs₁, oracle') ∧ found = first ++ rest ∧
      vs' = v₁ :: vs₁ := by
  obtain ⟨⟨first, v₁, between⟩, hfirst, h⟩ := Result.bind_eq_ok_iff.mp h
  obtain ⟨⟨rest, vs₁, last⟩, hrest, h⟩ := Result.bind_eq_ok_iff.mp h
  cases h
  exact ⟨first, v₁, between, rest, vs₁, hfirst, hrest, rfl, rfl⟩

theorem runAll_singleton_eq_ok {times : Visitor → Nat} {check : Rule → Check (List Report)}
    (h : runAll times check file [v] oracle = .ok (found, vs, oracle')) :
    ∃ v', vs = [v'] ∧
      repeatRun (check v.rule.rule) file (times v) v oracle = .ok (found, v', oracle') := by
  obtain ⟨first, v₁, between, rest, vs₁, hfirst, hrest, rfl, rfl⟩ := runAll_cons_eq_ok h
  cases hrest
  exact ⟨v₁, rfl, by rw [List.append_nil, hfirst]⟩

theorem andThen_eq_ok (h : work.andThen next vs oracle = .ok (found, vs', oracle')) :
    ∃ here vs₁ between behind, work vs oracle = .ok (here, vs₁, between) ∧
      next vs₁ between = .ok (behind, vs', oracle') ∧ found = here ++ behind := by
  obtain ⟨⟨here, vs₁, between⟩, hhere, h⟩ := Result.bind_eq_ok_iff.mp h
  obtain ⟨⟨behind, vs₂, last⟩, hbehind, h⟩ := Result.bind_eq_ok_iff.mp h
  cases h
  exact ⟨here, vs₁, between, behind, hhere, hbehind, rfl⟩

theorem andThen_of_eq_ok {here behind : List Diagnostic} {vs₁ : List Visitor}
    {between : Option Oracle} (h : work vs oracle = .ok (here, vs₁, between))
    (hnext : next vs₁ between = .ok (behind, vs', oracle')) :
    work.andThen next vs oracle = .ok (here ++ behind, vs', oracle') := by
  rw [Work.andThen, h]
  change next vs₁ between >>= _ = _
  rw [hnext]
  rfl

/-- What holds of doing nothing, of what is done in turn, and of the runs of the checks for a file and
    for its nodes, holds of looking at the file. -/
theorem lookAt_induction {P : Work → Prop} (hnothing : P .nothing)
    (handThen : ∀ work next, P work → P next → P (work.andThen next))
    (hfile : P (runAll (fun _ => 1) Rule.checkFile file))
    (hkind : ∀ r ∈ file.tree.preorder file.root, ∀ kind, file.tree.kind? r = some kind →
      P (runAll (·.kindCalls kind) (·.check r) file))
    (hnode : ∀ r ∈ file.tree.preorder file.root, ∀ kind, file.tree.kind? r = some kind →
      P (runAll nodeCalls (·.check r) file)) : P (lookAt file) := by
  have hwalk (refs : List NodeRef) (hrefs : ∀ r ∈ refs, r ∈ file.tree.preorder file.root) :
      P (walk file refs) := by
    induction refs with
    | nil => exact hnothing
    | cons r rest ih =>
      obtain ⟨hr, hrest⟩ := List.forall_mem_cons.mp hrefs
      refine handThen _ _ ?_ (ih hrest)
      rw [visit]
      split
      · exact hnothing
      · next kind hkind' => exact handThen _ _ (hkind r hr kind hkind') (hnode r hr kind hkind')
  exact handThen _ _ hfile (hwalk _ fun _ hr => hr)

end Visitor

/-- What linting finds is what the rules find, in the order of the starts. -/
theorem Linter.lint_eq_ok {l : Linter} {file : SourceFile} {oracle oracle' : Option Oracle}
    {found : List Diagnostic} (h : l.lint file oracle = .ok (.ok (found, oracle'))) :
    ∃ all vs, Visitor.lookAt file l.visitors oracle = .ok (all, vs, oracle') ∧
      found = all.mergeSort fun a b => a.start ≤ b.start := by
  rw [lint] at h
  split at h
  · cases h
  · obtain ⟨⟨all, vs, last⟩, hall, h⟩ := Result.bind_eq_ok_iff.mp h
    cases h
    exact ⟨all, vs, hall, rfl⟩

/-- If there are types or no rule asks for them, linting sorts what the rules find. -/
theorem Linter.lint_eq {l : Linter} {file : SourceFile} {oracle : Option Oracle}
    (hready : oracle.isSome = true ∨ l.typedRules = []) :
    l.lint file oracle = (Visitor.lookAt file l.visitors oracle).map fun x =>
      .ok (x.1.mergeSort fun a b => a.start ≤ b.start, x.2.2) := by
  rw [lint, if_neg]
  · cases Visitor.lookAt file l.visitors oracle <;> rfl
  · rcases hready with hsome | hnil
    · simp [Option.isNone_eq_false_iff.mpr hsome]
    · simp [hnil]

theorem Linter.lint_of_lookAt {l : Linter} {file : SourceFile} {oracle oracle' : Option Oracle}
    {vs : List Visitor} {all : List Diagnostic} (hready : oracle.isSome = true ∨ l.typedRules = [])
    (h : Visitor.lookAt file l.visitors oracle = .ok (all, vs, oracle')) :
    l.lint file oracle = .ok (.ok (all.mergeSort fun a b => a.start ≤ b.start, oracle')) := by
  rw [lint_eq hready, h]
  rfl

/-- Nothing is found, or it is found by reports that satisfy a condition. -/
def ConfiguredRule.Finds (rule : ConfiguredRule) (file : SourceFile) (P : List Report → Prop)
    (found : List Diagnostic) : Prop :=
  found = [] ∨ ∃ reports, P reports ∧ found = rule.findings file reports

namespace Visitor

variable {rule : ConfiguredRule} {file : SourceFile} {v v' : Visitor} {vs : List Visitor}
  {oracle oracle' : Option Oracle} {found : List Diagnostic} {P : List Report → Prop}

theorem run_finds {check : Check (List Report)} (hgives : check.Gives file P)
    (h : v.run check file oracle = .ok (found, v', oracle')) :
    v.rule.Finds file P found ∧ v'.rule = v.rule := by
  obtain ⟨hrule, ⟨reports, hrun, rfl⟩ | ⟨e, -, rfl⟩⟩ := run_cases h
  · exact ⟨.inr ⟨reports, hgives _ _ (congrArg Prod.fst hrun), rfl⟩, hrule ▸ rfl⟩
  · exact ⟨.inl rfl, hrule ▸ rfl⟩

/-- A check that is made at most once. -/
theorem repeatRun_finds {check : Check (List Report)} {times : Nat} (htimes : times ≤ 1)
    (hgives : times = 1 → check.Gives file P)
    (h : repeatRun check file times v oracle = .ok (found, v', oracle')) :
    v.rule.Finds file P found ∧ v'.rule = v.rule := by
  match times, htimes with
  | 0, _ =>
    cases h
    exact ⟨.inl rfl, rfl⟩
  | 1, _ =>
    obtain ⟨first, v₁, between, rest, hfirst, hrest, rfl⟩ := repeatRun_succ_eq_ok h
    cases hrest
    rw [List.append_nil]
    exact run_finds (hgives rfl) hfirst

variable {kinds : List Kind} {Q : NodeRef → List Report → Prop}

/-- Handing a node to a rule that subscribes to some kinds. -/
theorem visit_finds (hkinds : rule.rule.subscription = .kinds kinds) (hnodup : kinds.Nodup)
    (hgives : ∀ r kind, file.tree.kind? r = some kind → kind ∈ kinds →
      (rule.rule.check r).Gives file (Q r))
    (hv : v.rule = rule) {r : NodeRef} (h : visit file r [v] oracle = .ok (found, vs, oracle')) :
    rule.Finds file (Q r) found ∧ ∃ v', vs = [v'] ∧ v'.rule = rule := by
  cases hkind : file.tree.kind? r with
  | none =>
    rw [visit, hkind] at h
    cases h
    exact ⟨.inl rfl, v, rfl, hv⟩
  | some kind =>
    rw [visit, hkind] at h
    have hcalls : v.kindCalls kind = kinds.count kind := by
      simp only [kindCalls, hv, hkinds]
    obtain ⟨here, vs₁, between, behind, hhere, hbehind, rfl⟩ := andThen_eq_ok h
    obtain ⟨v₁, rfl, hcheck⟩ := runAll_singleton_eq_ok hhere
    obtain ⟨v₂, rfl, hagain⟩ := runAll_singleton_eq_ok hbehind
    obtain ⟨hfound, hrule⟩ := repeatRun_finds
      (hcalls ▸ List.nodup_iff_count_le_one.mp hnodup kind)
      (fun hone => hv ▸ hgives r kind hkind (List.count_pos_iff.mp (by omega))) hcheck
    have hnone : v₁.nodeCalls = 0 := by simp only [nodeCalls, hrule.trans hv, hkinds]
    rw [hnone] at hagain
    cases hagain
    rw [List.append_nil]
    exact ⟨hv ▸ hfound, v₁, rfl, hrule.trans hv⟩

/-- Handing nodes to a rule one after the other. -/
theorem walk_finds (hkinds : rule.rule.subscription = .kinds kinds) (hnodup : kinds.Nodup)
    (hgives : ∀ r kind, file.tree.kind? r = some kind → kind ∈ kinds →
      (rule.rule.check r).Gives file (Q r))
    {refs : List NodeRef} (hv : v.rule = rule)
    (h : walk file refs [v] oracle = .ok (found, vs, oracle')) :
    ∃ founds, found = founds.flatten ∧
      List.Forall₂ (fun r found => rule.Finds file (Q r) found) refs founds := by
  induction refs generalizing v oracle found with
  | nil =>
    cases h
    exact ⟨[], rfl, .nil⟩
  | cons r rest ih =>
    obtain ⟨here, vs₁, between, behind, hhere, hbehind, rfl⟩ := andThen_eq_ok h
    obtain ⟨hfound, v', rfl, hv'⟩ := visit_finds hkinds hnodup hgives hv hhere
    obtain ⟨founds, rfl, hforall⟩ := ih hv' hbehind
    exact ⟨here :: founds, List.flatten_cons.symm, .cons hfound hforall⟩

end Visitor

/-- What a rule that subscribes to some kinds finds in a file when it is alone: something in the
    file as a whole, and something at each node. -/
theorem Linter.lint_single {rule : ConfiguredRule} {kinds : List Kind} {file : SourceFile}
    {oracle oracle' : Option Oracle} {found : List Diagnostic} {P : List Report → Prop}
    {Q : NodeRef → List Report → Prop} (hkinds : rule.rule.subscription = .kinds kinds)
    (hnodup : kinds.Nodup) (hfile : rule.rule.checkFile.Gives file P)
    (hnode : ∀ r kind, file.tree.kind? r = some kind → kind ∈ kinds →
      (rule.rule.check r).Gives file (Q r))
    (h : Linter.lint ⟨[rule]⟩ file oracle = .ok (.ok (found, oracle'))) :
    ∃ ofFile founds, found.Perm (ofFile ++ founds.flatten) ∧ rule.Finds file P ofFile ∧
      List.Forall₂ (fun r found => rule.Finds file (Q r) found) (file.tree.preorder file.root)
        founds := by
  obtain ⟨all, vs, hall, rfl⟩ := lint_eq_ok h
  obtain ⟨ofFile, vs₁, between, ofNodes, hfirst, hrest, rfl⟩ := Visitor.andThen_eq_ok hall
  obtain ⟨v₁, rfl, hcheck⟩ := Visitor.runAll_singleton_eq_ok (v := ⟨rule, []⟩) hfirst
  obtain ⟨hofFile, hrule⟩ := Visitor.repeatRun_finds (le_refl 1) (fun _ => hfile) hcheck
  obtain ⟨founds, rfl, hforall⟩ := Visitor.walk_finds hkinds hnodup hnode hrule hrest
  exact ⟨ofFile, founds, List.mergeSort_perm _ _, hofFile, hforall⟩

/-- What a rule that subscribes to some kinds finds when it is alone comes from the reports of its
    checks. -/
theorem Linter.exists_report_of_single {rule : ConfiguredRule} {kinds : List Kind}
    {file : SourceFile} {oracle oracle' : Option Oracle} {found : List Diagnostic}
    {P : Report → Prop} (hkinds : rule.rule.subscription = .kinds kinds) (hnodup : kinds.Nodup)
    (hfile : rule.rule.checkFile.Gives file fun reports => ∀ report ∈ reports, P report)
    (hnode : ∀ r, (rule.rule.check r).Gives file fun reports => ∀ report ∈ reports, P report)
    (h : Linter.lint ⟨[rule]⟩ file oracle = .ok (.ok (found, oracle'))) {d : Diagnostic}
    (hd : d ∈ found) :
    ∃ report, P report ∧ d = rule.rule.info.diagnostic file.fileName rule.category report := by
  have hfinds {found : List Diagnostic}
      (hfound : rule.Finds file (fun reports => ∀ report ∈ reports, P report) found)
      (hd : d ∈ found) :
      ∃ report, P report ∧ d = rule.rule.info.diagnostic file.fileName rule.category report := by
    rcases hfound with rfl | ⟨reports, hreports, rfl⟩
    · cases hd
    · obtain ⟨report, hreport, rfl⟩ := List.mem_map.mp (List.mem_of_mem_filter hd)
      exact ⟨report, hreports report hreport, rfl⟩
  obtain ⟨ofFile, founds, hperm, hofFile, hfounds⟩ :=
    Linter.lint_single hkinds hnodup hfile (fun r _ _ _ => hnode r) h
  rcases List.mem_append.mp (hperm.mem_iff.mp hd) with hd | hd
  · exact hfinds hofFile hd
  · clear hperm
    generalize file.tree.preorder file.root = refs at hfounds
    induction hfounds with
    | nil => cases hd
    | cons hfirst _ ih =>
      rcases List.mem_append.mp hd with hd | hd
      · exact hfinds hfirst hd
      · exact ih hd

namespace Check

variable {α β : Type} {file : SourceFile} {t : Oracle} {known : Option Oracle}

/-- On a file, and with what is known about types, the check gives a result and leaves what is
    remembered alone. -/
def Returns (check : Check α) (file : SourceFile) (known : Option Oracle) (a : α) : Prop :=
  ∀ seen, check.run file ⟨known, seen⟩ = (.ok a, ⟨known, seen⟩)

theorem returns_pure (a : α) : (pure a : Check α).Returns file known a := fun _ => rfl

theorem returns_bind {check : Check α} {next : α → Check β} {a : α} {b : β}
    (h : check.Returns file known a) (hnext : (next a).Returns file known b) :
    (check >>= next).Returns file known b := fun seen => by
  rw [run_bind_of_ok (h seen)]
  exact hnext seen

theorem returns_file : Check.file.Returns file known file := fun _ => rfl

theorem returns_tree : Check.tree.Returns file known file.tree := fun _ => rfl

theorem returns_lift {result : Result α} {a : α} (h : result = .ok a) :
    (lift result).Returns file known a := by
  rw [h]
  exact returns_pure a

theorem returns_oracle : oracle.Returns file t t := fun _ => rfl

theorem returns_store : store.Returns file t t.store := fun _ => rfl

theorem returns_options : options.Returns file t t.options := fun _ => rfl

theorem returns_orFail {value : Option α} {a : α} (h : value = some a) (e : RuleFailure) :
    (orFail value e).Returns file known a := by
  rw [h]
  exact returns_pure a

theorem returns_typeAt {r : NodeRef} {id : Types.TypeId} (h : t.typeAt? r = some id) :
    (typeAt r).Returns file t id :=
  returns_bind returns_oracle (returns_orFail h _)

theorem returns_constrainedTypeAt {r : NodeRef} {id : Types.TypeId} (h : t.typeAt? r = some id) :
    (constrainedTypeAt r).Returns file t (t.store.baseConstraint id) :=
  returns_bind returns_oracle (returns_bind (returns_orFail h _) (returns_pure _))

end Check

section

variable {rule : ConfiguredRule} {kinds : List Kind} {file : SourceFile} {t : Oracle}
  {known : Option Oracle} {reports : NodeRef → List Report}
  (hkinds : rule.rule.subscription = .kinds kinds)
  (hnodup : kinds.Nodup)
  (hnode : ∀ r kind, file.tree.kind? r = some kind → kind ∈ kinds →
    (rule.rule.check r).Returns file known (reports r))

theorem Visitor.run_returns {check : Check (List Report)} {found : List Report}
    (h : check.Returns file known found) (seen : List Nat) :
    Visitor.run ⟨rule, seen⟩ check file known =
      .ok (rule.findings file found, ⟨rule, seen⟩, known) := by
  simp only [run, h seen]

theorem Visitor.runAll_returns (times : Visitor → Nat) (check : Rule → Check (List Report))
    {found : List Report} (seen : List Nat) (htimes : times ⟨rule, seen⟩ ≤ 1)
    (h : times ⟨rule, seen⟩ = 1 → (check rule.rule).Returns file known found) :
    runAll times check file [⟨rule, seen⟩] known =
      .ok (if times ⟨rule, seen⟩ = 1 then rule.findings file found else [], [⟨rule, seen⟩],
        known) := by
  rcases Nat.le_one_iff_eq_zero_or_eq_one.mp htimes with hnone | hone
  · simp [runAll, hnone, repeatRun, pure, Except.pure, bind, Except.bind]
  · simp [runAll, hone, repeatRun, run_returns (h hone), pure, Except.pure, bind, Except.bind]

include hkinds hnodup hnode

theorem Visitor.visit_returns (seen : List Nat) (r : NodeRef) :
    visit file r [⟨rule, seen⟩] known =
      .ok (if (file.tree.kind? r).any kinds.contains then rule.findings file (reports r) else [],
        [⟨rule, seen⟩], known) := by
  cases hkind : file.tree.kind? r with
  | none =>
    rw [visit, hkind]
    rfl
  | some kind =>
    have hcalls : kindCalls ⟨rule, seen⟩ kind = if kind ∈ kinds then 1 else 0 := by
      simp only [kindCalls, hkinds, hnodup.count]
    have hnone : nodeCalls ⟨rule, seen⟩ = 0 := by simp only [nodeCalls, hkinds]
    have hhere := runAll_returns (·.kindCalls kind) (·.check r) seen
      (by rw [hcalls]; split_ifs <;> simp)
      (fun hone => hnode r kind hkind (by by_contra hmem; simp [hcalls, hmem] at hone))
    have hbehind : runAll nodeCalls (·.check r) file [⟨rule, seen⟩] known =
        .ok ([], [⟨rule, seen⟩], known) := by
      rw [runAll, hnone]
      rfl
    rw [visit, hkind]
    refine (andThen_of_eq_ok hhere hbehind).trans ?_
    rw [hcalls]
    by_cases hmem : kind ∈ kinds <;> simp [hmem]

theorem Visitor.walk_returns (seen : List Nat) (refs : List NodeRef) :
    walk file refs [⟨rule, seen⟩] known =
      .ok ((refs.filter fun r => (file.tree.kind? r).any kinds.contains).flatMap fun r =>
        rule.findings file (reports r), [⟨rule, seen⟩], known) := by
  induction refs with
  | nil => rfl
  | cons r rest ih =>
    rw [walk, andThen_of_eq_ok (visit_returns hkinds hnodup hnode seen r) ih, List.filter_cons]
    split_ifs <;> rfl

/-- What a rule that subscribes to some kinds finds in a file when it is alone and leaves everything
    as it is: what it reports at each node of one of its kinds. Types are needed only by a rule that
    asks for them. -/
theorem Linter.lint_returns_of (hfile : rule.rule.checkFile.Returns file known [])
    (hknown : known.isSome = true ∨ rule.rule.info.requiresTypes = false) :
    ∃ found, Linter.lint ⟨[rule]⟩ file known = .ok (.ok (found, known)) ∧
      found.Perm (((file.tree.preorder file.root).filter fun r =>
        (file.tree.kind? r).any kinds.contains).flatMap fun r =>
          rule.findings file (reports r)) := by
  have hready : known.isSome = true ∨ Linter.typedRules ⟨[rule]⟩ = [] :=
    hknown.imp_right fun huntyped => by simp [Linter.typedRules, huntyped]
  have hfirst := Visitor.runAll_returns (fun _ => 1) Rule.checkFile [] (le_refl 1) fun _ => hfile
  have hall := Visitor.andThen_of_eq_ok hfirst
    (Visitor.walk_returns hkinds hnodup hnode [] (file.tree.preorder file.root))
  exact ⟨_, lint_of_lookAt hready hall, List.mergeSort_perm _ _⟩

end

section

variable {rule : ConfiguredRule} {kinds : List Kind} {file : SourceFile} {t : Oracle}
  {reports : NodeRef → List Report}

theorem Linter.lint_returns (hkinds : rule.rule.subscription = .kinds kinds)
    (hnodup : kinds.Nodup)
    (hnode : ∀ r kind, file.tree.kind? r = some kind → kind ∈ kinds →
      (rule.rule.check r).Returns file t (reports r))
    (hfile : rule.rule.checkFile.Returns file t []) :
    ∃ found, Linter.lint ⟨[rule]⟩ file (some t) = .ok (.ok (found, some t)) ∧
      found.Perm (((file.tree.preorder file.root).filter fun r =>
        (file.tree.kind? r).any kinds.contains).flatMap fun r =>
          rule.findings file (reports r)) :=
  Linter.lint_returns_of hkinds hnodup hnode hfile (.inl rfl)

end

end TypeLint
