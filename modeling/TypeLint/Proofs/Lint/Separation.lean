import TypeLint.Proofs.Lint.Agreement
import TypeLint.Proofs.Lint.Runs

namespace TypeLint

open Syntax Check

/-- What a check gives does not depend on the types that have been made. -/
def Check.Steady {α : Type} (t : Oracle) (file : SourceFile) (check : Check α) : Prop :=
  Agree t file Eq check check

/-- What a rule reports does not depend on the types that have been made. -/
structure Rule.Steady (t : Oracle) (file : SourceFile) (rule : Rule) : Prop where
  checkFile : rule.checkFile.Steady t file
  check : ∀ r, (rule.check r).Steady t file

/-- The oracle is there, and it differs from a given one only by types that have been made. -/
def IsGrown (t : Oracle) (oracle : Option Oracle) : Prop := ∃ t', oracle = some t' ∧ t.Grown t'

/-- A diagnostic stands for something that a check of a rule reports. -/
def ConfiguredRule.Reports (rule : ConfiguredRule) (t : Oracle) (file : SourceFile)
    (check : Check (List Report)) (d : Diagnostic) : Prop :=
  ∃ seen reports, (check.run file ⟨some t, seen⟩).1 = .ok reports ∧ d ∈ rule.findings file reports

/-- A diagnostic stands for something that a rule reports about the file or at one of its nodes. -/
def ConfiguredRule.ReportsIn (rule : ConfiguredRule) (t : Oracle) (file : SourceFile)
    (d : Diagnostic) : Prop :=
  rule.Reports t file rule.rule.checkFile d ∨
    ∃ r ∈ file.tree.preorder file.root, rule.Reports t file (rule.rule.check r) d

variable {t : Oracle} {file : SourceFile}

theorem isGrown_self : IsGrown t (some t) := ⟨t, rfl, .refl t⟩

theorem IsGrown.isSome {oracle : Option Oracle} (h : IsGrown t oracle) : oracle.isSome = true := by
  obtain ⟨t', rfl, -⟩ := h
  rfl

namespace Visitor

variable {v v' : Visitor} {vs vs' : List Visitor} {oracle oracle' : Option Oracle}
  {found : List Diagnostic}

/-- The name of the rule at work. -/
def name (v : Visitor) : String := v.rule.rule.info.name

/-- The rules at work. -/
def rules (vs : List Visitor) : List ConfiguredRule := vs.map (·.rule)

theorem rule_mem_rules (h : v ∈ vs) : v.rule ∈ rules vs := List.mem_map_of_mem h

theorem rules_visitors (l : Linter) : rules l.visitors = l.rules := by
  rw [rules, Linter.visitors, List.map_map]
  exact List.map_id _

section

variable {check : Check (List Report)} {times : Nat}

theorem rule_of_repeatRun (h : repeatRun check file times v oracle = .ok (found, v', oracle')) :
    v'.rule = v.rule ∧ ∀ d ∈ found, d.rule = v.name := by
  induction times generalizing v oracle found with
  | zero =>
    cases h
    exact ⟨rfl, List.forall_mem_nil _⟩
  | succ times ih =>
    obtain ⟨first, v₁, between, rest, hfirst, hrest, rfl⟩ := repeatRun_succ_eq_ok h
    obtain ⟨hrule, hcases⟩ := run_cases hfirst
    obtain ⟨hrule', hrest⟩ := ih hrest
    have hsame : v₁.rule = v.rule := hrule ▸ rfl
    refine ⟨hrule'.trans hsame, List.forall_mem_append.mpr ⟨fun d hd => ?_, fun d hd => ?_⟩⟩
    · rcases hcases with ⟨reports, -, rfl⟩ | ⟨e, -, rfl⟩
      · obtain ⟨report, -, rfl⟩ := List.mem_map.mp (List.mem_of_mem_filter hd)
        rfl
      · cases hd
    · exact (hrest d hd).trans (congrArg (·.rule.info.name) hsame)

theorem rules_of_runAll {times : Visitor → Nat} {check : Rule → Check (List Report)}
    (h : runAll times check file vs oracle = .ok (found, vs', oracle')) :
    rules vs' = rules vs ∧ ∀ d ∈ found, ∃ v ∈ vs, d.rule = v.name := by
  induction vs generalizing oracle found vs' with
  | nil =>
    cases h
    exact ⟨rfl, List.forall_mem_nil _⟩
  | cons v vs ih =>
    obtain ⟨first, v₁, between, rest, vs₁, hfirst, hrest, rfl, rfl⟩ := runAll_cons_eq_ok h
    obtain ⟨hrule, hnames⟩ := rule_of_repeatRun hfirst
    obtain ⟨hrules, hothers⟩ := ih hrest
    refine ⟨congrArg₂ List.cons hrule hrules,
      List.forall_mem_append.mpr ⟨fun d hd => ⟨v, List.mem_cons_self, hnames d hd⟩, fun d hd => ?_⟩⟩
    obtain ⟨w, hw, hd⟩ := hothers d hd
    exact ⟨w, List.mem_cons_of_mem v hw, hd⟩

end

/-- Two runs crash alike, or they find the same, leave the rules in the same state and have made only
    types. -/
inductive SameRun {α : Type} (t : Oracle) :
    Result (List Diagnostic × α × Option Oracle) →
      Result (List Diagnostic × α × Option Oracle) → Prop where
  | ok {found : List Diagnostic} {state : α} {oracle oracle' : Option Oracle}
      (h : IsGrown t oracle) (h' : IsGrown t oracle') :
      SameRun t (.ok (found, state, oracle)) (.ok (found, state, oracle'))
  | error (c : Crash) : SameRun t (.error c) (.error c)

/-- Two runs that are the same as far as they go stay the same if both go on in the same way. -/
theorem SameRun.bind {α β : Type} {x y : Result (List Diagnostic × α × Option Oracle)}
    {next : List Diagnostic × α × Option Oracle → Result (List Diagnostic × β × Option Oracle)}
    (h : SameRun t x y)
    (hnext : ∀ found state oracle oracle', x = .ok (found, state, oracle) → IsGrown t oracle →
      IsGrown t oracle' → SameRun t (next (found, state, oracle)) (next (found, state, oracle'))) :
    SameRun t (x >>= next) (y >>= next) := by
  cases h with
  | ok h h' => exact hnext _ _ _ _ rfl h h'
  | error c => exact .error c

theorem SameRun.eq_ok {α : Type} {x y : Result (List Diagnostic × α × Option Oracle)}
    (h : SameRun t x y) {found : List Diagnostic} {state : α} (hx : x = .ok (found, state, oracle)) :
    IsGrown t oracle ∧ ∃ oracle', y = .ok (found, state, oracle') ∧ IsGrown t oracle' := by
  subst hx
  cases h with
  | ok h h' => exact ⟨h, _, rfl, h'⟩

/-- The order of the two oracles is of no importance to what a run is. -/
theorem SameRun.exists_ok_iff {α : Type} {x y : Result (List Diagnostic × α × Option Oracle)}
    (h : SameRun t x y) : (∃ a, x = .ok a) ↔ ∃ a, y = .ok a := by
  cases h with
  | ok h h' => exact ⟨fun _ => ⟨_, rfl⟩, fun _ => ⟨_, rfl⟩⟩
  | error c => exact Iff.rfl

section

variable {check : Check (List Report)} (hcheck : check.Steady t file)

include hcheck

theorem run_same (v : Visitor) (h : IsGrown t oracle) (h' : IsGrown t oracle') :
    SameRun t (v.run check file oracle) (v.run check file oracle') := by
  obtain ⟨hresult, hmemory⟩ := hcheck ⟨oracle, v.seen⟩ ⟨oracle', v.seen⟩ ⟨rfl, h, h'⟩
  rcases hrun : check.run file ⟨oracle, v.seen⟩ with ⟨result, m⟩
  rcases hrun' : check.run file ⟨oracle', v.seen⟩ with ⟨result', m'⟩
  rw [hrun, hrun'] at hresult hmemory
  have hseen : m.seen = m'.seen := hmemory.seen
  simp only [run, hrun, hrun']
  cases hresult with
  | ok ha =>
    simp only [ha, hseen]
    exact .ok hmemory.oracle hmemory.oracle'
  | error e =>
    cases e with
    | failure e =>
      simp only [hseen]
      exact .ok hmemory.oracle hmemory.oracle'
    | crash c => exact .error c

theorem repeatRun_same (times : Nat) (v : Visitor) (h : IsGrown t oracle)
    (h' : IsGrown t oracle') :
    SameRun t (repeatRun check file times v oracle) (repeatRun check file times v oracle') := by
  induction times generalizing v oracle oracle' with
  | zero => exact .ok h h'
  | succ times ih =>
    refine (run_same hcheck v h h').bind fun first v₁ o o' _ ho ho' => ?_
    exact (ih v₁ ho ho').bind fun rest v₂ o o' _ ho ho' => .ok ho ho'

theorem reports_of_mem_repeatRun {times : Nat} (h : IsGrown t oracle)
    (hrun : repeatRun check file times v oracle = .ok (found, v', oracle')) :
    ∀ d ∈ found, v.rule.Reports t file check d := by
  induction times generalizing v oracle found with
  | zero =>
    cases hrun
    exact List.forall_mem_nil _
  | succ times ih =>
    obtain ⟨first, v₁, between, rest, hfirst, hrest, rfl⟩ := repeatRun_succ_eq_ok hrun
    obtain ⟨hrule, hcases⟩ := run_cases hfirst
    have hgrown := ((run_same hcheck v h h).eq_ok hfirst).1
    have hsame : v₁.rule = v.rule := hrule ▸ rfl
    refine List.forall_mem_append.mpr ⟨fun d hd => ?_, hsame ▸ ih hgrown hrest⟩
    rcases hcases with ⟨reports, hreports, rfl⟩ | ⟨e, -, rfl⟩
    · obtain ⟨hresult, -⟩ := hcheck ⟨oracle, v.seen⟩ ⟨some t, v.seen⟩ ⟨rfl, h, isGrown_self⟩
      rw [hreports] at hresult
      generalize hx : (check.run file ⟨some t, v.seen⟩).1 = x at hresult
      cases hresult with
      | ok ha => exact ⟨v.seen, _, hx, ha ▸ hd⟩
    · cases hd

end

theorem runAll_same {times : Visitor → Nat} {check : Rule → Check (List Report)}
    (hcheck : ∀ rule ∈ rules vs, (check rule.rule).Steady t file) (h : IsGrown t oracle)
    (h' : IsGrown t oracle') :
    SameRun t (runAll times check file vs oracle) (runAll times check file vs oracle') := by
  induction vs generalizing oracle oracle' with
  | nil => exact .ok h h'
  | cons v vs ih =>
    obtain ⟨hv, hvs⟩ := List.forall_mem_cons.mp hcheck
    refine (repeatRun_same hv (times v) v h h').bind fun first v₁ o o' _ ho ho' => ?_
    exact (ih hvs ho ho').bind fun rest vs₁ o o' _ ho ho' => .ok ho ho'

/-- The rules are different ones, and they do not depend on the types that have been made. -/
structure Apart (t : Oracle) (file : SourceFile) (vs : List Visitor) : Prop where
  names : (vs.map name).Nodup
  steady : ∀ rule ∈ rules vs, rule.rule.Steady t file

theorem steady_single (h : v.rule.rule.Steady t file) :
    ∀ rule ∈ rules [v], rule.rule.Steady t file := by
  rintro rule hrule
  rwa [List.mem_singleton.mp hrule]

theorem Apart.tail (h : Apart t file (v :: vs)) : Apart t file vs where
  names := h.names.of_cons
  steady rule hrule := h.steady rule (List.mem_cons_of_mem _ hrule)

theorem Apart.of_rules_eq (h : Apart t file vs) (hrules : rules vs' = rules vs) :
    Apart t file vs' where
  names := by
    have hnames := congrArg (List.map fun rule : ConfiguredRule => rule.rule.info.name) hrules
    simp only [rules, List.map_map] at hnames
    exact hnames.symm ▸ h.names
  steady := hrules.symm ▸ h.steady

theorem Apart.single (h : Apart t file vs) (hv : v ∈ vs) : Apart t file [v] where
  names := List.nodup_singleton _
  steady := steady_single (h.steady _ (rule_mem_rules hv))

/-- A rule that has worked alone has found a part of what all have found together, and it is left in
    the same state. -/
def Shares (t : Oracle) (work : Work) (found : List Diagnostic) (v v' : Visitor) : Prop :=
  ∃ oracle, work [v] (some t) = .ok (found.filter (·.rule == v.name), [v'], oracle)

/-- What several rules do together is what each of them does alone, whatever types have been made. -/
structure Separate (t : Oracle) (file : SourceFile) (work : Work) : Prop where
  keeps : ∀ {vs oracle found vs' oracle'}, work vs oracle = .ok (found, vs', oracle') →
    rules vs' = rules vs
  same : ∀ {vs oracle oracle'}, (∀ rule ∈ rules vs, rule.rule.Steady t file) →
    IsGrown t oracle → IsGrown t oracle' → SameRun t (work vs oracle) (work vs oracle')
  reports : ∀ {vs oracle found vs' oracle'}, (∀ rule ∈ rules vs, rule.rule.Steady t file) →
    IsGrown t oracle → work vs oracle = .ok (found, vs', oracle') →
      ∀ d ∈ found, ∃ rule ∈ rules vs, rule.ReportsIn t file d
  returns : ∀ {vs oracle}, Apart t file vs → IsGrown t oracle →
    ((∃ x, work vs oracle = .ok x) ↔ ∀ v ∈ vs, ∃ x, work [v] (some t) = .ok x)
  alone : ∀ {vs oracle found vs' oracle'}, Apart t file vs → IsGrown t oracle →
    work vs oracle = .ok (found, vs', oracle') → List.Forall₂ (Shares t work found) vs vs'

theorem separate_nothing : Separate t file .nothing where
  keeps h := by
    cases h
    rfl
  same _ h h' := .ok h h'
  reports _ _ h := by
    cases h
    exact List.forall_mem_nil _
  returns _ _ := ⟨fun _ _ _ => ⟨_, rfl⟩, fun _ => ⟨_, rfl⟩⟩
  alone _ _ h := by
    cases h
    exact List.forall₂_same.mpr fun _ _ => ⟨_, rfl⟩

section

variable {times : Visitor → Nat} {check : Rule → Check (List Report)}
  (hcheck : ∀ rule : Rule, rule.Steady t file → (check rule).Steady t file)

include hcheck

/-- Alone, a rule runs its check as it does among others. -/
theorem runAll_alone (hv : v.rule.rule.Steady t file) (h : IsGrown t oracle)
    (hrun : repeatRun (check v.rule.rule) file (times v) v oracle = .ok (found, v', oracle')) :
    ∃ between, runAll times check file [v] (some t) = .ok (found, [v'], between) := by
  obtain ⟨-, between, halone, -⟩ :=
    (repeatRun_same (hcheck _ hv) (times v) v h isGrown_self).eq_ok hrun
  refine ⟨between, ?_⟩
  rw [runAll, halone]
  simp [runAll, bind, Except.bind, pure, Except.pure]

theorem runAll_shares (hvs : Apart t file vs) (h : IsGrown t oracle)
    (hrun : runAll times check file vs oracle = .ok (found, vs', oracle')) :
    List.Forall₂ (Shares t (runAll times check file) found) vs vs' := by
  induction vs generalizing oracle found vs' with
  | nil =>
    cases hrun
    exact .nil
  | cons v vs ih =>
    obtain ⟨first, v₁, between, rest, vs₁, hfirst, hrest, rfl, rfl⟩ := runAll_cons_eq_ok hrun
    have hsteady := hvs.steady _ (rule_mem_rules List.mem_cons_self)
    obtain ⟨hgrown, -⟩ := (repeatRun_same (hcheck _ hsteady) (times v) v h h).eq_ok hfirst
    have hnames := (rule_of_repeatRun hfirst).2
    have hne {w : Visitor} (hw : w ∈ vs) : w.name ≠ v.name := fun heq =>
      (List.nodup_cons.mp hvs.names).1 (heq ▸ List.mem_map_of_mem hw)
    refine .cons ?_ ?_
    · have hself : first.filter (·.rule == v.name) = first :=
        List.filter_eq_self.mpr fun d hd => beq_iff_eq.mpr (hnames d hd)
      have hothers : rest.filter (·.rule == v.name) = [] :=
        List.filter_eq_nil_iff.mpr fun d hd hbeq => by
          obtain ⟨w, hw, hname⟩ := (rules_of_runAll hrest).2 d hd
          exact hne hw (hname.symm.trans (beq_iff_eq.mp hbeq))
      rw [Shares, List.filter_append, hself, hothers, List.append_nil]
      exact runAll_alone hcheck hsteady h hfirst
    · refine ((List.forall₂_and_left _ _).mpr ⟨fun w hw => hne hw, ih hvs.tail hgrown hrest⟩).imp ?_
      rintro w w' ⟨hw, hshares⟩
      have hself : first.filter (·.rule == w.name) = [] :=
        List.filter_eq_nil_iff.mpr fun d hd hbeq =>
          hw ((beq_iff_eq.mp hbeq).symm.trans (hnames d hd))
      rwa [Shares, List.filter_append, hself, List.nil_append]

theorem separate_runAll (times : Visitor → Nat)
    (hreports : ∀ (rule : ConfiguredRule) (d : Diagnostic),
      rule.Reports t file (check rule.rule) d → rule.ReportsIn t file d) :
    Separate t file (runAll times check file) where
  keeps h := (rules_of_runAll h).1
  same hvs h h' := runAll_same (fun rule hrule => hcheck _ (hvs rule hrule)) h h'
  reports {vs oracle found vs' oracle'} hvs h hrun := by
    induction vs generalizing oracle found vs' with
    | nil =>
      cases hrun
      exact List.forall_mem_nil _
    | cons v vs ih =>
      obtain ⟨hv, hrest⟩ := List.forall_mem_cons.mp hvs
      obtain ⟨first, v₁, between, rest, vs₁, hfirst, hothers, rfl, rfl⟩ := runAll_cons_eq_ok hrun
      obtain ⟨hgrown, -⟩ := (repeatRun_same (hcheck _ hv) (times v) v h h).eq_ok hfirst
      refine List.forall_mem_append.mpr ⟨fun d hd => ⟨v.rule, List.mem_cons_self, ?_⟩,
        fun d hd => ?_⟩
      · exact hreports _ d (reports_of_mem_repeatRun (hcheck _ hv) h hfirst d hd)
      · obtain ⟨rule, hrule, hd⟩ := ih hrest hgrown hothers d hd
        exact ⟨rule, List.mem_cons_of_mem _ hrule, hd⟩
  returns {vs oracle} hvs h := by
    induction vs generalizing oracle with
    | nil => exact ⟨fun _ => List.forall_mem_nil _, fun _ => ⟨_, rfl⟩⟩
    | cons v vs ih =>
      have hsteady := hvs.steady _ (rule_mem_rules List.mem_cons_self)
      constructor
      · rintro ⟨⟨found, vs', oracle'⟩, hrun⟩
        obtain ⟨first, v₁, between, rest, vs₁, hfirst, hrest, -, -⟩ := runAll_cons_eq_ok hrun
        obtain ⟨hgrown, -⟩ := (repeatRun_same (hcheck _ hsteady) (times v) v h h).eq_ok hfirst
        obtain ⟨o, halone⟩ := runAll_alone hcheck hsteady h hfirst
        exact List.forall_mem_cons.mpr ⟨⟨_, halone⟩, (ih hvs.tail hgrown).mp ⟨_, hrest⟩⟩
      · intro halone
        obtain ⟨⟨⟨first, vs₁, o⟩, hfirst⟩, hothers⟩ := List.forall_mem_cons.mp halone
        obtain ⟨v₁, rfl, hrun⟩ := runAll_singleton_eq_ok hfirst
        obtain ⟨-, between, hfirst, hgrown⟩ :=
          (repeatRun_same (hcheck _ hsteady) (times v) v isGrown_self h).eq_ok hrun
        obtain ⟨⟨rest, vs', o'⟩, hrest⟩ := (ih hvs.tail hgrown).mpr hothers
        refine ⟨(first ++ rest, v₁ :: vs', o'), ?_⟩
        rw [runAll, hfirst]
        change runAll times check file vs between >>= _ = _
        rw [hrest]
        rfl
  alone hvs h hrun := runAll_shares hcheck hvs h hrun

end

theorem forall₂_comp {α β γ : Type} {R : α → β → Prop} {S : β → γ → Prop} {as : List α}
    {bs : List β} {cs : List γ} (h : List.Forall₂ R as bs) (h' : List.Forall₂ S bs cs) :
    List.Forall₂ (fun a c => ∃ b, R a b ∧ S b c) as cs := by
  induction h generalizing cs with
  | nil =>
    cases h'
    exact .nil
  | cons hab _ ih =>
    cases h' with
    | cons hbc hrest => exact .cons ⟨_, hab, hbc⟩ (ih hrest)

theorem forall_of_forall₂ {α β : Type} {R : α → β → Prop} {as : List α} {bs : List β}
    {P : α → Prop} (h : List.Forall₂ R as bs) (himp : ∀ a b, R a b → P a) : ∀ a ∈ as, P a := by
  induction h with
  | nil => exact List.forall_mem_nil _
  | cons hab _ ih => exact List.forall_mem_cons.mpr ⟨himp _ _ hab, ih⟩

section

variable {work next : Work} (hwork : Separate t file work) (hnext : Separate t file next)

include hwork hnext

/-- What a rule finds alone in turn, it finds in turn as it is left among others. -/
theorem Shares.andThen {here behind : List Diagnostic} {v₁ : Visitor}
    (hv : v.rule.rule.Steady t file) (h : Shares t work here v v₁)
    (h' : Shares t next behind v₁ v') : Shares t (work.andThen next) (here ++ behind) v v' := by
  obtain ⟨between, hhere⟩ := h
  obtain ⟨oracle, hbehind⟩ := h'
  have hrule : v₁.rule = v.rule := (List.cons.inj (hwork.keeps hhere)).1
  obtain ⟨hgrown, -⟩ :=
    (hwork.same (steady_single hv) isGrown_self isGrown_self).eq_ok hhere
  have hv₁ : v₁.rule.rule.Steady t file := by rwa [hrule]
  obtain ⟨-, oracle', hbehind, -⟩ :=
    (hnext.same (steady_single hv₁) isGrown_self hgrown).eq_ok hbehind
  have hname : v₁.name = v.name := congrArg (·.rule.info.name) hrule
  rw [hname] at hbehind
  exact ⟨oracle', by rw [List.filter_append, andThen_of_eq_ok hhere hbehind]⟩

/-- What is done in turn is separate if each part is. -/
theorem Separate.andThen : Separate t file (work.andThen next) := by
  have hkeeps {vs oracle found vs' oracle'}
      (h : work.andThen next vs oracle = .ok (found, vs', oracle')) : rules vs' = rules vs := by
    obtain ⟨here, vs₁, between, behind, hhere, hbehind, rfl⟩ := andThen_eq_ok h
    exact (hnext.keeps hbehind).trans (hwork.keeps hhere)
  have halone {vs oracle found vs' oracle'} (hvs : Apart t file vs) (h : IsGrown t oracle)
      (hrun : work.andThen next vs oracle = .ok (found, vs', oracle')) :
      List.Forall₂ (Shares t (work.andThen next) found) vs vs' := by
    obtain ⟨here, vs₁, between, behind, hhere, hbehind, rfl⟩ := andThen_eq_ok hrun
    obtain ⟨hgrown, -⟩ := (hwork.same hvs.steady h h).eq_ok hhere
    have hchain := forall₂_comp (hwork.alone hvs h hhere)
      (hnext.alone (hvs.of_rules_eq (hwork.keeps hhere)) hgrown hbehind)
    refine ((List.forall₂_and_left _ _).mpr ⟨fun v hv => hv, hchain⟩).imp ?_
    rintro v v' ⟨hv, v₁, hfirst, hrest⟩
    exact Shares.andThen hwork hnext (hvs.steady _ (rule_mem_rules hv)) hfirst hrest
  refine ⟨hkeeps, fun hvs h h' => ?_, fun hvs h hrun => ?_,
    fun {vs _} hvs h => ⟨?_, fun hreturns => ?_⟩,
    halone⟩
  · refine (hwork.same hvs h h').bind fun here vs₁ o o' hhere ho ho' => ?_
    refine (hnext.same (hwork.keeps hhere ▸ hvs) ho ho').bind fun _ _ _ _ _ ho ho' => ?_
    exact .ok ho ho'
  · obtain ⟨here, vs₁, between, behind, hhere, hbehind, rfl⟩ := andThen_eq_ok hrun
    obtain ⟨hgrown, -⟩ := (hwork.same hvs h h).eq_ok hhere
    have hrules := hwork.keeps hhere
    refine List.forall_mem_append.mpr ⟨hwork.reports hvs h hhere, ?_⟩
    exact hrules ▸ hnext.reports (hrules ▸ hvs) hgrown hbehind
  · rintro ⟨⟨found, vs', oracle'⟩, hrun⟩
    exact forall_of_forall₂ (halone hvs h hrun) fun v v' hshares => ⟨_, hshares.choose_spec⟩
  · have hfirst : ∀ v ∈ vs, ∃ x, work [v] (some t) = .ok x := fun v hv => by
      obtain ⟨⟨found, vs', oracle'⟩, hrun⟩ := hreturns v hv
      obtain ⟨here, vs₁, between, behind, hhere, -⟩ := andThen_eq_ok hrun
      exact ⟨_, hhere⟩
    obtain ⟨⟨here, vs₁, between⟩, hhere⟩ := (hwork.returns hvs h).mpr hfirst
    obtain ⟨hgrown, -⟩ := (hwork.same hvs.steady h h).eq_ok hhere
    have hapart := hvs.of_rules_eq (hwork.keeps hhere)
    -- A rule that is left in a state by the first part goes on from it when it is alone.
    have hrest : ∀ v₁ ∈ vs₁, ∃ x, next [v₁] (some t) = .ok x := by
      have hshares := (List.forall₂_and_left _ _).mpr ⟨hreturns, hwork.alone hvs h hhere⟩
      have hsteady := (List.forall₂_and_left _ _).mpr
        ⟨fun v hv => hvs.steady _ (rule_mem_rules hv), hshares⟩
      refine forall_of_forall₂ hsteady.flip ?_
      rintro v₁ v ⟨hv, ⟨⟨found, vs', oracle'⟩, hrun⟩, o, halone⟩
      obtain ⟨here', vs₂, between', behind, hhere', hbehind, -⟩ := andThen_eq_ok hrun
      cases halone.symm.trans hhere'
      obtain ⟨hgrown', -⟩ := (hwork.same (steady_single hv) isGrown_self isGrown_self).eq_ok halone
      have hrule : v₁.rule = v.rule := (List.cons.inj (hwork.keeps halone)).1
      have hv₁ : v₁.rule.rule.Steady t file := by rwa [hrule]
      exact (hnext.same (steady_single hv₁) hgrown' isGrown_self).exists_ok_iff.mp ⟨_, hbehind⟩
    obtain ⟨⟨behind, vs', oracle'⟩, hbehind⟩ := (hnext.returns hapart hgrown).mpr hrest
    exact ⟨_, andThen_of_eq_ok hhere hbehind⟩

end

theorem separate_runFile (t : Oracle) (file : SourceFile) :
    Separate t file (runAll (fun _ => 1) Rule.checkFile file) :=
  separate_runAll (fun _ hrule => hrule.checkFile) _ fun _ _ => .inl

theorem separate_visit {r : NodeRef} (hr : r ∈ file.tree.preorder file.root) :
    Separate t file (visit file r) := by
  have hcalls (times : Visitor → Nat) : Separate t file (runAll times (·.check r) file) :=
    separate_runAll (fun _ hrule => hrule.check r) times fun _ _ hd => .inr ⟨r, hr, hd⟩
  rw [visit]
  split
  · exact separate_nothing
  · exact (hcalls _).andThen (hcalls _)

theorem separate_walk {refs : List NodeRef}
    (hrefs : ∀ r ∈ refs, r ∈ file.tree.preorder file.root) : Separate t file (walk file refs) := by
  induction refs with
  | nil => exact separate_nothing
  | cons r rest ih =>
    obtain ⟨hr, hrest⟩ := List.forall_mem_cons.mp hrefs
    exact (separate_visit hr).andThen (ih hrest)

/-- What is found in a file is what each rule finds about it and at its nodes. -/
theorem separate_lookAt (t : Oracle) (file : SourceFile) : Separate t file (lookAt file) :=
  (separate_runFile t file).andThen (separate_walk fun _ hr => hr)

/-- A rule alone is left alone. -/
theorem Separate.exists_eq_singleton {work : Work} (hwork : Separate t file work)
    (hv : v.rule.rule.Steady t file) (h : IsGrown t oracle)
    (hrun : work [v] oracle = .ok (found, vs, oracle')) :
    ∃ v', vs = [v'] ∧ v'.rule = v.rule ∧ IsGrown t oracle' := by
  obtain ⟨v', rfl, hrule⟩ := List.map_eq_singleton_iff.mp (hwork.keeps hrun)
  exact ⟨v', rfl, hrule, ((hwork.same (steady_single hv) h h).eq_ok hrun).1⟩

end Visitor

end TypeLint
