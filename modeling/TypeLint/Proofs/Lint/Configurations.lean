import Mathlib.Data.List.Forall2
import Mathlib.Data.List.Nodup
import TypeLint.Linter.OfConfig

namespace TypeLint

/-- The number that stands for a severity. -/
def Severity.level : Severity → Nat
  | off => 0
  | warn => 1
  | error => 2

/-- A value stands for a severity: it is the name or the number. -/
inductive Severity.Spelled (s : Severity) : Json → Prop where
  | name : Spelled s (.string s.name)
  | number : Spelled s (.number (.natural s.level))

namespace LintConfig

/-- A setting gives a severity and options: a severity alone, or an array of a severity and at most
    the options. -/
inductive Gives : Json → Severity → Json → Prop where
  | bare {value : Json} {s : Severity} (h : s.Spelled value) : Gives value s .null
  | single {value : Json} {s : Severity} (h : s.Spelled value) : Gives (.array [value]) s .null
  | pair {value options : Json} {s : Severity} (h : s.Spelled value) :
      Gives (.array [value, options]) s options

/-- The part of a setting that is shown when it gives no severity. -/
def shown : Json → Json
  | .array [value] => value
  | .array [value, _] => value
  | value => value

/-- The setting turns its rule off. -/
def TurnedOff (setting : Json) : Prop := ∃ options, Gives setting .off options

/-- Every setting of the configuration gives a severity. -/
def HasSeverities (c : LintConfig) : Prop := ∀ entry ∈ c.rules, ∃ s options, Gives entry.2 s options

/-- The setting of an entry gives no severity, and this is the error that says so. -/
def Misgiven (entry : String × Json) (e : ConfigError) : Prop :=
  (∀ s options, ¬Gives entry.2 s options) ∧
    e = .invalidSeverity entry.1 (shown entry.2).compact

end LintConfig

namespace Registry

variable (g : Registry)

/-- There is a rule of this name, and it is made from these options. -/
def Makes (name : String) (options : Json) (rule : Rule) : Prop :=
  ∃ make, (name, make) ∈ g.makers ∧ make options = some rule

/-- There is no rule of this name, or it does not take these options. -/
inductive Refuses : String → Json → ConfigError → Prop where
  | unknown {name : String} {options : Json} (h : name ∉ g.names) :
      Refuses name options (.unknownRule name)
  | options {name : String} {options : Json} {make : Json → Option Rule}
      (hmem : (name, make) ∈ g.makers) (hmake : make options = none) :
      Refuses name options (.invalidOptions name)

/-- An entry of a configuration turns on a rule for findings of a category. -/
inductive TurnsOn : String × Json → ConfiguredRule → Prop where
  | warn {name : String} {setting options : Json} {rule : Rule}
      (h : LintConfig.Gives setting .warn options) (hrule : g.Makes name options rule) :
      TurnsOn (name, setting) ⟨rule, .warning⟩
  | error {name : String} {setting options : Json} {rule : Rule}
      (h : LintConfig.Gives setting .error options) (hrule : g.Makes name options rule) :
      TurnsOn (name, setting) ⟨rule, .error⟩

/-- The rule of an entry that is not off cannot be made, and this is the error that says why. -/
inductive Fails : String × Json → ConfigError → Prop where
  | mk {name : String} {setting options : Json} {s : Severity} {e : ConfigError}
      (h : LintConfig.Gives setting s options) (hs : s ≠ .off) (he : g.Refuses name options e) :
      Fails (name, setting) e

end Registry

section Failures

variable {α β ε : Type} {fails : α → ε → Prop} {a : α} {l : List α} {e : ε}

/-- The first member of a list that fails does so with this error. -/
def FirstFailure (fails : α → ε → Prop) (l : List α) (e : ε) : Prop :=
  ∃ before a after, l = before ++ a :: after ∧ fails a e ∧ ∀ b ∈ before, ∀ e', ¬fails b e'

theorem not_firstFailure_nil : ¬FirstFailure fails [] e := by
  rintro ⟨before, a, after, heq, -⟩
  cases before <;> cases heq

theorem firstFailure_cons_iff :
    FirstFailure fails (a :: l) e ↔
      fails a e ∨ (∀ e', ¬fails a e') ∧ FirstFailure fails l e := by
  constructor
  · rintro ⟨before, b, after, heq, hb, hbefore⟩
    cases before with
    | nil =>
      obtain ⟨rfl, -⟩ := List.cons.inj heq
      exact .inl hb
    | cons c before =>
      obtain ⟨rfl, rfl⟩ := List.cons.inj heq
      obtain ⟨ha, hbefore⟩ := List.forall_mem_cons.mp hbefore
      exact .inr ⟨ha, before, b, after, rfl, hb, hbefore⟩
  · rintro (ha | ⟨ha, before, b, after, rfl, hb, hbefore⟩)
    · exact ⟨[], a, l, rfl, ha, List.forall_mem_nil _⟩
    · exact ⟨a :: before, b, after, rfl, hb, List.forall_mem_cons.mpr ⟨ha, hbefore⟩⟩

/-- Members that do not fail may be left out. -/
theorem firstFailure_filter_iff {p : α → Bool} (h : ∀ a e, fails a e → p a = true) :
    FirstFailure fails (l.filter p) e ↔ FirstFailure fails l e := by
  induction l with
  | nil => rfl
  | cons a l ih =>
    rw [firstFailure_cons_iff]
    cases hp : p a with
    | true => rw [List.filter_cons_of_pos hp, firstFailure_cons_iff, ih]
    | false =>
      have ha (e' : ε) : ¬fails a e' := fun hfails => by
        rw [h a e' hfails] at hp
        cases hp
      rw [List.filter_cons_of_neg (by rw [hp]; exact Bool.false_ne_true), ih]
      exact ⟨fun hl => .inr ⟨ha, hl⟩, fun hl => hl.elim (fun hfails => absurd hfails (ha e)) (·.2)⟩

/-- One result in front of others. -/
theorem prepend_eq_ok_iff {x : Except ε α} {f : α → β} {rest : Except ε (List β)} {l' : List β} :
    (do let a ← x; let others ← rest; return f a :: others) = .ok l' ↔
      ∃ a others, x = .ok a ∧ rest = .ok others ∧ l' = f a :: others := by
  cases x <;> cases rest <;> simp [bind, Except.bind, pure, Except.pure, eq_comm]

/-- The first result goes wrong, or it does not and the others do. -/
theorem prepend_eq_error_iff {x : Except ε α} {f : α → β} {rest : Except ε (List β)} :
    (do let a ← x; let others ← rest; return f a :: others) = .error e ↔
      x = .error e ∨ (∀ e', x ≠ .error e') ∧ rest = .error e := by
  cases x <;> cases rest <;> simp [bind, Except.bind, pure, Except.pure]

theorem mapM_eq_ok_iff {f : α → Except ε β} {l' : List β} :
    l.mapM f = .ok l' ↔ List.Forall₂ (fun a b => f a = .ok b) l l' := by
  induction l generalizing l' with
  | nil =>
    rw [List.mapM_nil, List.forall₂_nil_left_iff]
    exact ⟨fun h => (Except.ok.inj h).symm, fun h => h ▸ rfl⟩
  | cons a l ih =>
    rw [List.mapM_cons, prepend_eq_ok_iff, List.forall₂_cons_left_iff]
    simp only [ih, exists_and_left]

theorem mapM_eq_error_iff {f : α → Except ε β} :
    l.mapM f = .error e ↔ FirstFailure (fun a e => f a = .error e) l e := by
  induction l with
  | nil => exact iff_of_false (fun h => nomatch h) not_firstFailure_nil
  | cons a l ih => rw [List.mapM_cons, prepend_eq_error_iff, firstFailure_cons_iff, ih]

theorem exists_forall₂_iff {R : α → β → Prop} :
    (∃ l', List.Forall₂ R l l') ↔ ∀ a ∈ l, ∃ b, R a b := by
  induction l with
  | nil => exact iff_of_true ⟨[], .nil⟩ (List.forall_mem_nil _)
  | cons a l ih =>
    simp only [List.forall₂_cons_left_iff, List.forall_mem_cons, ← ih]
    constructor
    · rintro ⟨_, b, l', hb, hl, -⟩
      exact ⟨⟨b, hb⟩, l', hl⟩
    · rintro ⟨⟨b, hb⟩, l', hl⟩
      exact ⟨_, b, l', hb, hl, rfl⟩

end Failures

theorem Severity.ofJson?_eq_some_iff {value : Json} {s : Severity} :
    ofJson? value = some s ↔ s.Spelled value := by
  constructor
  · intro h
    unfold ofJson? at h
    split at h
    all_goals cases h
    exacts [.name, .number, .name, .number, .name, .number]
  · rintro (_ | _) <;> cases s <;> rfl

namespace LintConfig

variable {name : String} {setting : Json} {s : Severity} {options : Json}

theorem gives_iff : Gives setting s options ↔
    ∃ value, parts? setting = some (value, options) ∧ Severity.ofJson? value = some s := by
  simp only [Severity.ofJson?_eq_some_iff]
  constructor
  · rintro (h | h | h)
    · cases h <;> exact ⟨_, rfl, by constructor⟩
    · exact ⟨_, rfl, h⟩
    · exact ⟨_, rfl, h⟩
  · rintro ⟨value, hparts, h⟩
    unfold parts? at hparts
    split at hparts
    all_goals cases hparts
    · exact .single h
    · exact .pair h
    · exact .bare h

theorem shown_eq (setting : Json) :
    shown setting = ((parts? setting).map Prod.fst).getD setting := by
  cases setting with
  | array items =>
    match items with
    | [] | [_] | [_, _] | _ :: _ :: _ :: _ => rfl
  | _ => rfl

theorem resolveRule_of_gives (name : String) (h : Gives setting s options) :
    resolveRule name setting = .ok ⟨name, s, options⟩ := by
  obtain ⟨value, hparts, hseverity⟩ := gives_iff.mp h
  rw [resolveRule, hparts]
  dsimp only
  rw [hseverity]

theorem resolveRule_of_not_gives (name : String) (h : ∀ s options, ¬Gives setting s options) :
    resolveRule name setting = .error (.invalidSeverity name (shown setting).compact) := by
  rw [resolveRule, shown_eq]
  cases hparts : parts? setting with
  | none => rfl
  | some parts =>
    obtain ⟨value, options⟩ := parts
    cases hseverity : Severity.ofJson? value with
    | none =>
      dsimp only
      rw [hseverity]
      rfl
    | some s => exact absurd (gives_iff.mpr ⟨value, hparts, hseverity⟩) (h s options)

theorem resolveRule_eq_ok_iff {r : RuleSetting} : resolveRule name setting = .ok r ↔
    r.name = name ∧ Gives setting r.severity r.options := by
  constructor
  · intro h
    by_cases hgives : ∃ s options, Gives setting s options
    · obtain ⟨s, options, hgives⟩ := hgives
      rw [resolveRule_of_gives name hgives] at h
      cases h
      exact ⟨rfl, hgives⟩
    · rw [resolveRule_of_not_gives name (by simpa using hgives)] at h
      cases h
  · rintro ⟨rfl, hgives⟩
    exact resolveRule_of_gives _ hgives

theorem resolveRule_eq_error_iff {e : ConfigError} :
    resolveRule name setting = .error e ↔ Misgiven (name, setting) e := by
  constructor
  · intro h
    have hgives (s : Severity) (options : Json) : ¬Gives setting s options := fun hgives => by
      rw [resolveRule_of_gives name hgives] at h
      cases h
    rw [resolveRule_of_not_gives name hgives] at h
    exact ⟨hgives, (Except.error.inj h).symm⟩
  · rintro ⟨hgives, rfl⟩
    exact resolveRule_of_not_gives name hgives

/-- An entry of a configuration and what it says about its rule. -/
def Resolves (entry : String × Json) (r : RuleSetting) : Prop :=
  r.name = entry.1 ∧ Gives entry.2 r.severity r.options

theorem resolve_eq_ok_iff {c : LintConfig} {settings : List RuleSetting} :
    c.resolve = .ok settings ↔ List.Forall₂ Resolves c.rules settings := by
  rw [resolve, mapM_eq_ok_iff]
  simp only [resolveRule_eq_ok_iff]
  rfl

theorem resolve_eq_error_iff {c : LintConfig} {e : ConfigError} :
    c.resolve = .error e ↔ FirstFailure Misgiven c.rules e := by
  rw [resolve, mapM_eq_error_iff]
  simp only [resolveRule_eq_error_iff]

/-- A setting gives only one severity and options. -/
theorem Gives.unique {s' : Severity} {options' : Json} (h : Gives setting s options)
    (h' : Gives setting s' options') : s = s' ∧ options = options' := by
  have heq := (resolveRule_of_gives "" h).symm.trans (resolveRule_of_gives "" h')
  cases heq
  exact ⟨rfl, rfl⟩

theorem turnedOff_iff : TurnedOff setting ↔
    ((parts? setting).bind fun parts => Severity.ofJson? parts.1) = some .off := by
  simp only [TurnedOff, gives_iff, Option.bind_eq_some_iff, Prod.exists]
  exact exists_comm

instance : DecidablePred TurnedOff := fun _ => decidable_of_iff _ turnedOff_iff.symm

/-- The entries that are not off. -/
def enabled (c : LintConfig) : LintConfig := ⟨c.rules.filter fun entry => ¬TurnedOff entry.2⟩

end LintConfig

namespace Registry

variable {g : Registry} {name : String} {options : Json}

theorem lookup_makers_iff (hg : g.names.Nodup) {make : Json → Option Rule} :
    g.makers.lookup name = some make ↔ (name, make) ∈ g.makers := by
  rw [List.lookup_eq_some_iff]
  constructor
  · rintro ⟨before, after, heq, -⟩
    exact heq ▸ List.mem_append_right _ List.mem_cons_self
  · intro hmem
    obtain ⟨before, after, heq⟩ := List.append_of_mem hmem
    rw [names, heq, List.map_append, List.map_cons, List.nodup_middle, List.nodup_cons] at hg
    refine ⟨before, after, heq, fun p hp => bne_iff_ne.mpr fun hname => hg.1 ?_⟩
    exact List.mem_append_left _ (List.mem_map.mpr ⟨p, hp, hname.symm⟩)

theorem lookup_makers_eq_none_iff : g.makers.lookup name = none ↔ name ∉ g.names := by
  rw [List.lookup_eq_none_iff, names, List.mem_map]
  constructor
  · rintro h ⟨p, hp, rfl⟩
    exact bne_iff_ne.mp (h p hp) rfl
  · exact fun h p hp => bne_iff_ne.mpr fun hname => h ⟨p, hp, hname.symm⟩

theorem create_eq_ok_iff (hg : g.names.Nodup) {rule : Rule} :
    g.create name options = .ok rule ↔ g.Makes name options rule := by
  simp only [Makes, ← lookup_makers_iff hg]
  rw [create]
  cases g.makers.lookup name with
  | none => exact iff_of_false (fun h => nomatch h) fun ⟨make, h, _⟩ => nomatch h
  | some make =>
    dsimp only
    cases hmake : make options with
    | none => simp [hmake]
    | some made => simp [hmake]

theorem create_eq_error_iff (hg : g.names.Nodup) {e : ConfigError} :
    g.create name options = .error e ↔ g.Refuses name options e := by
  constructor
  · intro h
    rw [create] at h
    split at h
    · next hlookup =>
      cases h
      exact .unknown (lookup_makers_eq_none_iff.mp hlookup)
    · next make hlookup =>
      split at h
      · next hmake =>
        cases h
        exact .options ((lookup_makers_iff hg).mp hlookup) hmake
      · cases h
  · rintro (hname | ⟨hmem, hmake⟩)
    · rw [create, lookup_makers_eq_none_iff.mpr hname]
    · rw [create, (lookup_makers_iff hg).mpr hmem]
      dsimp only
      rw [hmake]

end Registry

theorem Severity.exists_category {s : Severity} (h : s ≠ .off) :
    ∃ category, s.category? = some category := by
  cases s with
  | off => exact absurd rfl h
  | warn => exact ⟨.warning, rfl⟩
  | error => exact ⟨.error, rfl⟩

namespace Registry

variable {g : Registry} {options : Json}

variable {entry : String × Json} {setting : RuleSetting}

theorem turnedOff_iff_of_resolves (h : LintConfig.Resolves entry setting) :
    LintConfig.TurnedOff entry.2 ↔ setting.severity = .off := by
  constructor
  · rintro ⟨options, hoff⟩
    exact (h.2.unique hoff).1
  · intro hoff
    exact ⟨_, hoff ▸ h.2⟩

theorem turnsOn_iff_of_resolves (hg : g.names.Nodup) (h : LintConfig.Resolves entry setting)
    {rule : ConfiguredRule} :
    g.TurnsOn entry rule ↔ setting.severity.category? = some rule.category ∧
      g.create setting.name setting.options = .ok rule.rule := by
  obtain ⟨hname, hgives⟩ := h
  rw [create_eq_ok_iff hg, hname]
  constructor
  · rintro (⟨hgives', hrule⟩ | ⟨hgives', hrule⟩)
    all_goals
      obtain ⟨hs, ho⟩ := hgives.unique hgives'
      rw [hs, ho]
      exact ⟨rfl, hrule⟩
  · rintro ⟨hcategory, hrule⟩
    obtain ⟨rule, category⟩ := rule
    cases hs : setting.severity with
    | off =>
      rw [hs] at hcategory
      cases hcategory
    | warn =>
      rw [hs] at hcategory hgives
      cases hcategory
      exact .warn hgives hrule
    | error =>
      rw [hs] at hcategory hgives
      cases hcategory
      exact .error hgives hrule

theorem exists_turnsOn_iff {s : Severity} (h : LintConfig.Gives entry.2 s options) :
    (∃ rule, g.TurnsOn entry rule) ↔ s ≠ .off ∧ ∃ rule, g.Makes entry.1 options rule := by
  constructor
  · rintro ⟨_, ⟨h', hrule⟩ | ⟨h', hrule⟩⟩
    all_goals
      obtain ⟨rfl, rfl⟩ := h.unique h'
      exact ⟨nofun, _, hrule⟩
  · rintro ⟨hs, rule, hrule⟩
    cases s with
    | off => exact absurd rfl hs
    | warn => exact ⟨_, .warn h hrule⟩
    | error => exact ⟨_, .error h hrule⟩

theorem fails_iff_of_resolves (hg : g.names.Nodup) (h : LintConfig.Resolves entry setting)
    {e : ConfigError} :
    g.Fails entry e ↔ setting.severity ≠ .off ∧
      g.create setting.name setting.options = .error e := by
  obtain ⟨hname, hgives⟩ := h
  rw [create_eq_error_iff hg, hname]
  constructor
  · rintro ⟨hgives', hs, he⟩
    obtain ⟨rfl, rfl⟩ := hgives'.unique hgives
    exact ⟨hs, he⟩
  · rintro ⟨hs, he⟩
    exact .mk hgives hs he

end Registry

namespace Linter

variable {g : Registry} {entries : List (String × Json)} {settings : List RuleSetting}

theorem configuredRules_cons_of_off {setting : RuleSetting} (h : setting.severity = .off) :
    configuredRules g (setting :: settings) = configuredRules g settings := by
  rw [configuredRules, h]
  rfl

theorem configuredRules_cons_of_category {setting : RuleSetting} {category : Category}
    (h : setting.severity.category? = some category) :
    configuredRules g (setting :: settings) = (do
      let rule ← g.create setting.name setting.options
      let others ← configuredRules g settings
      return ⟨rule, category⟩ :: others) := by
  rw [configuredRules, h]

theorem configuredRules_eq_ok_iff (hg : g.names.Nodup)
    (h : List.Forall₂ LintConfig.Resolves entries settings) {rules : List ConfiguredRule} :
    configuredRules g settings = .ok rules ↔
      List.Forall₂ g.TurnsOn (entries.filter fun entry => ¬LintConfig.TurnedOff entry.2) rules := by
  induction h generalizing rules with
  | nil =>
    rw [List.filter_nil, List.forall₂_nil_left_iff]
    exact ⟨fun h => (Except.ok.inj h).symm, fun h => h ▸ rfl⟩
  | @cons entry setting entries settings hentry _ ih =>
    by_cases hoff : LintConfig.TurnedOff entry.2
    · rw [List.filter_cons_of_neg (by simpa using hoff), ← ih,
        configuredRules_cons_of_off ((Registry.turnedOff_iff_of_resolves hentry).mp hoff)]
    · obtain ⟨category, hcategory⟩ := Severity.exists_category
        (mt (Registry.turnedOff_iff_of_resolves hentry).mpr hoff)
      rw [List.filter_cons_of_pos (by simpa using hoff), List.forall₂_cons_left_iff,
        configuredRules_cons_of_category hcategory, prepend_eq_ok_iff]
      simp only [ih, Registry.turnsOn_iff_of_resolves hg hentry, hcategory]
      constructor
      · rintro ⟨rule, others, hrule, hothers, rfl⟩
        exact ⟨⟨rule, category⟩, others, ⟨rfl, hrule⟩, hothers, rfl⟩
      · rintro ⟨⟨rule, _⟩, others, ⟨⟨⟩, hrule⟩, hothers, rfl⟩
        exact ⟨rule, others, hrule, hothers, rfl⟩

theorem configuredRules_eq_error_iff (hg : g.names.Nodup)
    (h : List.Forall₂ LintConfig.Resolves entries settings) {e : ConfigError} :
    configuredRules g settings = .error e ↔ FirstFailure g.Fails entries e := by
  induction h with
  | nil => exact iff_of_false (fun h => nomatch h) not_firstFailure_nil
  | @cons entry setting entries settings hentry _ ih =>
    simp only [firstFailure_cons_iff, Registry.fails_iff_of_resolves hg hentry, ← ih]
    by_cases hoff : setting.severity = .off
    · simp [configuredRules_cons_of_off hoff, hoff]
    · obtain ⟨category, hcategory⟩ := Severity.exists_category hoff
      simp only [configuredRules_cons_of_category hcategory, prepend_eq_error_iff, ne_eq, hoff,
        not_false_eq_true, true_and]

section

variable {c : LintConfig}

theorem hasSeverities_iff : c.HasSeverities ↔ ∃ settings, c.resolve = .ok settings := by
  simp only [LintConfig.HasSeverities, LintConfig.resolve_eq_ok_iff, exists_forall₂_iff]
  refine forall₂_congr fun entry _ => ⟨?_, ?_⟩
  · rintro ⟨s, options, h⟩
    exact ⟨⟨entry.1, s, options⟩, rfl, h⟩
  · rintro ⟨r, -, h⟩
    exact ⟨_, _, h⟩

theorem ofConfig_of_resolve_eq_error {e : ConfigError} (h : c.resolve = .error e) :
    ofConfig c g = .error e := by
  rw [ofConfig, h]
  rfl

theorem ofConfig_of_resolve_eq_ok (h : c.resolve = .ok settings) :
    ofConfig c g = (configuredRules g settings).map Linter.mk := by
  rw [ofConfig, h]
  change (configuredRules g settings >>= fun rules => pure (Linter.mk rules)) = _
  cases configuredRules g settings <;> rfl

/-- A linter is made exactly if all settings give severities, and then from the entries that are not
    off. -/
theorem ofConfig_eq_ok_iff (hg : g.names.Nodup) {l : Linter} :
    ofConfig c g = .ok l ↔
      c.HasSeverities ∧ List.Forall₂ g.TurnsOn c.enabled.rules l.rules := by
  rw [hasSeverities_iff]
  cases hresolve : c.resolve with
  | error e =>
    rw [ofConfig_of_resolve_eq_error hresolve]
    exact iff_of_false (fun h => nomatch h) fun ⟨⟨settings, h⟩, _⟩ => nomatch h
  | ok settings =>
    rw [ofConfig_of_resolve_eq_ok hresolve, LintConfig.enabled,
      ← configuredRules_eq_ok_iff hg (LintConfig.resolve_eq_ok_iff.mp hresolve)]
    cases configuredRules g settings with
    | error e => exact iff_of_false (fun h => nomatch h) fun ⟨_, h⟩ => nomatch h
    | ok rules =>
      refine ⟨fun h => ⟨⟨settings, rfl⟩, ?_⟩, fun ⟨_, h⟩ => ?_⟩
      · cases h
        rfl
      · rw [Except.ok.inj h]
        rfl

/-- The first setting without a severity is to blame, and if there is none the first rule that
    cannot be made. -/
theorem ofConfig_eq_error_iff (hg : g.names.Nodup) {e : ConfigError} :
    ofConfig c g = .error e ↔
      FirstFailure LintConfig.Misgiven c.rules e ∨
        c.HasSeverities ∧ FirstFailure g.Fails c.rules e := by
  rw [hasSeverities_iff, ← LintConfig.resolve_eq_error_iff]
  cases hresolve : c.resolve with
  | error e' =>
    rw [ofConfig_of_resolve_eq_error hresolve]
    constructor
    · intro h
      exact .inl (Except.error.inj h ▸ rfl)
    · rintro (h | ⟨⟨settings, h⟩, -⟩)
      · exact Except.error.inj h ▸ rfl
      · cases h
  | ok settings =>
    rw [ofConfig_of_resolve_eq_ok hresolve,
      ← configuredRules_eq_error_iff hg (LintConfig.resolve_eq_ok_iff.mp hresolve)]
    cases configuredRules g settings with
    | error e' => simp [Except.map]
    | ok rules => simp [Except.map]

theorem exists_ofConfig_eq_ok_iff (hg : g.names.Nodup) :
    (∃ l, ofConfig c g = .ok l) ↔
      c.HasSeverities ∧ ∀ entry ∈ c.rules, ∀ s options, LintConfig.Gives entry.2 s options →
        s ≠ .off → ∃ rule, g.Makes entry.1 options rule := by
  constructor
  · rintro ⟨l, hl⟩
    obtain ⟨hgives, hrules⟩ := (ofConfig_eq_ok_iff hg).mp hl
    refine ⟨hgives, fun entry hentry s options h hs => ?_⟩
    have henabled : entry ∈ c.enabled.rules :=
      List.mem_filter.mpr ⟨hentry, decide_eq_true fun ⟨_, hoff⟩ => hs (h.unique hoff).1⟩
    have hturnsOn := exists_forall₂_iff.mp ⟨_, hrules⟩ entry henabled
    exact ((Registry.exists_turnsOn_iff h).mp hturnsOn).2
  · rintro ⟨hgives, hmakes⟩
    have hturnsOn : ∀ entry ∈ c.enabled.rules, ∃ rule, g.TurnsOn entry rule := by
      intro entry henabled
      obtain ⟨hentry, hon⟩ := List.mem_filter.mp henabled
      obtain ⟨s, options, h⟩ := hgives entry hentry
      have hs : s ≠ .off := fun hs => of_decide_eq_true hon ⟨options, hs ▸ h⟩
      exact (Registry.exists_turnsOn_iff h).mpr ⟨hs, hmakes entry hentry s options h hs⟩
    obtain ⟨rules, hrules⟩ := exists_forall₂_iff.mpr hturnsOn
    exact ⟨⟨rules⟩, (ofConfig_eq_ok_iff hg).mpr ⟨hgives, hrules⟩⟩

/-- Entries that are off might as well not be there. -/
theorem ofConfig_enabled (hg : g.names.Nodup) (c : LintConfig) :
    ofConfig c.enabled g = ofConfig c g := by
  have hgives : c.enabled.HasSeverities ↔ c.HasSeverities := by
    refine ⟨fun h entry hentry => ?_, fun h entry hentry => h entry (List.mem_of_mem_filter hentry)⟩
    by_cases hoff : LintConfig.TurnedOff entry.2
    · exact ⟨_, hoff⟩
    · exact h entry (List.mem_filter.mpr ⟨hentry, decide_eq_true hoff⟩)
  have htwice : c.enabled.enabled = c.enabled := by
    simp only [LintConfig.enabled, List.filter_filter, Bool.and_self]
  have hmisgiven (e : ConfigError) : FirstFailure LintConfig.Misgiven c.enabled.rules e ↔
      FirstFailure LintConfig.Misgiven c.rules e :=
    firstFailure_filter_iff fun entry e h => decide_eq_true fun ⟨options, hoff⟩ =>
      h.1 .off options hoff
  have hfails (e : ConfigError) : FirstFailure g.Fails c.enabled.rules e ↔
      FirstFailure g.Fails c.rules e :=
    firstFailure_filter_iff fun entry e h => decide_eq_true fun ⟨options, hoff⟩ => by
      obtain ⟨hgives, hs, -⟩ := h
      exact hs (hgives.unique hoff).1
  cases h : ofConfig c g with
  | error e =>
    rw [ofConfig_eq_error_iff hg] at h ⊢
    rwa [hmisgiven, hgives, hfails]
  | ok l =>
    rw [ofConfig_eq_ok_iff hg] at h ⊢
    rwa [hgives, htwice]

end

end Linter

theorem Registry.nodup_names_builtin : builtin.names.Nodup := by decide

/-- Rules bear the names that they are made by. -/
theorem Registry.name_eq_of_makes {name : String} {options : Json} {rule : Rule}
    (h : builtin.Makes name options rule) : rule.info.name = name := by
  obtain ⟨make, hmem, hmake⟩ := h
  have hplain {name : String} {b : Bool} {other : Rule} (hname : other.info.name = name)
      (h : (if b then some other else none) = some rule) : rule.info.name = name := by
    split_ifs at h
    exact Option.some.inj h ▸ hname
  have hoptions {name : String} {α : Type} {o : Option α} {other : α → Rule}
      (hname : ∀ o, (other o).info.name = name) (h : o.map other = some rule) :
      rule.info.name = name := by
    obtain ⟨o, -, rfl⟩ := Option.map_eq_some_iff.mp h
    exact hname o
  simp only [builtin, List.mem_cons, Prod.mk.injEq, List.not_mem_nil, or_false] at hmem
  rcases hmem with ⟨rfl, rfl⟩ | ⟨rfl, rfl⟩ | ⟨rfl, rfl⟩ | ⟨rfl, rfl⟩ | ⟨rfl, rfl⟩ | ⟨rfl, rfl⟩ |
    ⟨rfl, rfl⟩ | ⟨rfl, rfl⟩ | ⟨rfl, rfl⟩
  exacts [hoptions (fun _ => rfl) hmake, hplain rfl hmake, hplain rfl hmake,
    hoptions (fun _ => rfl) hmake, hplain rfl hmake, hoptions (fun _ => rfl) hmake,
    hoptions (fun _ => rfl) hmake, hplain rfl hmake, hplain rfl hmake]

theorem Registry.name_eq_of_turnsOn {entry : String × Json} {rule : ConfiguredRule}
    (h : builtin.TurnsOn entry rule) : rule.rule.info.name = entry.1 := by
  obtain ⟨-, hrule⟩ | ⟨-, hrule⟩ := h
  all_goals exact name_eq_of_makes hrule

/-- A linter is made exactly if every setting gives a severity and every rule that is not off is
    there and takes its options. Its rules are then those that are not off, in the order of the
    configuration and with their categories, and the entries that are off might as well not be
    there. Otherwise the first setting without a severity is to blame, and if there is none the
    first rule that is not off and cannot be made. -/
theorem Linter.ofConfig_builtin (c : LintConfig) :
    ((∃ l, ofConfig c .builtin = .ok l) ↔
      c.HasSeverities ∧ ∀ entry ∈ c.rules, ∀ s options, LintConfig.Gives entry.2 s options →
        s ≠ .off → ∃ rule, Registry.builtin.Makes entry.1 options rule) ∧
    (∀ l, ofConfig c .builtin = .ok l →
      List.Forall₂ Registry.builtin.TurnsOn c.enabled.rules l.rules ∧
        l.ruleNames = c.enabled.ruleNames) ∧
    ofConfig c.enabled .builtin = ofConfig c .builtin ∧
    ∀ e, ofConfig c .builtin = .error e ↔
      FirstFailure LintConfig.Misgiven c.rules e ∨
        c.HasSeverities ∧ FirstFailure Registry.builtin.Fails c.rules e := by
  have hg := Registry.nodup_names_builtin
  refine ⟨exists_ofConfig_eq_ok_iff hg, fun l hl => ?_, ofConfig_enabled hg c, fun e =>
    ofConfig_eq_error_iff hg⟩
  have hrules := ((ofConfig_eq_ok_iff hg).mp hl).2
  have hnames : List.Forall₂ (fun entry rule => rule.rule.info.name = entry.1) c.enabled.rules
      l.rules := hrules.imp fun _ _ => Registry.name_eq_of_turnsOn
  refine ⟨hrules, ?_⟩
  rw [ruleNames, LintConfig.ruleNames, ← List.forall₂_eq_eq_eq, List.forall₂_map_left_iff,
    List.forall₂_map_right_iff]
  exact hnames.flip

/-- A setting without a severity is to blame also behind a rule that is not there. -/
example : (Linter.ofConfig ⟨[("no-such-rule", .string "error"), ("other", .string "off"),
    ("no-duplicate-case", .array [.string "loud"])]⟩ .builtin).map Linter.ruleNames =
      .error (.invalidSeverity "no-duplicate-case" "\x22loud\x22") := by
  rfl

end TypeLint
