import TypeLint.Proofs.Lint.Runs

namespace TypeLint

open Syntax

namespace Check

variable {α β : Type} {file : SourceFile} {oracles : Set (Option Oracle)}

/-- The check does the same with each of the oracles and leaves them alone. -/
def Indifferent (check : Check α) (file : SourceFile) (oracles : Set (Option Oracle)) : Prop :=
  ∀ seen, ∃ result seen', ∀ oracle ∈ oracles,
    check.run file ⟨oracle, seen⟩ = (result, ⟨oracle, seen'⟩)

theorem indifferent_pure (a : α) : (pure a : Check α).Indifferent file oracles := fun seen =>
  ⟨.ok a, seen, fun _ _ => rfl⟩

theorem indifferent_fail (e : RuleFailure) : (fail e : Check α).Indifferent file oracles :=
  fun seen => ⟨.error _, seen, fun _ _ => rfl⟩

theorem indifferent_lift (result : Result α) : (lift result).Indifferent file oracles := by
  cases result with
  | ok a => exact indifferent_pure a
  | error c => exact fun seen => ⟨.error _, seen, fun _ _ => rfl⟩

theorem indifferent_orFail (value : Option α) (e : RuleFailure) :
    (orFail value e).Indifferent file oracles := by
  cases value with
  | none => exact indifferent_fail e
  | some a => exact indifferent_pure a

theorem indifferent_file : Check.file.Indifferent file oracles := fun seen =>
  ⟨.ok file, seen, fun _ _ => rfl⟩

theorem indifferent_firstSight (offset : Nat) : (firstSight offset).Indifferent file oracles := by
  intro seen
  by_cases hseen : seen.contains offset = true
  · exact ⟨.ok false, seen, fun _ _ => by rw [run, firstSight, if_pos hseen]⟩
  · exact ⟨.ok true, offset :: seen, fun _ _ => by rw [run, firstSight, if_neg hseen]⟩

theorem indifferent_bind {check : Check α} {next : α → Check β}
    (h : check.Indifferent file oracles) (hnext : ∀ a, (next a).Indifferent file oracles) :
    (check >>= next).Indifferent file oracles := by
  intro seen
  obtain ⟨result, seen', hrun⟩ := h seen
  cases result with
  | error e =>
    exact ⟨.error e, seen', fun oracle horacle => run_bind_of_error (hrun oracle horacle)⟩
  | ok a =>
    obtain ⟨result, seen'', hrun'⟩ := hnext a seen'
    exact ⟨result, seen'', fun oracle horacle =>
      (run_bind_of_ok (hrun oracle horacle)).trans (hrun' oracle horacle)⟩

/-- A check that looks at the oracle has to go on in the same way with each of them. -/
theorem indifferent_bind_oracle {next : Oracle → Check β} (t : Oracle)
    (h : ∀ oracle ∈ oracles, ∃ t', oracle = some t' ∧ next t' = next t)
    (hnext : (next t).Indifferent file oracles) : (oracle >>= next).Indifferent file oracles := by
  intro seen
  obtain ⟨result, seen', hrun⟩ := hnext seen
  refine ⟨result, seen', fun oracle horacle => ?_⟩
  obtain ⟨t', rfl, ht⟩ := h oracle horacle
  rw [run_bind_of_ok (a := t') rfl, ht, hrun _ horacle]

theorem indifferent_typeAt (t : Oracle) {r : NodeRef}
    (h : ∀ oracle ∈ oracles, ∃ t', oracle = some t' ∧ t'.typeAt? r = t.typeAt? r) :
    (typeAt r).Indifferent file oracles := by
  refine indifferent_bind_oracle t (fun oracle horacle => ?_) (indifferent_orFail _ _)
  obtain ⟨t', rfl, ht⟩ := h oracle horacle
  exact ⟨t', rfl, by rw [ht]⟩

end Check

/-- The checks of the rule do the same with each of the oracles and leave them alone. -/
structure Rule.Indifferent (rule : Rule) (file : SourceFile) (oracles : Set (Option Oracle)) :
    Prop where
  checkFile : rule.checkFile.Indifferent file oracles
  check : ∀ r, (rule.check r).Indifferent file oracles

namespace Visitor

variable {file : SourceFile} {oracles : Set (Option Oracle)}

/-- Work of rules ends in the same way with each of the oracles, leaves them alone, and leaves the
    rules what they are. -/
def RunsAlike {α : Type} (oracles : Set (Option Oracle)) (rulesOf : α → List Rule)
    (before : List Rule)
    (work : Option Oracle → Result (List Diagnostic × α × Option Oracle)) : Prop :=
  (∃ found after, rulesOf after = before ∧
    ∀ oracle ∈ oracles, work oracle = .ok (found, after, oracle)) ∨
  ∃ c, ∀ oracle ∈ oracles, work oracle = .error c

/-- Work that is done in turn ends in the same way if each part does. -/
theorem RunsAlike.bind {α β : Type} {rulesOf : α → List Rule} {rulesOf' : β → List Rule}
    {before before' : List Rule}
    {work : Option Oracle → Result (List Diagnostic × α × Option Oracle)}
    {next : List Diagnostic × α × Option Oracle → Result (List Diagnostic × β × Option Oracle)}
    (h : RunsAlike oracles rulesOf before work)
    (hnext : ∀ found after, rulesOf after = before →
      RunsAlike oracles rulesOf' before' fun oracle => next (found, after, oracle)) :
    RunsAlike oracles rulesOf' before' fun oracle => work oracle >>= next := by
  obtain ⟨found, after, hafter, hwork⟩ | ⟨c, hwork⟩ := h
  · obtain ⟨found', after', hafter', hrest⟩ | ⟨c, hrest⟩ := hnext found after hafter
    · refine .inl ⟨found', after', hafter', fun oracle horacle => ?_⟩
      simp only [hwork oracle horacle]
      exact hrest oracle horacle
    · refine .inr ⟨c, fun oracle horacle => ?_⟩
      simp only [hwork oracle horacle]
      exact hrest oracle horacle
  · refine .inr ⟨c, fun oracle horacle => ?_⟩
    simp only [hwork oracle horacle]
    rfl

theorem runsAlike_ok {α : Type} {rulesOf : α → List Rule} {before : List Rule}
    (found : List Diagnostic) {after : α} (h : rulesOf after = before) :
    RunsAlike oracles rulesOf before fun oracle => .ok (found, after, oracle) :=
  .inl ⟨found, after, h, fun _ _ => rfl⟩

/-- The rules at work. -/
def rulesOf (vs : List Visitor) : List Rule := vs.map (·.rule.rule)

theorem run_alike {check : Check (List Report)} (h : check.Indifferent file oracles) (v : Visitor) :
    RunsAlike oracles (fun v => [v.rule.rule]) [v.rule.rule] (v.run check file) := by
  obtain ⟨result, seen, hrun⟩ := h v.seen
  rcases result with (e | c) | reports
  · exact .inl ⟨[], { v with seen := seen }, rfl, fun oracle horacle => by
      rw [run, hrun oracle horacle]⟩
  · exact .inr ⟨c, fun oracle horacle => by rw [run, hrun oracle horacle]⟩
  · exact .inl ⟨v.rule.findings file reports, { v with seen := seen }, rfl,
      fun oracle horacle => by rw [run, hrun oracle horacle]⟩

theorem repeatRun_alike {check : Check (List Report)} (h : check.Indifferent file oracles)
    (times : Nat) (v : Visitor) :
    RunsAlike oracles (fun v => [v.rule.rule]) [v.rule.rule] (repeatRun check file times v) := by
  induction times generalizing v with
  | zero => exact runsAlike_ok [] rfl
  | succ times ih =>
    refine (run_alike h v).bind fun first v₁ hrule => ?_
    exact (ih v₁).bind fun rest v₂ hrule' => runsAlike_ok _ (hrule'.trans hrule)

theorem runAll_alike (times : Visitor → Nat) {check : Rule → Check (List Report)}
    (hcheck : ∀ rule : Rule, rule.Indifferent file oracles → (check rule).Indifferent file oracles)
    {vs : List Visitor} (hvs : ∀ rule ∈ rulesOf vs, rule.Indifferent file oracles) :
    RunsAlike oracles rulesOf (rulesOf vs) (runAll times check file vs) := by
  induction vs with
  | nil => exact runsAlike_ok [] rfl
  | cons v vs ih =>
    obtain ⟨hv, hvs⟩ := List.forall_mem_cons.mp hvs
    refine (repeatRun_alike (hcheck _ hv) (times v) v).bind fun first v₁ hrule => ?_
    refine (ih hvs).bind fun rest vs₁ hrules => runsAlike_ok _ ?_
    exact congrArg₂ (· ++ ·) hrule hrules

theorem lookAt_alike (file : SourceFile) (oracles : Set (Option Oracle)) (vs : List Visitor)
    (hvs : ∀ rule ∈ rulesOf vs, rule.Indifferent file oracles) :
    RunsAlike oracles rulesOf (rulesOf vs) (lookAt file vs) := by
  revert vs
  refine lookAt_induction (P := fun work => ∀ vs,
    (∀ rule ∈ rulesOf vs, rule.Indifferent file oracles) →
      RunsAlike oracles rulesOf (rulesOf vs) (work vs)) ?_ ?_ ?_ ?_ ?_
  · exact fun vs _ => runsAlike_ok [] rfl
  · intro work next hwork hnext vs hvs
    refine (hwork vs hvs).bind fun here vs₁ hrules => ?_
    refine (hnext vs₁ (hrules.symm ▸ hvs)).bind fun behind vs₂ hrules' => ?_
    exact runsAlike_ok _ (hrules'.trans hrules)
  · exact fun vs => runAll_alike _ fun _ hrule => hrule.checkFile
  · exact fun r _ kind _ vs => runAll_alike _ fun _ hrule => hrule.check r
  · exact fun r _ kind _ vs => runAll_alike _ fun _ hrule => hrule.check r

end Visitor

/-- Rules that do not tell oracles apart end in the same way with each of them. -/
theorem Linter.lookAt_indifferent {l : Linter} {file : SourceFile}
    {oracles : Set (Option Oracle)} (h : ∀ rule ∈ l.rules, rule.rule.Indifferent file oracles) :
    (∃ found vs, ∀ oracle ∈ oracles,
      Visitor.lookAt file l.visitors oracle = .ok (found, vs, oracle)) ∨
    ∃ c, ∀ oracle ∈ oracles, Visitor.lookAt file l.visitors oracle = .error c := by
  have hvs : ∀ rule ∈ Visitor.rulesOf l.visitors, rule.Indifferent file oracles := by
    rw [Visitor.rulesOf, visitors, List.map_map]
    exact List.forall_mem_map.mpr h
  exact (Visitor.lookAt_alike file oracles _ hvs).imp_left fun ⟨found, vs, _, h⟩ => ⟨found, vs, h⟩

end TypeLint
