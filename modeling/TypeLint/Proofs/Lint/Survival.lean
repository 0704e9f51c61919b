import TypeLint.Proofs.Lint.Sources

namespace TypeLint

open Syntax TypeLint.Types

namespace Check

variable {α β : Type} {t : Oracle} {file : SourceFile} {P : α → Prop} {Q : β → Prop}

/-- A check has not crashed, and if it gives a result, the result satisfies a condition. -/
inductive Ended (P : α → Prop) : Except Stop α → Prop where
  | ok {a : α} (h : P a) : Ended P (.ok a)
  | failure (e : RuleFailure) : Ended P (.error (.failure e))

/-- A check of a file does not crash, whatever types have been made before. -/
def Survives (check : Check α) (t : Oracle) (file : SourceFile) (P : α → Prop) : Prop :=
  ∀ m, IsGrown t m.oracle → Ended P (check.run file m).1 ∧ IsGrown t (check.run file m).2.oracle

theorem Survives.imp {P' : α → Prop} {check : Check α} (h : check.Survives t file P)
    (himp : ∀ a, P a → P' a) : check.Survives t file P' := by
  intro m hm
  obtain ⟨hended, hmemory⟩ := h m hm
  refine ⟨?_, hmemory⟩
  generalize (check.run file m).1 = result at hended
  cases hended with
  | ok ha => exact .ok (himp _ ha)
  | failure e => exact .failure e

theorem survives_pure {a : α} (h : P a) : (pure a : Check α).Survives t file P := fun _ hm =>
  ⟨.ok h, hm⟩

theorem survives_fail (e : RuleFailure) : (fail e : Check α).Survives t file P := fun _ hm =>
  ⟨.failure e, hm⟩

theorem survives_bind {check : Check α} {next : α → Check β} (h : check.Survives t file P)
    (hnext : ∀ a, P a → (next a).Survives t file Q) : (check >>= next).Survives t file Q := by
  intro m hm
  obtain ⟨hended, hmemory⟩ := h m hm
  rcases hrun : check.run file m with ⟨result, m'⟩
  rw [hrun] at hended hmemory
  cases hended with
  | ok ha =>
    rw [run_bind_of_ok hrun]
    exact hnext _ ha m' hmemory
  | failure e =>
    rw [run_bind_of_error hrun]
    exact ⟨.failure e, hmemory⟩

theorem survives_lift {result : Result α} (h : ∃ a, result = .ok a) :
    (lift result).Survives t file (result = .ok ·) := by
  obtain ⟨a, rfl⟩ := h
  exact survives_pure rfl

theorem survives_orFail (value : Option α) (e : RuleFailure) :
    (orFail value e).Survives t file (value = some ·) := by
  cases value with
  | none => exact survives_fail e
  | some a => exact survives_pure rfl

theorem survives_file : Check.file.Survives t file (file = ·) := fun _ hm => ⟨.ok rfl, hm⟩

theorem survives_tree : Check.tree.Survives t file (file.tree = ·) := fun _ hm => ⟨.ok rfl, hm⟩

theorem survives_oracle : oracle.Survives t file t.Grown := by
  rintro m ⟨t', ht', hgrown⟩
  simp only [run, oracle, ht']
  exact ⟨.ok hgrown, t', rfl, hgrown⟩

theorem survives_store : store.Survives t file t.store.Extends :=
  survives_bind survives_oracle fun _ h => survives_pure h.store

theorem survives_options : options.Survives t file (t.options = ·) :=
  survives_bind survives_oracle fun _ h => survives_pure h.options_eq.symm

theorem survives_typeAt (h : t.Closed) (r : NodeRef) :
    (typeAt r).Survives t file t.store.Known := by
  refine survives_bind survives_oracle fun t' hgrown => ?_
  rw [hgrown.typeAt?_eq]
  exact (survives_orFail _ _).imp fun id hid => h.typeAt _ _ hid

theorem survives_constrainedTypeAt (h : t.Closed) (r : NodeRef) :
    (constrainedTypeAt r).Survives t file t.store.Known := by
  refine survives_bind survives_oracle fun t' hgrown => ?_
  rw [hgrown.typeAt?_eq]
  refine survives_bind (survives_orFail _ _) fun id hid => survives_pure ?_
  have hknown := h.typeAt _ _ hid
  rw [hgrown.store.baseConstraint_eq h.store hknown]
  exact h.store.known_baseConstraint hknown

theorem survives_ask {question : Store → α × Store} {answer : α}
    (h : t.store.Answers question answer) : (ask question).Survives t file (answer = ·) := by
  rintro m ⟨t', ht', hgrown⟩
  obtain ⟨hanswer, hstore⟩ := h t'.store hgrown.store
  simp only [run, ask, ht']
  exact ⟨.ok hanswer.symm, _, rfl, hgrown.withStore hstore⟩

theorem survives_firstSight (offset : Nat) :
    (firstSight offset).Survives t file fun _ => True := by
  intro m hm
  simp only [run, firstSight]
  split_ifs <;> exact ⟨.ok trivial, hm⟩

/-- A check that goes on alike behind the two branches of a choice. -/
theorem survives_ite_bind {c : Prop} [Decidable c] {yes no : Check α} {next : α → Check β}
    (hyes : yes.Survives t file P) (hno : no.Survives t file P)
    (hnext : ∀ a, P a → (next a).Survives t file Q) :
    (if c then yes >>= next else no >>= next).Survives t file Q := by
  split_ifs
  · exact survives_bind hyes hnext
  · exact survives_bind hno hnext

end Check

/-- What a rule does with a file and with the nodes that it is called for does not crash. -/
structure Rule.Survives (rule : Rule) (t : Oracle) (file : SourceFile) : Prop where
  checkFile : rule.checkFile.Survives t file fun _ => True
  check : ∀ r kind, file.tree.kind? r = some kind → rule.IsCalledFor kind →
    (rule.check r).Survives t file fun _ => True

namespace Visitor

variable {t : Oracle} {file : SourceFile} {v : Visitor} {vs : List Visitor} {oracle : Option Oracle}

theorem exists_repeatRun {check : Check (List Report)} {times : Nat}
    (hcheck : 0 < times → check.Survives t file fun _ => True) (h : IsGrown t oracle) :
    ∃ found v' oracle', repeatRun check file times v oracle = .ok (found, v', oracle') ∧
      v'.rule = v.rule ∧ IsGrown t oracle' := by
  induction times generalizing v oracle with
  | zero => exact ⟨[], v, oracle, rfl, rfl, h⟩
  | succ times ih =>
    have hsurvives := hcheck (Nat.succ_pos times)
    obtain ⟨first, v₁, between, hfirst, hrule, hgrown⟩ : ∃ first v₁ between,
        v.run check file oracle = .ok (first, v₁, between) ∧ v₁.rule = v.rule ∧
          IsGrown t between := by
      obtain ⟨hended, hmemory⟩ := hsurvives ⟨oracle, v.seen⟩ h
      rw [run]
      rcases hrun : check.run file ⟨oracle, v.seen⟩ with ⟨result, m⟩
      rw [hrun] at hended hmemory
      cases hended <;> exact ⟨_, _, _, rfl, rfl, hmemory⟩
    obtain ⟨rest, v₂, last, hrest, hrule', hgrown'⟩ := ih (v := v₁) (fun _ => hsurvives) hgrown
    refine ⟨first ++ rest, v₂, last, ?_, hrule'.trans hrule, hgrown'⟩
    rw [repeatRun, hfirst]
    change repeatRun check file times v₁ between >>= _ = _
    rw [hrest]
    rfl

theorem exists_runAll {times : Visitor → Nat} {check : Rule → Check (List Report)}
    (hcheck : ∀ v ∈ vs, 0 < times v → (check v.rule.rule).Survives t file fun _ => True)
    (h : IsGrown t oracle) :
    ∃ found vs' oracle', runAll times check file vs oracle = .ok (found, vs', oracle') ∧
      rules vs' = rules vs ∧ IsGrown t oracle' := by
  induction vs generalizing oracle with
  | nil => exact ⟨[], [], oracle, rfl, rfl, h⟩
  | cons v vs ih =>
    obtain ⟨hv, hvs⟩ := List.forall_mem_cons.mp hcheck
    obtain ⟨first, v₁, between, hfirst, hrule, hgrown⟩ := exists_repeatRun hv h
    obtain ⟨rest, vs₁, last, hrest, hrules, hgrown'⟩ := ih hvs hgrown
    refine ⟨first ++ rest, v₁ :: vs₁, last, ?_, congrArg₂ List.cons hrule hrules, hgrown'⟩
    rw [runAll, hfirst]
    change runAll times check file vs between >>= _ = _
    rw [hrest]
    rfl

/-- Rules that do not crash look at the whole file. -/
theorem exists_lookAt (hvs : ∀ rule ∈ rules vs, rule.rule.Survives t file) (h : IsGrown t oracle) :
    ∃ found vs' oracle', lookAt file vs oracle = .ok (found, vs', oracle') ∧
      rules vs' = rules vs ∧ IsGrown t oracle' := by
  let Goes (work : Work) : Prop := ∀ vs oracle, (∀ rule ∈ rules vs, rule.rule.Survives t file) →
    IsGrown t oracle → ∃ found vs' oracle', work vs oracle = .ok (found, vs', oracle') ∧
      rules vs' = rules vs ∧ IsGrown t oracle'
  suffices hgoes : Goes (lookAt file) from hgoes vs oracle hvs h
  refine lookAt_induction ?_ ?_ ?_ ?_ ?_
  · exact fun vs oracle _ h => ⟨[], vs, oracle, rfl, rfl, h⟩
  · intro work next hwork hnext vs oracle hvs h
    obtain ⟨here, vs₁, between, hhere, hrules, hgrown⟩ := hwork vs oracle hvs h
    obtain ⟨behind, vs₂, last, hbehind, hrules', hgrown'⟩ := hnext vs₁ between (hrules ▸ hvs) hgrown
    exact ⟨_, vs₂, last, andThen_of_eq_ok hhere hbehind, hrules'.trans hrules, hgrown'⟩
  · exact fun vs oracle hvs h =>
      exists_runAll (fun v hv _ => (hvs _ (rule_mem_rules hv)).checkFile) h
  · exact fun r _ kind hkind vs oracle hvs h => exists_runAll (fun v hv hpos =>
      (hvs _ (rule_mem_rules hv)).check r kind hkind (isCalledFor_of_kindCalls_pos hpos)) h
  · exact fun r _ kind hkind vs oracle hvs h => exists_runAll (fun v hv hpos =>
      (hvs _ (rule_mem_rules hv)).check r kind hkind (isCalledFor_of_nodeCalls_pos hpos kind)) h

end Visitor

/-- Linting with rules that do not crash comes to an end. -/
theorem Linter.exists_lint {l : Linter} {t : Oracle} {file : SourceFile}
    (h : ∀ rule ∈ l.rules, rule.rule.Survives t file) :
    ∃ found oracle, l.lint file (some t) = .ok (.ok (found, oracle)) := by
  have hrules : ∀ rule ∈ Visitor.rules l.visitors, rule.rule.Survives t file := by
    rwa [Visitor.rules_visitors]
  obtain ⟨all, vs, oracle, hall, -⟩ := Visitor.exists_lookAt hrules isGrown_self
  refine ⟨all.mergeSort fun a b => a.start ≤ b.start, oracle, ?_⟩
  rw [lint, if_neg (by simp), hall]
  rfl

end TypeLint
