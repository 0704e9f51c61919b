import TypeLint.Proofs.Program.Built
import TypeLint.Proofs.Rules.Survival

namespace TypeLint

open Syntax Binding Check

section

variable {α : Type} {le : α → α → Bool} (htrans : ∀ a b c, le a b → le b c → le a c)
  (htotal : ∀ a b, le a b || le b a)

theorem filter_append_eq_left {as bs : List α} {p : α → Bool} (has : ∀ a ∈ as, p a)
    (hbs : ∀ b ∈ bs, ¬p b) : (as ++ bs).filter p = as := by
  rw [List.filter_append, List.filter_eq_self.mpr has, List.filter_eq_nil_iff.mpr hbs,
    List.append_nil]

include htrans htotal

/-- Sorting keeps the elements that satisfy a condition in the order in which sorting them alone
    puts them. -/
theorem filter_mergeSort (p : α → Bool) (as : List α) :
    (as.mergeSort le).filter p = (as.filter p).mergeSort le := by
  induction as with
  | nil => rw [List.mergeSort_nil, List.filter_nil, List.mergeSort_nil]
  | cons a rest ih =>
    obtain ⟨before, after, hsort, hrest, hbefore⟩ := List.mergeSort_cons htrans htotal a rest
    rw [hrest, List.filter_append] at ih
    rw [hsort, List.filter_append, List.filter_cons, List.filter_cons]
    split_ifs with ha
    · obtain ⟨before', after', hsort', hrest', hbefore'⟩ :=
        List.mergeSort_cons htrans htotal a (rest.filter p)
      -- Both lists are cut in front of the first element that `a` does not come behind.
      have hafter : ∀ b ∈ after, ¬(!le a b) := fun b hb => by
        have hsorted := List.pairwise_mergeSort htrans htotal (a :: rest)
        rw [hsort, List.pairwise_append, List.pairwise_cons] at hsorted
        simpa using hsorted.2.1.1 b hb
      have hafter' : ∀ b ∈ after', ¬(!le a b) := fun b hb => by
        have hsorted := List.pairwise_mergeSort htrans htotal (a :: rest.filter p)
        rw [hsort', List.pairwise_append, List.pairwise_cons] at hsorted
        simpa using hsorted.2.1.1 b hb
      have hcut := ih.trans hrest'
      have heq : before.filter p = before' := by
        rw [← filter_append_eq_left hbefore' hafter', ← hcut]
        exact (filter_append_eq_left (fun b hb => hbefore b (List.mem_of_mem_filter hb))
          fun b hb => hafter b (List.mem_of_mem_filter hb)).symm
      rw [heq] at hcut ⊢
      rw [hsort', List.append_cancel_left hcut]
    · exact ih

end

theorem Diagnostic.start_le_trans (a b c : Diagnostic) :
    decide (a.start ≤ b.start) → decide (b.start ≤ c.start) → decide (a.start ≤ c.start) := by
  simp only [decide_eq_true_eq]
  exact Nat.le_trans

theorem Diagnostic.start_le_total (a b : Diagnostic) :
    decide (a.start ≤ b.start) || decide (b.start ≤ a.start) := by
  simpa using Nat.le_total a.start b.start

variable {t : Oracle} {file : SourceFile}

namespace Linter

/-- How linting ends: with what is found, with an error or with a crash. -/
def outcome (l : Linter) (file : SourceFile) (oracle : Option Oracle) :
    Result (Except LintError (List Diagnostic)) :=
  (l.lint file oracle).map (·.map Prod.fst)

theorem outcome_of_lint {l : Linter} {oracle oracle' : Option Oracle} {found : List Diagnostic}
    (h : l.lint file oracle = .ok (.ok (found, oracle'))) :
    l.outcome file oracle = .ok (.ok found) := by
  rw [outcome, h]
  rfl

theorem lint_of_outcome {l : Linter} {oracle : Option Oracle} {found : List Diagnostic}
    (h : l.outcome file oracle = .ok (.ok found)) :
    ∃ after, l.lint file oracle = .ok (.ok (found, after)) := by
  rw [outcome] at h
  rcases hlint : l.lint file oracle with c | e | ⟨found', after⟩ <;> rw [hlint] at h <;> cases h
  exact ⟨after, rfl⟩

/-- With types at hand linting gives what is found if the rules come to an end. -/
theorem outcome_iff {l : Linter} {oracle : Option Oracle} (horacle : IsGrown t oracle) :
    (∃ found, l.outcome file oracle = .ok (.ok found)) ↔
      ∃ x, Visitor.lookAt file l.visitors oracle = .ok x := by
  rw [outcome, lint_eq (.inl horacle.isSome)]
  cases Visitor.lookAt file l.visitors oracle with
  | error c => exact ⟨fun ⟨_, h⟩ => (nomatch h), fun ⟨_, h⟩ => (nomatch h)⟩
  | ok x => exact ⟨fun _ => ⟨x, rfl⟩, fun _ => ⟨_, rfl⟩⟩

/-- Types that have been made before change nothing about how linting ends. -/
theorem outcome_congr {l : Linter} {oracle oracle' : Option Oracle}
    (hl : ∀ rule ∈ l.rules, rule.rule.Steady t file) (horacle : IsGrown t oracle)
    (horacle' : IsGrown t oracle') : l.outcome file oracle = l.outcome file oracle' := by
  have hsame := (Visitor.separate_lookAt t file).same ((Visitor.rules_visitors l).symm ▸ hl)
    horacle horacle'
  rw [outcome, outcome, lint_eq (.inl horacle.isSome), lint_eq (.inl horacle'.isSome)]
  generalize Visitor.lookAt file l.visitors oracle = x at hsame
  generalize Visitor.lookAt file l.visitors oracle' = x' at hsame
  cases hsame <;> rfl

/-- What a rule finds among others is what it finds alone. -/
theorem outcome_single {l : Linter} (hl : Visitor.Apart t file l.visitors) {all : List Diagnostic}
    {vs : List Visitor} {oracle' : Option Oracle}
    (hall : Visitor.lookAt file l.visitors (some t) = .ok (all, vs, oracle'))
    {rule : ConfiguredRule} (hrule : rule ∈ l.rules) :
    Linter.outcome ⟨[rule]⟩ file (some t) = .ok (.ok
      ((all.filter (·.rule == rule.rule.info.name)).mergeSort fun a b => a.start ≤ b.start)) := by
  have hshares := Visitor.forall_of_forall₂
    ((Visitor.separate_lookAt t file).alone hl isGrown_self hall)
    (P := fun v => ∃ vs oracle, Visitor.lookAt file [v] (some t) =
      .ok (all.filter (·.rule == v.name), vs, oracle))
    fun v v' ⟨oracle, halone⟩ => ⟨[v'], oracle, halone⟩
  obtain ⟨vs', oracle, halone⟩ := hshares ⟨rule, []⟩ (List.mem_map_of_mem hrule)
  exact outcome_of_lint (lint_of_lookAt (l := ⟨[rule]⟩) (.inl rfl) halone)

/-- The rules of the linter are made by the registry. -/
def OfLibrary (l : Linter) : Prop :=
  ∀ rule ∈ l.rules, ∃ name options, Registry.builtin.create name options = .ok rule.rule

variable {l : Linter}

theorem OfLibrary.builtin (hl : l.OfLibrary) (rule : ConfiguredRule) (hrule : rule ∈ l.rules) :
    rule.rule.Builtin := by
  obtain ⟨name, options, hcreate⟩ := hl rule hrule
  exact Registry.builtin_of_create hcreate

theorem OfLibrary.apart (hl : l.OfLibrary) (hnames : l.ruleNames.Nodup) (ht : t.Closed)
    (file : SourceFile) : Visitor.Apart t file l.visitors where
  names := by
    rw [visitors, List.map_map]
    exact hnames
  steady rule hrule := (hl.builtin rule (Visitor.rules_visitors l ▸ hrule)).steady ht

/-- Linting with rules of the library gives what they find if nothing of what they cannot cope with
    stands in the file or in the store. -/
theorem OfLibrary.exists_outcome (hl : l.OfLibrary) (ht : t.Closed) (hstore : t.store.Grounded)
    (hfile : file.Divisible) (htree : file.tree.Grounded) :
    ∃ found, l.outcome file (some t) = .ok (.ok found) := by
  obtain ⟨found, after, h⟩ := exists_lint fun rule hrule =>
    (hl.builtin rule hrule).survives ht hstore hfile htree
  exact ⟨found, outcome_of_lint h⟩

/-- What a rule of the library reports among others is what it reports alone. -/
theorem OfLibrary.outcome_alone (hl : l.OfLibrary) (hnames : l.ruleNames.Nodup) (ht : t.Closed)
    {found : List Diagnostic} {after : Option Oracle}
    (h : l.lint file (some t) = .ok (.ok (found, after))) {rule : ConfiguredRule}
    (hrule : rule ∈ l.rules) : Linter.outcome ⟨[rule]⟩ file (some t) =
      .ok (.ok (found.filter (·.rule == rule.rule.info.name))) := by
  obtain ⟨all, vs, hall, rfl⟩ := lint_eq_ok h
  rw [filter_mergeSort Diagnostic.start_le_trans Diagnostic.start_le_total,
    outcome_single (hl.apart hnames ht file) hall hrule]

/-- Linting with rules of the library comes to an end exactly if it does with each of them alone. It
    does if the comments and the assertions of the file can be taken apart, no node refers back to
    itself, and no union is a member of itself. Then what the rules report is sorted by its start,
    and what a rule reports among others is what it reports alone. However linting ends, it ends in
    the same way after the file has been linted before. -/
theorem lint_noninterference (hl : l.OfLibrary) (hnames : l.ruleNames.Nodup) (file : SourceFile)
    {t : Oracle} (ht : t.Closed) :
    ((∃ found, l.outcome file (some t) = .ok (.ok found)) ↔
      ∀ rule ∈ l.rules, ∃ found, Linter.outcome ⟨[rule]⟩ file (some t) = .ok (.ok found)) ∧
    (file.Divisible → file.tree.Grounded → t.store.Grounded →
      ∃ found, l.outcome file (some t) = .ok (.ok found)) ∧
    (∀ found after, l.lint file (some t) = .ok (.ok (found, after)) →
      IsGrown t after ∧ found.Pairwise (fun d d' => d.start ≤ d'.start) ∧
      (∀ d ∈ found, ∃ rule ∈ l.rules, rule.ReportsIn t file d) ∧
      ∀ rule ∈ l.rules, Linter.outcome ⟨[rule]⟩ file (some t) =
        .ok (.ok (found.filter (·.rule == rule.rule.info.name)))) ∧
    ∀ earlier : Linter, earlier.OfLibrary → earlier.ruleNames.Nodup → ∀ found between,
      earlier.lint file (some t) = .ok (.ok (found, between)) →
        l.outcome file between = l.outcome file (some t) := by
  have hapart := hl.apart hnames ht file
  have hseparate := Visitor.separate_lookAt t file
  have hsteady (l : Linter) (hl : l.OfLibrary) : ∀ rule ∈ l.rules, rule.rule.Steady t file :=
    fun rule hrule => (hl.builtin rule hrule).steady ht
  have hgrown {l : Linter} (hl : l.OfLibrary) {found : List Diagnostic} {after : Option Oracle}
      (h : l.lint file (some t) = .ok (.ok (found, after))) : IsGrown t after := by
    obtain ⟨all, vs, hall, -⟩ := lint_eq_ok h
    have hrules := (Visitor.rules_visitors l).symm ▸ hsteady l hl
    exact ((hseparate.same hrules isGrown_self isGrown_self).eq_ok hall).1
  refine ⟨?_, fun hfile htree hstore => hl.exists_outcome ht hstore hfile htree,
    fun found after h => ?_, fun earlier hearlier _ found between h => ?_⟩
  · rw [outcome_iff isGrown_self, hseparate.returns hapart isGrown_self]
    refine List.forall_mem_map.trans (forall₂_congr fun rule _ => ?_)
    exact (outcome_iff (l := ⟨[rule]⟩) isGrown_self).symm
  · obtain ⟨all, vs, hall, rfl⟩ := lint_eq_ok h
    refine ⟨hgrown hl h, ?_, fun d hd => ?_, fun rule hrule => hl.outcome_alone hnames ht h hrule⟩
    · exact List.Pairwise.imp of_decide_eq_true
        (List.pairwise_mergeSort Diagnostic.start_le_trans Diagnostic.start_le_total all)
    · have hreports := hseparate.reports hapart.steady isGrown_self hall
      rw [Visitor.rules_visitors] at hreports
      exact hreports d (List.mem_mergeSort.mp hd)
  · exact outcome_congr (hsteady l hl) (hgrown hearlier h) isGrown_self

end Linter

namespace Binding.TypeTable

open TypeLint.Types

theorem closed_new (options : CompilerOptions) : (new options).Closed where
  store := Store.closed_initial
  nodeTypes _ hentry := nomatch hentry
  typeNodeTypes _ hentry := nomatch hentry
  contextualTypes _ hentry := nomatch hentry

/-- A table with nothing but types of nodes is closed if they are known. -/
theorem closed_of_nodeTypes {s : Store} (hs : s.Closed) {nodeTypes : NodeMap TypeId}
    (h : ∀ entry ∈ nodeTypes, s.Known entry.2) (options : CompilerOptions) :
    Closed { new options with store := s, nodeTypes := nodeTypes } where
  store := hs
  nodeTypes := h
  typeNodeTypes _ hentry := nomatch hentry
  contextualTypes _ hentry := nomatch hentry

theorem Closed.setType {t : TypeTable} (h : t.Closed) (r : NodeRef) {id : TypeId}
    (hid : t.store.Known id) : (t.setType r id).Closed :=
  { h with nodeTypes := List.forall_mem_cons.mpr ⟨hid, h.nodeTypes⟩ }

end Binding.TypeTable

/-- The rules about non-null assertions. -/
def assertionRules : Linter :=
  ⟨[⟨Rules.ExtraNonNullAssertion.rule, .warning⟩, ⟨Rules.NonNullAssertion.rule, .error⟩]⟩

/-- A value that is asserted twice. -/
def twice : TypeLint.Program :=
  [.statement (.expression (.nonNull (.nonNull (.identifier "x"))))]

/-- A table that knows the type of the inner assertion. -/
def stringTable : TypeTable := (TypeTable.new .strict).setType (some 2) Types.TypeId.string

theorem assertionRules_ofLibrary : assertionRules.OfLibrary := by
  rintro _ (_ | ⟨_, _ | ⟨_, ⟨⟩⟩⟩)
  · exact ⟨"no-extra-non-null-assertion", .null, rfl⟩
  · exact ⟨"no-unnecessary-non-null-assertion", .null, rfl⟩

theorem Linter.lint_noninterference_twice :
    ∃ b, Program.build "a.ts" twice = .ok b ∧ assertionRules.OfLibrary ∧
      assertionRules.ruleNames.Nodup ∧ stringTable.oracle.Closed ∧ b.file.Divisible ∧
      b.file.tree.Grounded ∧ stringTable.store.Grounded ∧
      ∃ found after,
        assertionRules.lint b.file (some stringTable.oracle) = .ok (.ok (found, after)) ∧
        found.length = 2 ∧ found.Pairwise (fun d d' => d.start ≤ d'.start) ∧
        (∀ rule ∈ assertionRules.rules,
          Linter.outcome ⟨[rule]⟩ b.file (some stringTable.oracle) =
            .ok (.ok (found.filter (·.rule == rule.rule.info.name)))) ∧
        assertionRules.outcome b.file after = .ok (.ok found) := by
  have hnames : assertionRules.ruleNames.Nodup := by decide
  have ht : stringTable.oracle.Closed := ((TypeTable.closed_new _).setType _ (by decide)).oracle
  have hstore : stringTable.store.Grounded := Types.Store.ordered_initial.grounded
  have hp : Program.Disciplined twice := by decide
  obtain ⟨b, hbuild⟩ : ∃ b, Program.build "a.ts" twice = .ok b :=
    Program.exists_build _ (by decide +kernel)
  have hf := (Program.shown_of_build hbuild).1
  obtain ⟨-, hreturns, hgives, hagain⟩ :=
    lint_noninterference assertionRules_ofLibrary hnames b.file ht
  obtain ⟨found, hfound⟩ := hreturns (hf.divisible hp) (hf.grounded hp) hstore
  obtain ⟨after, hlint⟩ := lint_of_outcome hfound
  obtain ⟨-, hsorted, -, halone⟩ := hgives found after hlint
  have hlength : ((Program.build "a.ts" twice).toOption.map fun b =>
      (Visitor.lookAt b.file assertionRules.visitors (some stringTable.oracle)).toOption.map
        fun x => x.1.length) = some (some 2) := by
    decide +kernel
  obtain ⟨all, vs, hall, rfl⟩ := lint_eq_ok hlint
  rw [hbuild] at hlength
  simp only [Except.toOption, Option.map_some, hall, Option.some.injEq] at hlength
  exact ⟨b, hbuild, assertionRules_ofLibrary, hnames, ht, hf.divisible hp, hf.grounded hp, hstore,
    _, after, hlint, (List.mergeSort_perm _ _).length_eq.trans hlength, hsorted, halone,
    (hagain assertionRules assertionRules_ofLibrary hnames _ after hlint).trans hfound⟩

/-- The end of a file behind a comment with a character of two bytes, the second of which is taken
    for the end. -/
def splitTree : Tree :=
  let t := (Tree.empty.add .endOfFileToken 0 0 3 4 [] .empty).2
  (t.add .sourceFile 0 0 0 4 [some 0] (.block [])).2

/-- A condition in parentheses that hold themselves. -/
def circularTree : Tree :=
  let t := (Tree.empty.add .parenthesizedExpression 0 0 0 0 [] (.wrapped (some 0))).2
  let t := (t.add .ifStatement 0 0 0 0 [some 0] (.ifStatement ⟨some 0, none, none⟩)).2
  (t.add .sourceFile 0 0 0 0 [some 1] (.block [some 1])).2

/-- Linting does not always come to an end: it panics at a comment that ends inside of a character,
    and it never leaves parentheses that hold themselves. -/
theorem Linter.lint_noninterference_crashes :
    ∃ t : Oracle, t.Closed ∧
      (∃ file, SourceFile.ofTree "a.ts" "//é" splitTree (some 1) = .ok file ∧
        Linter.outcome ⟨[⟨Rules.SuppressionComment.rule, .warning⟩]⟩ file (some t) =
          .error .panic) ∧
      ∃ file, SourceFile.ofTree "a.ts" "" circularTree (some 2) = .ok file ∧
        Linter.outcome ⟨[⟨Rules.Condition.rule .default, .warning⟩]⟩ file (some t) =
          .error .endless := by
  refine ⟨(TypeTable.new .strict).oracle, (TypeTable.closed_new .strict).oracle, ⟨_, rfl, ?_⟩,
    ⟨_, rfl, ?_⟩⟩
  · decide
  · decide

end TypeLint
