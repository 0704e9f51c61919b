import TypeLint.Proofs.Lint.Outcomes
import TypeLint.Proofs.Values.Verdicts
import TypeLint.Proofs.Binding.Interned
import TypeLint.Proofs.Program.Built

namespace TypeLint.Types.Store

open Values

/-- No value of the type is `undefined` or `null`. -/
def NeverNullish (s : Store) (id : TypeId) : Prop :=
  ∀ w v, Inhabits w s v id → v.isNullish = false

variable {s : Store} {id part : TypeId}

theorem neverNullish_baseConstraint_iff :
    s.NeverNullish (s.baseConstraint id) ↔ s.NeverNullish id :=
  forall₂_congr fun _ _ => by rw [inhabits_baseConstraint_iff]

theorem neverNullish_iff_unionMembers :
    s.NeverNullish id ↔ ∀ part ∈ s.unionMembers id, s.NeverNullish part := by
  constructor
  · exact fun h part hpart w v hv => h w v (inhabits_iff_unionMembers.mpr ⟨part, hpart, hv⟩)
  · intro h w v hv
    obtain ⟨part, hpart, hv⟩ := inhabits_iff_unionMembers.mp hv
    exact h part hpart w v hv

theorem neverNullish_bounded_iff {name : String} {bound : TypeId}
    (h : s.lookup id = some (.parameter name (some bound))) :
    s.NeverNullish id ↔ s.NeverNullish bound :=
  forall₂_congr fun _ _ => by rw [inhabits_bounded_iff h]

/-- The flags of an overt part of a type tell whether it has nullish values. -/
theorem Normal.neverNullish_of_isOvert (hn : s.Normal) (hnot : s.isNullableLike id = false)
    (hpart : part ∈ s.unionMembers id) (hovert : s.isOvert part = true) : s.NeverNullish part := by
  intro w v hv
  refine Bool.eq_false_iff.mpr fun hnullish => ?_
  have hflags := Bool.eq_false_iff.mpr (List.any_eq_false.mp hnot part hpart)
  rw [Flags.intersects_union, Flags.intersects_union, Bool.or_eq_false_iff,
    Bool.or_eq_false_iff] at hflags
  rcases hn.flagsOf_of_isNullish hpart hovert hv hnullish with hany | ⟨-, hnone⟩ | ⟨-, hnone⟩
  · cases hany.symm.trans hflags.1.1
  · exact absurd (hnone ▸ hflags.1.2) (by decide)
  · exact absurd (hnone ▸ hflags.1.2) (by decide)

/-- What a type that counts as not nullish has of nullish values, its covert parts have. -/
theorem Normal.neverNullish_iff_covert (hn : s.Normal)
    (hnot : s.isNullableLike (s.baseConstraint id) = false) :
    s.NeverNullish id ↔
      ∀ part ∈ s.unionMembers (s.baseConstraint id), s.isOvert part = false →
        s.NeverNullish part := by
  rw [← neverNullish_baseConstraint_iff, neverNullish_iff_unionMembers]
  refine forall₂_congr fun part hpart => ⟨fun h _ => h, fun h => ?_⟩
  cases hovert : s.isOvert part with
  | true => exact hn.neverNullish_of_isOvert hnot hpart hovert
  | false => exact h hovert

end TypeLint.Types.Store

namespace TypeLint.Rules.NonNullAssertion

open Syntax Binding Check Values TypeLint.Types TypeLint.Types.Store

variable {t : Oracle} {f : SourceFile}

/-- An assertion that is no side of a plain assignment, and its operand, the type of which does not
    show that it is nullish. -/
structure Unneeded (t : Oracle) (f : SourceFile) (r operand : NodeRef) (id : TypeId) : Prop where
  asserts : (f.tree.get? r).bind Node.nonNull? = some operand
  notAssigned : assignment? f.tree r = none
  type : t.typeAt? operand = some id
  notShown : t.store.isNullableLike (t.store.baseConstraint id) = false

/-- A report of the message that an assertion does not change the type stands at such an
    assertion. -/
def Located (t : Oracle) (f : SourceFile) (report : Report) : Prop :=
  report.messageId = "unnecessaryAssertion" →
    ∃ r operand id, Unneeded t f r operand id ∧ f.range r = (report.start, report.stop)

theorem mem_reports {r : NodeRef} {message : String} {found : List Report} {report : Report}
    (hfound : reports f r message = .ok found) (h : report ∈ found) :
    report.messageId = message ∧ f.range r = (report.start, report.stop) := by
  rw [reports, ExtraNonNullAssertion.reports] at hfound
  split at hfound
  · cases hfound
  · next hrange =>
    cases hfound
    obtain rfl := List.mem_singleton.mp h
    exact ⟨rfl, hrange⟩

theorem givesOn_reports {r : NodeRef} {message : String}
    (h : message = "unnecessaryAssertion" → ∃ operand id, Unneeded t f r operand id) :
    (Check.lift (reports f r message)).GivesOn t f fun found =>
      ∀ report ∈ found, Located t f report := by
  refine (agree_lift _).givesOn.imp fun found hfound report hreport hmessage => ?_
  obtain ⟨hid, hrange⟩ := mem_reports hfound.1 hreport
  obtain ⟨operand, id, hunneeded⟩ := h (hid.symm.trans hmessage)
  exact ⟨r, operand, id, hunneeded, hrange⟩

theorem givesOn_check (h : t.Closed) (r : NodeRef) :
    (NonNullAssertion.check r).GivesOn t f fun reports =>
      ∀ report ∈ reports, Located t f report := by
  have hnil : ∀ report ∈ ([] : List Report), Located t f report := List.forall_mem_nil _
  have hother : "contextuallyUnnecessary" ≠ "unnecessaryAssertion" := by decide
  refine givesOn_bind agree_file ?_
  rintro _ ⟨rfl, -⟩
  refine givesOn_bind (agree_orFail _ _) ?_
  rintro operand ⟨hoperand, -⟩
  split
  · split_ifs
    · exact givesOn_reports fun heq => absurd heq hother
    · exact givesOn_pure hnil
  · next hassignment =>
    refine givesOn_bind agree_oracle fun t' hgrown => ?_
    refine givesOn_bind_of (agree_constrainedTypeAt h _) (givesOn_constrainedTypeAt h _) ?_
    rintro _ ⟨hknown, -⟩ ⟨id, htype, rfl⟩
    rw [hgrown.1.store.isNullableLike_eq h.store hknown]
    split_ifs with hshown
    · exact givesOn_pure hnil
    · refine givesOn_reports fun _ => ⟨operand, id, ?_⟩
      exact ⟨hoperand, hassignment, htype, by simpa using hshown⟩
    · split
      · exact givesOn_pure hnil
      · split_ifs
        · exact givesOn_reports fun heq => absurd heq hother
        · exact givesOn_pure hnil

/-- Linting finds that an assertion does not change the type of its operand only where no overt
    part of this type has nullish values: the operand cannot be nullish just if none of the covert
    parts, which the rule does not look into, has such values. -/
theorem lint_assertions_unneeded {category : Category} (ht : t.Closed) (hmade : t.store.Made)
    {found : List Diagnostic} {oracle : Option Oracle}
    (hlint : Linter.lint ⟨[⟨rule, category⟩]⟩ f (some t) = .ok (.ok (found, oracle)))
    {d : Diagnostic} (hd : d ∈ found) (hmessage : d.messageId = "unnecessaryAssertion") :
    ∃ r operand id, (f.tree.get? r).bind Node.nonNull? = some operand ∧
      assignment? f.tree r = none ∧ f.range r = (d.start, d.stop) ∧ t.typeAt? operand = some id ∧
      (t.store.NeverNullish id ↔
        ∀ part ∈ t.store.unionMembers (t.store.baseConstraint id), t.store.isOvert part = false →
          t.store.NeverNullish part) := by
  obtain ⟨report, hlocated, rfl⟩ := Linter.exists_report (Rule.Builtin.nonNullAssertion.steady ht)
    (givesOn_pure (List.forall_mem_nil _)) (fun r _ => givesOn_check ht r) hlint hd
  obtain ⟨r, operand, id, hunneeded, hrange⟩ := hlocated hmessage
  exact ⟨r, operand, id, hunneeded.asserts, hunneeded.notAssigned, hrange, hunneeded.type,
    hmade.normal.neverNullish_iff_covert hunneeded.notShown⟩

/-- `const x: U = y; x!;` -/
def asserted : TypeLint.Program :=
  [.statement (.initialized .const "x" (some "U") (.identifier "y")),
    .statement (.expression (.nonNull (.identifier "x")))]

/-- A store with the type `T | string` for a type parameter `T` with a constraint or none. -/
def parameterStore (constraint : Option TypeId) : Store :=
  ((Store.initial.intern (.parameter "T" constraint)).2.union [14, TypeId.string]).2

/-- A table in which this type is called `U`. -/
def parameterTable (constraint : Option TypeId) : TypeTable :=
  TypeTable.defineType { TypeTable.new .strict with store := parameterStore constraint } "U" 15

theorem interned_named {s : Store} (hs : s.Made) {id : TypeId} (hid : s.Known id)
    (name : String) :
    (TypeTable.defineType { TypeTable.new .strict with store := s } name id).Interned :=
  ((TypeTable.interned_new .strict).withStore hs hs.normal.initial).defineType hid name

theorem interned_parameterTable {constraint : Option TypeId}
    (hconstraint : ∀ m ∈ (TypeData.parameter "T" constraint).mentioned, Store.initial.Known m)
    (hmembers : ∀ m ∈ [14, TypeId.string],
      (Store.initial.intern (.parameter "T" constraint)).2.Known m)
    (hunion : (parameterStore constraint).Known 15) : (parameterTable constraint).Interned :=
  interned_named (.union (.intern .initial rfl hconstraint) hmembers) hunion "U"

/-- The assertion of the program and its operand, which has the type `U`. -/
theorem operand_of_asserted {b : Program.Built} (hb : Program.build "a.ts" asserted = .ok b)
    {r operand : NodeRef} (hoperand : (b.file.tree.get? r).bind Node.nonNull? = some operand) :
    r = some 13 ∧ operand = some 11 := by
  have honly := Program.of_build hb (fun b => ∀ i < b.file.tree.size,
    (b.file.tree.get? (some i)).bind Node.nonNull? ≠ none →
      i = 13 ∧ (b.file.tree.get? (some i)).bind Node.nonNull? = some (some 11)) (by decide +kernel)
  obtain ⟨n, hn, -⟩ := Option.bind_eq_some_iff.mp hoperand
  obtain ⟨i, rfl, hi⟩ := Option.bind_eq_some_iff.mp hn
  obtain ⟨rfl, heq⟩ := honly i (Array.getElem?_eq_some_iff.mp hi).1 (by simp [hoperand])
  exact ⟨rfl, Option.some.inj (hoperand.symm.trans heq)⟩

/-- The parameter `T extends number` of `T | string` is covert, but has no nullish values. -/
theorem lint_assertions_unneeded_constrained :
    ∃ b t found oracle d, Program.build "a.ts" asserted = .ok b ∧
      t = (parameterTable (some TypeId.number)).bind b.file ∧ t.oracle.Closed ∧ t.store.Made ∧
      Linter.lint ⟨[⟨rule, .error⟩]⟩ b.file (some t.oracle) = .ok (.ok (found, oracle)) ∧
      d ∈ found ∧
      d.messageId = "unnecessaryAssertion" ∧ (d.start, d.stop) = (16, 18) ∧
      t.typeAt? (some 11) = some 15 ∧ t.store.NeverNullish 15 := by
  have hrun : Linter.messagesWith? ⟨rule, .error⟩ asserted
      (parameterTable (some TypeId.number)).bind = some [("unnecessaryAssertion", 16, 18)] := by
    decide +kernel
  obtain ⟨b, found, oracle, d, hb, hlint, hd, hmessage, hrange⟩ :=
    Linter.exists_of_messagesWith? hrun
  have hinterned : ((parameterTable (some TypeId.number)).bind b.file).Interned :=
    TypeTable.interned_bind (interned_parameterTable (by decide) (by decide)
      (by decide)) b.file
  obtain ⟨r, operand, id, hoperand, -, -, htype, hiff⟩ :=
    lint_assertions_unneeded hinterned.closed.oracle hinterned.made hlint hd hmessage
  obtain ⟨-, rfl⟩ := operand_of_asserted hb hoperand
  obtain ⟨hid, hparts, hovert, hbound, hnumber⟩ := Program.of_build hb (fun b =>
    ((parameterTable (some TypeId.number)).bind b.file).typeAt? (some 11) = some 15 ∧
      ((parameterTable (some TypeId.number)).bind b.file).store.unionMembers
        (((parameterTable (some TypeId.number)).bind b.file).store.baseConstraint 15) =
          [TypeId.string, 14] ∧
      ((parameterTable (some TypeId.number)).bind b.file).store.isOvert TypeId.string = true ∧
      ((parameterTable (some TypeId.number)).bind b.file).store.lookup 14 =
        some (.parameter "T" (some TypeId.number)) ∧
      ((parameterTable (some TypeId.number)).bind b.file).store.lookup TypeId.number =
        some (.intrinsic .number)) (by decide +kernel)
  obtain rfl : id = 15 := Option.some.inj (htype.symm.trans hid)
  refine ⟨b, _, found, oracle, d, hb, rfl, hinterned.closed.oracle, hinterned.made, hlint, hd,
    hmessage, hrange, hid, hiff.mpr fun part hpart hcovert => ?_⟩
  rcases List.mem_pair.mp (hparts ▸ hpart) with rfl | rfl
  · cases hcovert.symm.trans hovert
  · refine (neverNullish_bounded_iff hbound).mpr fun w v hv => ?_
    obtain ⟨value, rfl⟩ := (inhabits_intrinsic_iff hnumber).mp hv
    rfl

/-- An assertion is called unnecessary although its operand is of the type `T | string` for a
    parameter `T` without a constraint, which may stand for `undefined`. -/
theorem lint_assertion_needed :
    ∃ b t found oracle d, Program.build "a.ts" asserted = .ok b ∧
      t = (parameterTable none).bind b.file ∧
      Linter.lint ⟨[⟨rule, .error⟩]⟩ b.file (some t.oracle) = .ok (.ok (found, oracle)) ∧
      d ∈ found ∧
      d.messageId = "unnecessaryAssertion" ∧ b.file.range (some 13) = (d.start, d.stop) ∧
      (b.file.tree.get? (some 13)).bind Node.nonNull? = some (some 11) ∧
      b.file.tree.identifierText? (some 11) = some "x" ∧
      assignment? b.file.tree (some 13) = none ∧ t.typeAt? (some 11) = some 15 ∧
      ∀ w, Inhabits w t.store .undefined 15 := by
  have hrun : Linter.messagesWith? ⟨rule, .error⟩ asserted (parameterTable none).bind =
      some [("unnecessaryAssertion", 16, 18)] := by
    decide +kernel
  obtain ⟨b, found, oracle, d, hb, hlint, hd, hmessage, hrange⟩ :=
    Linter.exists_of_messagesWith? hrun
  obtain ⟨hplace, hoperand, hname, hassignment, htype, hunion, hfree⟩ := Program.of_build hb
    (fun b => b.file.range (some 13) = (16, 18) ∧
      (b.file.tree.get? (some 13)).bind Node.nonNull? = some (some 11) ∧
      b.file.tree.identifierText? (some 11) = some "x" ∧
      (assignment? b.file.tree (some 13)).isNone = true ∧
      ((parameterTable none).bind b.file).typeAt? (some 11) = some 15 ∧
      ((parameterTable none).bind b.file).store.lookup 15 = some (.union [TypeId.string, 14]) ∧
      ((parameterTable none).bind b.file).store.lookup 14 = some (.parameter "T" none))
    (by decide +kernel)
  exact ⟨b, _, found, oracle, d, hb, rfl, hlint, hd, hmessage, hplace.trans hrange.symm, hoperand,
    hname, Option.isNone_iff_eq_none.mp hassignment, htype,
    fun w => .union hunion (List.mem_pair.mpr (.inr rfl)) (.free hfree)⟩

end TypeLint.Rules.NonNullAssertion
