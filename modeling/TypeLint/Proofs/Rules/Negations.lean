import TypeLint.Proofs.Lint.Outcomes
import TypeLint.Proofs.Program.WellFormed
import TypeLint.Proofs.Binding.Interned
import TypeLint.Proofs.Types.Canonical
import TypeLint.Proofs.Values.Verdicts
import TypeLint.Proofs.Syntax.Acyclic
import TypeLint.Proofs.Syntax.Parentheses
import TypeLint.Proofs.Rules.Survival

namespace TypeLint.Types.Store

variable {s : Store} {id part : TypeId}

theorem Canonical.unionMembers_ne_nil (h : s.Canonical) (id : TypeId) :
    s.unionMembers id ≠ [] := by
  rw [unionMembers]
  split
  · next members hdata =>
    rintro rfl
    exact absurd (h.reduced .union id [] hdata).several (by decide)
  · exact List.cons_ne_nil _ _

/-- A part of which every value counts as false is no true literal, and its flags tell of such
    values. -/
theorem possiblyFalsy_of_isFalsy (hfalsy : s.isFalsy part = true) :
    s.isTruthyLiteral part = false ∧ (s.flagsOf part).intersects .possiblyFalsy = true := by
  rw [isFalsy] at hfalsy
  split_ifs at hfalsy with hflags
  · rcases lookup_of_flagsOf hflags with hdata | hdata | hdata <;>
      exact ⟨by rw [isTruthyLiteral, literalValue?, hdata]; rfl,
        by rw [flagsOf_of_isBasic hdata rfl]; decide⟩
  · obtain ⟨value, hvalue, hnot⟩ : ∃ value, s.literalValue? part = some value ∧
        value.isTruthy = false := by
      cases hvalue : s.literalValue? part with
      | none => simp [hvalue] at hfalsy
      | some value => exact ⟨value, rfl, by simpa [hvalue] using hfalsy⟩
    refine ⟨by rw [isTruthyLiteral, hvalue]; exact hnot, ?_⟩
    rw [literalValue?] at hvalue
    split at hvalue
    · next hdata =>
      rw [flagsOf_of_isBasic hdata rfl]
      exact (LiteralValue.flags_intersects_possiblyFalsy _).1
    · next hdata =>
      rw [flagsOf_of_isBasic hdata rfl]
      exact (LiteralValue.flags_intersects_possiblyFalsy _).2
    · cases hvalue

/-- A type that is never true may be false. -/
theorem Canonical.isPossiblyFalsy (h : s.Canonical) (hnot : s.isPossiblyTruthy id = false) :
    s.isPossiblyFalsy id = true := by
  obtain ⟨part, hpart⟩ := List.exists_mem_of_ne_nil _ (h.unionMembers_ne_nil id)
  have hsome := List.any_eq_false.mp hnot part hpart
  rw [Bool.not_eq_true, List.all_eq_false] at hsome
  obtain ⟨m, hm, hfalsy⟩ := hsome
  rw [Bool.not_eq_true, Bool.not_eq_false'] at hfalsy
  obtain ⟨hliteral, hflags⟩ := possiblyFalsy_of_isFalsy hfalsy
  refine List.any_eq_true.mpr ⟨m, List.mem_filter.mpr ⟨?_, by rw [hliteral]; rfl⟩, hflags⟩
  exact List.mem_flatMap.mpr ⟨part, hpart, hm⟩

end TypeLint.Types.Store

namespace TypeLint.Rules.Condition

open Syntax Binding Check MemberNullability TypeLint.Types TypeLint.Types.Store

/-- The expression is the identifier under a number of negations, with any number of parentheses
    around the identifier and around each negation. -/
inductive Negates (t : Tree) (x : NodeRef) : Nat → NodeRef → Prop where
  | identifier (h : t.kind? x = some .identifier) : Negates t x 0 x
  | paren {k : Nat} {r inner : NodeRef} (hinner : (t.get? r).bind Node.parenthesized? = some inner)
      (h : Negates t x k inner) : Negates t x k r
  | negation {k : Nat} {r operand : NodeRef} (hoperand : (t.get? r).bind negated? = some operand)
      (h : Negates t x k operand) : Negates t x (k + 1) r

/-- The expression is the identifier, or a negation of such an expression, without parentheses. -/
inductive Bare (t : Tree) (x : NodeRef) : Nat → NodeRef → Prop where
  | identifier (h : t.kind? x = some .identifier) : Bare t x 0 x
  | negation {k : Nat} {r operand : NodeRef} (hoperand : (t.get? r).bind negated? = some operand)
      (h : Negates t x k operand) : Bare t x (k + 1) r

/-- The expression inside parentheses, or the operand of a negation. -/
def inside? (n : Node) : Option NodeRef := n.parenthesized?.or (negated? n)

/-- The identifier stands a number of parentheses and negations deep in the expression. -/
inductive Lies (t : Tree) (x : NodeRef) : Nat → NodeRef → Prop where
  | here (h : t.kind? x = some .identifier) : Lies t x 0 x
  | inside {m : Nat} {r inner : NodeRef} (hinner : (t.get? r).bind inside? = some inner)
      (h : Lies t x m inner) : Lies t x (m + 1) r

variable {t : Tree} {x r inner : NodeRef} {k m : Nat} {n : Node}

theorem kind_of_parenthesized? (h : n.parenthesized? = some inner) :
    n.kind = .parenthesizedExpression := by
  rw [Node.parenthesized?, Node.wrapped?] at h
  split at h
  · split_ifs at h with hkind
    exact hkind
  · cases h

theorem kind_of_negated? (h : negated? n = some inner) : n.kind = .prefixUnaryExpression := by
  obtain ⟨u, -, h⟩ := Option.bind_eq_some_iff.mp h
  split_ifs at h with hkind
  simp only [Bool.and_eq_true, decide_eq_true_eq] at hkind
  exact hkind.1

theorem parenthesized?_eq_none (h : n.kind ≠ .parenthesizedExpression) : n.parenthesized? = none :=
  Option.eq_none_iff_forall_ne_some.mpr fun _ hinner => h (kind_of_parenthesized? hinner)

theorem negated?_eq_none (h : n.kind ≠ .prefixUnaryExpression) : negated? n = none :=
  Option.eq_none_iff_forall_ne_some.mpr fun _ hoperand => h (kind_of_negated? hoperand)

theorem inside?_of_parenthesized? (h : n.parenthesized? = some inner) : inside? n = some inner := by
  rw [inside?, h]
  rfl

theorem inside?_of_negated? (h : negated? n = some inner) : inside? n = some inner := by
  rw [inside?, parenthesized?_eq_none (by rw [kind_of_negated? h]; decide), h]
  rfl

theorem inside?_of_identifier (h : n.kind = .identifier) : inside? n = none := by
  rw [inside?, parenthesized?_eq_none (by rw [h]; decide), negated?_eq_none (by rw [h]; decide)]
  rfl

/-- How deep the identifier lies is settled by the expression. -/
theorem Lies.unique (h : Lies t x m r) {m' : Nat} (h' : Lies t x m' r) : m = m' := by
  have hend (hkind : t.kind? x = some .identifier) : (t.get? x).bind inside? = none := by
    obtain ⟨n, hn, hkind⟩ := Option.map_eq_some_iff.mp hkind
    rw [hn, Option.bind_some, inside?_of_identifier hkind]
  induction h generalizing m' with
  | here hkind =>
    cases h' with
    | here _ => rfl
    | inside hinner _ => cases (hend hkind).symm.trans hinner
  | inside hinner _ ih =>
    cases h' with
    | here hkind => cases (hend hkind).symm.trans hinner
    | inside hinner' h' =>
      cases hinner.symm.trans hinner'
      exact congrArg (· + 1) (ih h')

theorem Lies.exists_place (h : Lies t x m r) : ∃ i : Fin t.size, r = some i.val := by
  have hnode : ∃ n, t.get? r = some n := by
    cases h with
    | here hkind => exact (Option.map_eq_some_iff.mp hkind).imp fun _ hn => hn.1
    | inside hinner _ => exact (Option.bind_eq_some_iff.mp hinner).imp fun _ hn => hn.1
  obtain ⟨n, hn⟩ := hnode
  obtain ⟨i, rfl, hi⟩ := Tree.exists_of_get? hn
  exact ⟨⟨i, hi⟩, rfl⟩

/-- On the way to the identifier there is an expression for each smaller depth. -/
theorem Lies.exists_of_le (h : Lies t x m r) {j : Nat} (hj : j ≤ m) :
    ∃ i : Fin t.size, Lies t x j (some i.val) := by
  have hself {m : Nat} {r : NodeRef} (h : Lies t x m r) :
      ∃ i : Fin t.size, Lies t x m (some i.val) := by
    obtain ⟨i, rfl⟩ := h.exists_place
    exact ⟨i, h⟩
  induction h with
  | here hkind => exact Nat.le_zero.mp hj ▸ hself (.here hkind)
  | inside hinner h ih =>
    rcases Nat.le_succ_iff.mp hj with hj | rfl
    · exact ih hj
    · exact hself (h.inside hinner)

/-- The expressions on the way to the identifier are different nodes, so the way is shorter than
    the tree is large. -/
theorem Lies.lt_size (h : Lies t x m r) : m < t.size := by
  choose place hplace using fun j : Fin (m + 1) => h.exists_of_le (Nat.lt_succ_iff.mp j.isLt)
  have hinjective : Function.Injective place := fun j j' heq =>
    Fin.ext ((hplace j).unique (heq ▸ hplace j'))
  have hcard := Fintype.card_le_of_injective place hinjective
  rwa [Fintype.card_fin, Fintype.card_fin] at hcard

/-- The way inwards leads to the identifier, and no negation on it is left out. -/
theorem Negates.exists_lies (h : Negates t x k r) : ∃ m, k ≤ m ∧ Lies t x m r := by
  induction h with
  | identifier hkind => exact ⟨0, le_refl 0, .here hkind⟩
  | paren hinner _ ih =>
    obtain ⟨m, hle, hlies⟩ := ih
    obtain ⟨n, hn, hparen⟩ := Option.bind_eq_some_iff.mp hinner
    exact ⟨m + 1, Nat.le_succ_of_le hle,
      .inside (by rw [hn, Option.bind_some, inside?_of_parenthesized? hparen]) hlies⟩
  | negation hoperand _ ih =>
    obtain ⟨m, hle, hlies⟩ := ih
    obtain ⟨n, hn, hnegated⟩ := Option.bind_eq_some_iff.mp hoperand
    exact ⟨m + 1, Nat.succ_le_succ hle,
      .inside (by rw [hn, Option.bind_some, inside?_of_negated? hnegated]) hlies⟩

/-- The parentheses around the expression lead to the identifier or to a negation. -/
theorem Negates.exists_bare (h : Negates t x k r) :
    ∃ r', t.skipParentheses r = .ok r' ∧ Bare t x k r' := by
  induction h with
  | identifier hkind =>
    obtain ⟨n, hn, hidentifier⟩ := Option.map_eq_some_iff.mp hkind
    exact ⟨_, Tree.skipParentheses_of_eq_none (by
      rw [hn, Option.bind_some, parenthesized?_eq_none (by rw [hidentifier]; decide)]),
      .identifier hkind⟩
  | paren hinner _ ih =>
    rw [Tree.skipParentheses_of_encloses hinner]
    exact ih
  | negation hoperand h _ =>
    obtain ⟨n, hn, hnegated⟩ := Option.bind_eq_some_iff.mp hoperand
    exact ⟨_, Tree.skipParentheses_of_eq_none (by
      rw [hn, Option.bind_some, parenthesized?_eq_none (by rw [kind_of_negated? hnegated]; decide)]),
      .negation hoperand h⟩

theorem Negates.kind_eq (h : Negates t x k r) : t.kind? x = some .identifier := by
  induction h with
  | identifier h => exact h
  | paren _ _ ih => exact ih
  | negation _ _ ih => exact ih

theorem Negates.isSome (h : Negates t x k r) : r.isSome = true := by
  obtain ⟨m, -, hlies⟩ := h.exists_lies
  obtain ⟨i, rfl⟩ := hlies.exists_place
  rfl

theorem Negates.lt_size (h : Negates t x k r) : k < t.size := by
  obtain ⟨m, hle, hlies⟩ := h.exists_lies
  exact lt_of_le_of_lt hle hlies.lt_size

/-- The union part is none of `any`, `unknown` and `never`, and no type parameter. -/
def isJudged (s : Store) (part : TypeId) : Bool :=
  match s.lookup part with
  | some (.intrinsic .any) | some (.intrinsic .unknown) | some (.intrinsic .never)
  | some (.parameter _ _) => false
  | _ => true

section

variable {s : Store} {id part : TypeId}

theorem flagsOf_of_isJudged (h : isJudged s part = true) :
    (s.flagsOf part).intersects (unjudged ∪ .never) = false := by
  rw [isJudged] at h
  cases hdata : s.lookup part with
  | none =>
    rw [flagsOf, hdata]
    dsimp only
    decide
  | some data =>
    rw [hdata] at h
    cases data with
    | intrinsic kind =>
      rw [flagsOf_of_isBasic hdata rfl]
      revert h
      cases kind <;> decide
    | literal value =>
      rw [flagsOf_of_isBasic hdata rfl]
      cases value <;> (simp only [TypeData.flags, LiteralValue.flags]; decide)
    | enumLiteral enumName member value =>
      rw [flagsOf_of_isBasic hdata rfl]
      cases value <;> (simp only [TypeData.flags, LiteralValue.flags]; decide)
    | parameter name constraint => cases h
    | union members =>
      rw [flagsOf, hdata]
      dsimp only
      split_ifs <;> decide
    | _ =>
      rw [flagsOf, hdata]
      simp only [TypeData.flags]
      decide

variable (h : ∀ part ∈ s.unionMembers id, isJudged s part = true)

include h

theorem baseConstraint_of_isJudged : s.baseConstraint id = id := by
  have hnone : s.constraint? id = none := by
    rw [constraint?]
    split
    · next name constraint hdata =>
      have hself := h id (by rw [unionMembers, hdata]; exact List.mem_singleton_self id)
      rw [isJudged, hdata] at hself
      cases hself
    · rfl
  rw [baseConstraint, constraintSteps, constraintAfter, hnone]

/-- The verdict on a type that is judged follows from whether it may count as true or as false. -/
theorem truthVerdict?_of_isJudged (negated : Bool) :
    truthVerdict? s negated id =
      if !s.isPossiblyTruthy id then some (if negated then "alwaysTruthy" else "alwaysFalsy")
      else if !s.isPossiblyFalsy id then some (if negated then "alwaysFalsy" else "alwaysTruthy")
      else none := by
  have hflags : s.hasFlag id (unjudged ∪ .never) = false :=
    List.any_eq_false.mpr fun part hpart => by simp [flagsOf_of_isJudged (h part hpart)]
  rw [hasFlag_union, Bool.or_eq_false_iff] at hflags
  rw [truthVerdict?, hflags.1, hflags.2, if_neg Bool.false_ne_true, if_neg Bool.false_ne_true]

end

section

variable {f : SourceFile} {t : Oracle} {id : TypeId} {c : NodeRef}

theorem returns_readsIndex {n : Node} (hn : f.tree.get? r = some n)
    (hkind : n.kind ≠ .elementAccessExpression) : (readsIndex r).Returns f t false := by
  refine returns_bind returns_tree ?_
  have hnone : elementAccess? f.tree r = none := by
    rw [elementAccess?, hn]
    exact if_neg hkind
  rw [hnone]
  exact returns_pure false

theorem logicalRight?_eq_none {n : Node} (h : n.kind = .identifier) : logicalRight? n = none := by
  have hbinary : n.binary? = none := by
    rw [Node.binary?, Node.payload?]
    split_ifs with hfits
    · split
      · next b heq =>
        rw [Option.some.inj heq, h] at hfits
        cases hfits
      · rfl
    · rfl
  rw [logicalRight?, hbinary]
  rfl

/-- The verdict is the one of a single negation if there are any. -/
theorem Negates.returns_checkConditionTo {k : Nat} {r : NodeRef} (h : Negates f.tree x k r)
    (htype : t.typeAt? x = some id) {depth : Nat} (hdepth : k < depth) (negated : Bool) :
    (checkConditionTo depth r negated).Returns f t
      (reportAt f x (truthVerdict? t.store (negated || k != 0) (t.store.baseConstraint id))) := by
  induction k generalizing r depth negated with
  | zero =>
    obtain ⟨depth, rfl⟩ := Nat.exists_eq_succ_of_ne_zero hdepth.ne'
    obtain ⟨r', hskip, hbare⟩ := h.exists_bare
    rw [checkConditionTo]
    refine returns_bind returns_file (returns_bind (returns_lift hskip) ?_)
    dsimp only
    cases hbare with
    | identifier hkind =>
      obtain ⟨n, hn, hkind⟩ := Option.map_eq_some_iff.mp hkind
      simp only [hn, negated?_eq_none (n := n) (by rw [hkind]; decide), logicalRight?_eq_none hkind]
      rw [bne_self_eq_false, Bool.or_false]
      have hverdict : (do
            let s ← store
            let id ← constrainedTypeAt x
            pure (reportAt f x (truthVerdict? s negated id))).Returns f t
          (reportAt f x (truthVerdict? t.store negated (t.store.baseConstraint id))) :=
        returns_bind returns_store
          (returns_bind (returns_constrainedTypeAt htype) (returns_pure _))
      refine returns_bind returns_options ?_
      split_ifs
      · exact returns_bind (returns_pure false) hverdict
      · exact returns_bind (returns_readsIndex hn (by rw [hkind]; decide)) hverdict
  | succ k ih =>
    obtain ⟨depth, rfl⟩ := Nat.exists_eq_succ_of_ne_zero (Nat.ne_zero_of_lt hdepth)
    obtain ⟨r', hskip, hbare⟩ := h.exists_bare
    rw [checkConditionTo]
    refine returns_bind returns_file (returns_bind (returns_lift hskip) ?_)
    dsimp only
    cases hbare with
    | negation hoperand hinner =>
      obtain ⟨n, hn, hoperand⟩ := Option.bind_eq_some_iff.mp hoperand
      simp only [hn, hoperand]
      have hrest := ih hinner (Nat.lt_of_succ_lt_succ hdepth) true
      simpa using hrest

/-- The condition of a statement, of a loop or of a conditional expression. -/
def condition? (n : Node) : Option NodeRef :=
  match n.kind with
  | .ifStatement => n.ifStatement?.map (·.expression)
  | .conditionalExpression => n.conditional?.map (·.condition)
  | .whileStatement | .doStatement | .forStatement => n.loop?.map (·.condition)
  | _ => none

theorem kind_of_condition? {n : Node} (h : condition? n = some c) :
    n.kind ∈ [.ifStatement, .conditionalExpression, .whileStatement, .doStatement,
      .forStatement] := by
  rw [condition?] at h
  split at h <;> simp_all

theorem returns_checkLoop {l : Loop} {reports : List Report} (hsome : l.condition.isSome = true)
    (h : (checkCondition l.condition).Returns f t reports) :
    (checkLoop .default l).Returns f t reports := by
  rw [checkLoop, if_neg (by simpa [Option.ne_none_iff_isSome] using hsome)]
  exact returns_bind (returns_pure false) h

/-- What is reported at a condition is what judging it gives. -/
theorem returns_check {r : NodeRef} {reports : List Report}
    (hc : (f.tree.get? r).bind condition? = some c) (hsome : c.isSome = true)
    (h : (checkCondition c).Returns f t reports) :
    (Condition.check .default r).Returns f t reports := by
  obtain ⟨n, hn, hc⟩ := Option.bind_eq_some_iff.mp hc
  refine returns_bind returns_tree ?_
  rw [hn]
  dsimp only
  rw [condition?] at hc
  split at hc
  · next hkind =>
    obtain ⟨s, hs, rfl⟩ := Option.map_eq_some_iff.mp hc
    simp only [hkind, hs, onSome]
    exact h
  · next hkind =>
    obtain ⟨s, hs, rfl⟩ := Option.map_eq_some_iff.mp hc
    simp only [hkind, hs, onSome]
    exact h
  · next hkind =>
    obtain ⟨l, hl, rfl⟩ := Option.map_eq_some_iff.mp hc
    simp only [hkind, hl, onSome]
    exact returns_checkLoop hsome h
  · next hkind =>
    obtain ⟨l, hl, rfl⟩ := Option.map_eq_some_iff.mp hc
    simp only [hkind, hl, onSome]
    exact returns_checkLoop hsome h
  · next hkind =>
    obtain ⟨l, hl, rfl⟩ := Option.map_eq_some_iff.mp hc
    simp only [hkind, hl, onSome]
    exact returns_checkLoop hsome h
  · cases hc

theorem Negates.returns_checkCondition {k : Nat} (h : Negates f.tree x k c)
    (htype : t.typeAt? x = some id) :
    (checkCondition c).Returns f t
      (reportAt f x (truthVerdict? t.store (k != 0) (t.store.baseConstraint id))) := by
  refine returns_bind returns_tree ?_
  rw [← Bool.false_or (k != 0)]
  exact h.returns_checkConditionTo htype (Nat.lt_succ_of_lt h.lt_size) false

/-- What is reported at a node of an accepted file lies in its text. -/
theorem mem_findings_singleton
    (hf : SourceFile.ofTree f.fileName f.text f.tree f.root = .ok f) {n : Node}
    (hn : f.tree.get? x = some n) (rule : ConfiguredRule) {report : Report}
    (hrange : (report.start, report.stop) = f.range x) (hfixes : report.fixes = []) :
    rule.rule.info.diagnostic f.fileName rule.category report ∈ rule.findings f [report] := by
  obtain ⟨⟨-, hstart, hstop⟩, -⟩ := SourceFile.accepted_of_ofTree hf hn
  obtain ⟨hfirst, hlast⟩ : report.start = n.start ∧ report.stop = n.stop := by
    simpa [SourceFile.range, hn] using hrange
  refine List.mem_filter.mpr ⟨List.mem_map_of_mem (List.mem_singleton_self _), ?_⟩
  rw [Diagnostic.fits_iff]
  simp only [RuleInfo.diagnostic, hfirst, hlast, hfixes]
  exact ⟨⟨hstart, hstop⟩, List.forall_mem_nil _⟩

theorem mem_findings (hf : SourceFile.ofTree f.fileName f.text f.tree f.root = .ok f) {n : Node}
    (hn : f.tree.get? x = some n) (rule : ConfiguredRule) (message : String) :
    rule.rule.info.diagnostic f.fileName rule.category (.new message (f.range x)) ∈
      rule.findings f (reportAt f x (some message)) :=
  mem_findings_singleton hf hn rule rfl rfl

end

/-- Linting with the rule alone comes to an end if no node refers back to itself and no union is a
    member of itself. -/
theorem exists_lint {f : SourceFile} {t : Oracle} (ht : t.Closed) (hstore : t.store.Grounded)
    (o : Options) (category : Category) (htree : f.tree.Grounded) :
    ∃ found oracle,
      Linter.lint ⟨[⟨rule o, category⟩]⟩ f (some t) = .ok (.ok (found, oracle)) :=
  Linter.exists_lint <| List.forall_mem_singleton.mpr
    ⟨survives_requireStrictNullChecks _, fun r _ _ _ => survives_check htree hstore ht o r⟩

/-- In a condition that is an identifier under negations, what is said about the identifier tells
    whether there is a negation: the message is the one about a single negation, also if there are
    several. Whenever linting comes to an end, the message is among what it finds. -/
theorem lint_negations {category : Category} {f : SourceFile} {t : Oracle}
    (hf : SourceFile.ofTree f.fileName f.text f.tree f.root = .ok f) (ht : t.Closed)
    (hmade : t.store.Made) {r c x : NodeRef} {k : Nat} {id : TypeId}
    (hr : r ∈ f.tree.preorder f.root) (hc : (f.tree.get? r).bind condition? = some c)
    (hx : Negates f.tree x k c) (htype : t.typeAt? x = some id)
    (hjudged : ∀ part ∈ t.store.unionMembers id, isJudged t.store part = true) :
    ∃ message,
      ((rule .default).check r).Returns f t (reportAt f x message) ∧
      (f.tree.Grounded → ∃ found oracle,
        Linter.lint ⟨[⟨rule .default, category⟩]⟩ f (some t) = .ok (.ok (found, oracle))) ∧
      (∀ found oracle,
        Linter.lint ⟨[⟨rule .default, category⟩]⟩ f (some t) = .ok (.ok (found, oracle)) →
        ∀ m, message = some m →
          info.diagnostic f.fileName category (.new m (f.range x)) ∈ found) ∧
      (t.store.isPossiblyFalsy id = false →
        message = some (if k = 0 then "alwaysTruthy" else "alwaysFalsy")) ∧
      (t.store.isPossiblyTruthy id = false →
        message = some (if k = 0 then "alwaysFalsy" else "alwaysTruthy")) ∧
      (t.store.isPossiblyFalsy id = true → t.store.isPossiblyTruthy id = true →
        message = none) := by
  have hverdict := truthVerdict?_of_isJudged hjudged (k != 0)
  have hreturns := hx.returns_checkCondition htype
  rw [baseConstraint_of_isJudged hjudged] at hreturns
  have hreports := returns_check hc hx.isSome hreturns
  have hfalsy (htruthy : t.store.isPossiblyTruthy id = false) : t.store.isPossiblyFalsy id = true :=
    hmade.canonical.isPossiblyFalsy htruthy
  obtain ⟨n, hn, hcondition⟩ := Option.bind_eq_some_iff.mp hc
  obtain ⟨node, hnode, -⟩ := Option.map_eq_some_iff.mp hx.kind_eq
  refine ⟨_, hreports, exists_lint ht hmade.ordered.grounded _ category,
    fun found oracle hlint m hm => ?_, fun hnot => ?_, fun hnot => ?_, fun hfalsy htruthy => ?_⟩
  · refine Linter.mem_of_returns (Rule.Builtin.condition .default |>.steady ht) rfl
      (by rw [Tree.kind?, hn]; rfl) (List.mem_append_left _ (kind_of_condition? hcondition))
      hreports hr hlint ?_
    rw [hm]
    exact mem_findings hf hnode ⟨rule .default, category⟩ m
  · have htruthy : t.store.isPossiblyTruthy id = true := by
      by_contra hno
      cases hnot.symm.trans (hfalsy (Bool.eq_false_iff.mpr hno))
    rw [hverdict, htruthy, hnot]
    cases k <;> rfl
  · rw [hverdict, hnot]
    cases k <;> rfl
  · rw [hverdict, htruthy, hfalsy]
    rfl

/-- `declare const x: symbol; if (e) {}` -/
def testProgram (e : Program.Expr) : TypeLint.Program :=
  [.statement (.declared .const "x" "symbol"), .statement (.ifThen e (.block []))]

/-- `!(x)` -/
def negatedOnce : Program.Expr := .prefixed .exclamationToken (.paren (.identifier "x"))

/-- `!!x` -/
def negatedTwice : Program.Expr :=
  .prefixed .exclamationToken (.prefixed .exclamationToken (.identifier "x"))

/-- What is known about the types of a file that is bound with nothing known before. -/
def bound (f : SourceFile) : TypeTable := (TypeTable.new .strict).bind f

/-- The condition at a node is an identifier under negations that is always true. -/
structure AlwaysTrue (f : SourceFile) (r c x : NodeRef) (k : Nat) : Prop where
  visited : r ∈ f.tree.preorder f.root
  condition : (f.tree.get? r).bind condition? = some c
  negates : Negates f.tree x k c
  type : (bound f).typeAt? x = some TypeId.symbol
  judged : ∀ part ∈ (bound f).store.unionMembers TypeId.symbol, isJudged (bound f).store part = true
  notFalsy : (bound f).store.isPossiblyFalsy TypeId.symbol = false

theorem alwaysTrue_of_build {e : Program.Expr} {b : Program.Built}
    (hb : Program.build "a.ts" (testProgram e) = .ok b) {r c x : NodeRef} {k : Nat}
    (hnegates : Negates b.file.tree x k c)
    (hfacts : (Program.build "a.ts" (testProgram e)).toOption.all (fun b => decide
      (r ∈ b.file.tree.preorder b.file.root ∧ (b.file.tree.get? r).bind condition? = some c ∧
        (bound b.file).typeAt? x = some TypeId.symbol ∧
        (∀ part ∈ (bound b.file).store.unionMembers TypeId.symbol,
          isJudged (bound b.file).store part = true) ∧
        (bound b.file).store.isPossiblyFalsy TypeId.symbol = false)) = true) :
    AlwaysTrue b.file r c x k := by
  obtain ⟨hvisited, hcondition, htype, hjudged, hfalsy⟩ := Program.of_build hb _ hfacts
  exact ⟨hvisited, hcondition, hnegates, htype, hjudged, hfalsy⟩

theorem lint_negations_once :
    ∃ b found oracle, Program.build "a.ts" (testProgram negatedOnce) = .ok b ∧
      AlwaysTrue b.file (some 21) (some 16) (some 13) 1 ∧
      Linter.lint ⟨[⟨rule .default, .error⟩]⟩ b.file (some (bound b.file).oracle) =
        .ok (.ok (found, oracle)) ∧
      info.diagnostic b.file.fileName .error (.new "alwaysFalsy" (b.file.range (some 13))) ∈
        found := by
  obtain ⟨b, hb⟩ : ∃ b, Program.build "a.ts" (testProgram negatedOnce) = .ok b :=
    Program.exists_build _ (by decide +kernel)
  obtain ⟨hoperand, hinner, hkind⟩ := Program.of_build hb (fun b =>
    (b.file.tree.get? (some 16)).bind negated? = some (some 15) ∧
      (b.file.tree.get? (some 15)).bind Node.parenthesized? = some (some 13) ∧
      b.file.tree.kind? (some 13) = some .identifier) (by decide +kernel)
  have htrue : AlwaysTrue b.file (some 21) (some 16) (some 13) 1 :=
    alwaysTrue_of_build hb (.negation hoperand (.paren hinner (.identifier hkind)))
      (by decide +kernel)
  have hinterned := TypeTable.interned_bind (TypeTable.interned_new .strict) b.file
  have hf := (Program.shown_of_build hb).1
  obtain ⟨message, -, hends, hreported, hmessage, -, -⟩ :=
    lint_negations (t := (bound b.file).oracle) hf.ofTree_eq hinterned.closed.oracle hinterned.made
      htrue.visited htrue.condition htrue.negates htrue.type htrue.judged
  obtain ⟨found, oracle, hlint⟩ := hends (hf.grounded (by decide +kernel))
  exact ⟨b, found, oracle, hb, htrue, hlint,
    hreported found oracle hlint _ (hmessage htrue.notFalsy)⟩

/-- The condition `!!x` of a symbol `x` is always true, but all that is found is that its value is
    always false. -/
theorem lint_negated_twice :
    Linter.messagesWith? ⟨rule .default, .error⟩ (testProgram negatedTwice) bound =
        some [("alwaysFalsy", 31, 32)] ∧
      ∃ b, Program.build "a.ts" (testProgram negatedTwice) = .ok b ∧
        b.file.range (some 13) = (31, 32) ∧
        AlwaysTrue b.file (some 20) (some 15) (some 13) 2 := by
  obtain ⟨b, hb⟩ : ∃ b, Program.build "a.ts" (testProgram negatedTwice) = .ok b :=
    Program.exists_build _ (by decide +kernel)
  obtain ⟨hrange, houter, hinner, hkind⟩ := Program.of_build hb (fun b =>
    b.file.range (some 13) = (31, 32) ∧
      (b.file.tree.get? (some 15)).bind negated? = some (some 14) ∧
      (b.file.tree.get? (some 14)).bind negated? = some (some 13) ∧
      b.file.tree.kind? (some 13) = some .identifier) (by decide +kernel)
  exact ⟨by decide +kernel, b, hb, hrange,
    alwaysTrue_of_build hb (.negation houter (.negation hinner (.identifier hkind)))
      (by decide +kernel)⟩

end TypeLint.Rules.Condition
