import TypeLint.Proofs.Emission.Neighbours
import TypeLint.Proofs.Lint.Outcomes
import TypeLint.Proofs.Lint.Runs
import TypeLint.Proofs.Program.CoalescingPatch
import TypeLint.Proofs.Program.Lossless
import TypeLint.Rules.NullishCoalescing

namespace TypeLint.Rules.NullishCoalescing

open Syntax Binding Program Text Green

variable {p : TypeLint.Program} {f : SourceFile}

/-- The expression is an operand of `&&` or `||`. -/
def isInLogical (t : Tree) (r : NodeRef) : Bool :=
  (t.binaryOperator? (t.parent r)).any isAndOr

theorem kind_of_binary? {n : Node} {b : Binary} (h : n.binary? = some b) :
    n.kind = .binaryExpression := by
  have hpayload : n.payload? = some (.binary b) := by
    unfold Node.binary? at h
    split at h
    · next heq => exact heq.trans (congrArg some (congrArg Payload.binary (Option.some.inj h)))
    · cases h
  rw [Node.payload?] at hpayload
  split at hpayload
  · next hfits =>
    rw [Option.some.inj hpayload] at hfits
    exact beq_iff_eq.mp hfits
  · cases hpayload

/-- The tree of a binary expression. -/
theorem exists_binary {x : Spot} (hform : HasForm x.green)
    (hkind : x.green.kind = .binaryExpression) :
    ∃ flags payload left lead operator right labels,
      x.green = .node .binaryExpression flags payload [left, mark lead operator, right] labels ∧
      x.node.binary? = some
        ⟨(partsAt x left lead operator right).left.ref,
          (partsAt x left lead operator right).operator.ref, operator,
          (partsAt x left lead operator right).right.ref⟩ := by
  obtain ⟨flags, payload, gs, labels, hgreen⟩ := hform.exists_node (by rw [hkind]; rfl)
  rw [hkind] at hgreen
  rw [hgreen] at hform
  cases Form.shape hform rfl with
  | binary left right lead operator =>
    refine ⟨flags, _, left, lead, operator, right, labels, hgreen, ?_⟩
    rw [Spot.node, Spot.children_of_node hgreen, hgreen]
    rfl

section

variable (hp : Disciplined p) (hf : Shown p f)

include hp hf

/-- A binary expression of a file and where its parts stand. -/
theorem exists_of_binary? {r : NodeRef} {c : Binary} (h : f.tree.binary? r = some c) :
    ∃ x ∈ (wholeSpot p).all, ∃ flags payload left lead right labels, r = x.ref ∧
      x.green = .node .binaryExpression flags payload [left, mark lead c.operator, right] labels ∧
      c.left = (partsAt x left lead c.operator right).left.ref ∧
      c.operatorToken = (partsAt x left lead c.operator right).operator.ref ∧
      c.right = (partsAt x left lead c.operator right).right.ref := by
  obtain ⟨n, hn, hc⟩ := Option.bind_eq_some_iff.mp h
  obtain ⟨x, hx, rfl, rfl⟩ := hf.shows.exists_of_get? hn
  obtain ⟨flags, payload, left, lead, operator, right, labels, hgreen, hbinary⟩ :=
    exists_binary (hasForm_of_mem_wholeSpot hp hx) (kind_of_binary? hc)
  obtain rfl := Option.some.inj (hc.symm.trans hbinary)
  exact ⟨x, hx, flags, payload, left, lead, right, labels, rfl, hgreen, rfl, rfl, rfl⟩

/-- The operator that a tree is read with is the one that is written in it. -/
theorem binaryOperator?_eq {x : Spot} (hx : x ∈ (wholeSpot p).all) :
    f.tree.binaryOperator? x.ref = operatorOf? x.green := by
  have hbinary : f.tree.binary? x.ref = x.node.binary? := by
    rw [Tree.binary?, hf.shows.get?_eq hx]
    rfl
  rw [Tree.binaryOperator?, hbinary]
  by_cases hkind : x.green.kind = .binaryExpression
  · obtain ⟨flags, payload, left, lead, operator, right, labels, hgreen, hc⟩ :=
      exists_binary (hasForm_of_mem_wholeSpot hp hx) hkind
    rw [hc, hgreen]
    rfl
  · have hnone : x.node.binary? = none :=
      Option.eq_none_iff_forall_ne_some.mpr fun c hc => hkind (kind_of_binary? hc)
    rw [hnone]
    cases hgreen : x.green with
    | token lead kind text payload labels => rfl
    | node kind flags payload gs labels =>
      rw [hgreen] at hkind
      exact (if_neg hkind).symm

omit hp hf in
theorem needsParentheses_eq_or (t : Tree) (operand : NodeRef) :
    needsParentheses t operand = (t.kind? operand == some .conditionalExpression ||
      t.kind? operand == some .arrowFunction || (t.binaryOperator? operand).any isGrouping) := by
  rw [needsParentheses]
  split
  · next h => rw [h]; rfl
  · next h => rw [h]; rfl
  · next hcond harrow =>
    rw [beq_false_of_ne hcond, beq_false_of_ne harrow, Bool.false_or, Bool.false_or]
    cases t.binaryOperator? operand <;> rfl

/-- The operands that need parentheses are those that are grouped. -/
theorem needsParentheses_eq {x : Spot} (hx : x ∈ (wholeSpot p).all) :
    needsParentheses f.tree x.ref = isGroupedTree x.green := by
  have hfits := (hasForm_of_mem_wholeSpot hp hx).kindFits
  rw [needsParentheses_eq_or, hf.shows.kind?_eq hx, binaryOperator?_eq hp hf hx]
  cases hgreen : x.green with
  | token lead kind text payload labels =>
    rw [hgreen] at hfits
    have hne (other : Kind) (hother : other.isToken = false) :
        (some kind == some other) = false := by
      refine beq_false_of_ne fun heq => ?_
      rw [← Option.some.inj heq] at hother
      cases hother.symm.trans hfits
    exact congrArg₂ or (congrArg₂ or (hne _ rfl) (hne _ rfl)) rfl
  | node kind flags payload gs labels => rfl

/-- The edits of the fix are those that put `??` in the place of the operator. -/
theorem coalesceEdits_eq {x : Spot} (hx : x ∈ (wholeSpot p).all) {flags : Nat}
    {payload : Payload} {left right : Green} {lead : String} {labels : List String} {c : Binary}
    (hgreen : x.green =
      .node .binaryExpression flags payload [left, mark lead c.operator, right] labels)
    (hleft : c.left = (partsAt x left lead c.operator right).left.ref)
    (hright : c.right = (partsAt x left lead c.operator right).right.ref) :
    coalesceEdits f x.ref (partsAt x left lead c.operator right).operator.ref c =
      coalescingEdits f.fileName (isInLogical f.tree x.ref) x
        (partsAt x left lead c.operator right) := by
  have hchildren := children_eq_parts hgreen
  have hmem (y : Spot) (hy : y ∈ [(partsAt x left lead c.operator right).left,
      (partsAt x left lead c.operator right).operator,
      (partsAt x left lead c.operator right).right]) : y ∈ (wholeSpot p).all :=
    Spot.children_subset_all hx (hchildren ▸ hy)
  have hgroup (y : Spot) (hy : y ∈ (wholeSpot p).all) :
      parenthesize f y.ref = groupEdits f.fileName y := by
    rw [parenthesize, groupEdits, needsParentheses_eq hp hf hy, SourceFile.insertBefore,
      SourceFile.insertAfter, SourceFile.range_eq hf.shows hy]
    rfl
  rw [coalesceEdits, hleft, hright, hgroup _ (hmem _ (by simp)), hgroup _ (hmem _ (by simp)),
    SourceFile.replace, SourceFile.insertBefore, SourceFile.insertAfter,
    SourceFile.range_eq hf.shows hx, SourceFile.range_eq hf.shows (hmem _ (by simp))]
  rw [isInLogical]
  cases f.tree.binaryOperator? (f.tree.parent x.ref) <;> rfl

end

/-- The number that the `??` has in the changed file: its own opening parenthesis and the
    parentheses around its operands are nodes in front of it. -/
def movedNumber (t : Tree) (wrapped : Bool) (n : Nat) (c : Binary) : Nat :=
  n + (if wrapped then 1 else 0) + (if needsParentheses t c.left then 3 else 0) +
    (if needsParentheses t c.right then 3 else 0)

theorem isAndOr_eq_false_of_isGrouping {operator : Kind} (h : isGrouping operator = false) :
    isAndOr operator = false := by
  refine Bool.eq_false_iff.mpr fun hlogical => ?_
  rw [isAndOr, Bool.or_eq_true, beq_iff_eq, beq_iff_eq] at hlogical
  rcases hlogical with rfl | rfl
  · cases h
  · cases h

/-- An operand of `??` is neither an `&&` nor a `||`. -/
theorem operatorOf?_groupedTree (g : Green) :
    (operatorOf? (groupedTree g)).any isAndOr = false := by
  rw [groupedTree]
  cases hgrouped : isGroupedTree g with
  | true => rfl
  | false =>
    rw [if_neg Bool.false_ne_true]
    cases hoperator : operatorOf? g with
    | none => rfl
    | some operator =>
      refine isAndOr_eq_false_of_isGrouping ?_
      cases g with
      | token lead kind text payload labels => cases hoperator
      | node kind flags payload children labels =>
        rw [isGroupedTree, hoperator, Bool.or_eq_false_iff] at hgrouped
        exact hgrouped.2

theorem size_groupedTree (g : Green) :
    (groupedTree g).size = g.size + if isGroupedTree g then 3 else 0 := by
  rw [groupedTree]
  split
  · simp only [enclosedTree, Green.size, sizeBelow, sizeAll, mark, sizeBelow_setLead]
    omega
  · rfl

/-- Above the changed expression, a binary expression keeps its operator. -/
theorem operatorOf?_rewrite {target : Nat} {recast : Nat → Green → Green}
    (honly : ChangesOnly target recast) {y : Spot} (hform : HasForm y.green)
    (hne : y.number ≠ target) :
    operatorOf? (y.green.rewrite recast y.first) = operatorOf? y.green := by
  cases hgreen : y.green with
  | token lead kind text payload labels => rfl
  | node kind flags payload gs labels =>
    rw [rewrite_node honly (number_of_node hgreen ▸ hne)]
    by_cases hkind : kind = .binaryExpression
    · subst hkind
      rw [hgreen] at hform
      cases Form.shape hform rfl with
      | binary left right lead operator => rfl
    · exact (if_neg hkind).trans (if_neg hkind).symm

section

variable {x : Spot} {flags : Nat} {payload : Payload} {left right : Green} {lead : String}
  {labels : List String} {wrapped : Bool} {f' : SourceFile}

/-- The spot of the `??` in the changed program: what stands there, where, and that it is no operand
    of `&&` or `||`. -/
theorem exists_coreSpot (hp : Disciplined p) (hplain : CommentFree p) (hf : Shown p f)
    (hx : x ∈ (wholeSpot p).all)
    (hgreen : x.green =
      .node .binaryExpression flags payload [left, mark lead .barBarToken, right] labels)
    (hwrapped : isInLogical f.tree x.ref = wrapped)
    (hf' : Shown (coalescedAt wrapped x.number p) f') :
    ∃ k ∈ (wholeSpot (coalescedAt wrapped x.number p)).all, ∃ s,
      k.green.bare = (coreTree left.bare lead right.bare).setLead s ∧
      k.first = x.first + (if wrapped then 1 else 0) ∧
      isInLogical f'.tree k.ref = false := by
  have hp' := disciplined_coalescedAt wrapped x.number hp
  have honly := changesOnly_coalesceAt wrapped x.number
  have hwhole := whole_changed (coalesces_agree wrapped x.number) hplain
  obtain ⟨x', hplace⟩ : ∃ x', Spot.SamePlace (coalesceAt wrapped x.number) (wholeSpot p)
      (wholeSpot (coalescedAt wrapped x.number p)) x x' :=
    Spot.exists_samePlace honly hx rfl rfl hwhole
  have hbare := hplace.bare.trans (rewrite_coalesceAt wrapped hgreen)
  cases wrapped
  · refine ⟨x', hplace.mem', _, hbare.trans (setLead_lead _).symm, hplace.first, ?_⟩
    rw [isInLogical, hf'.shows.parent_eq hplace.mem']
    rcases hplace.above with ⟨-, rfl⟩ | ⟨y, hy, y', hy', hxy, hxy', hbare'⟩
    · rfl
    · rw [Spot.parent_of_mem_children hxy', binaryOperator?_eq hp' hf' hy', ← operatorOf?_bare,
        hbare', operatorOf?_rewrite honly (hasForm_of_mem_wholeSpot hp hy)
          (Spot.number_lt_of_mem_children hxy).ne', ← binaryOperator?_eq hp hf hy]
      rwa [isInLogical, hf.shows.parent_eq hx, Spot.parent_of_mem_children hxy] at hwrapped
  · obtain ⟨k, hk, hkbare, hfirst⟩ := Spot.exists_child_of_bare
      [mark (coreTree left.bare lead right.bare).lead .openParenToken]
      ((coreTree left.bare lead right.bare).setLead "") [mark "" .closeParenToken] hbare
    have hkall := Spot.children_subset_all hplace.mem' hk
    refine ⟨k, hkall, "", hkbare, hfirst.trans (congrArg (· + 1) hplace.first), ?_⟩
    rw [isInLogical, hf'.shows.parent_eq hkall, Spot.parent_of_mem_children hk,
      binaryOperator?_eq hp' hf' hplace.mem', ← operatorOf?_bare, hbare]
    rfl

/-- In the changed file stands the `??`, and neither its operands nor what is around it is an `&&`
    or a `||`. -/
theorem exists_coalesced (hp : Disciplined p) (hplain : CommentFree p) (hf : Shown p f)
    (hx : x ∈ (wholeSpot p).all)
    (hgreen : x.green =
      .node .binaryExpression flags payload [left, mark lead .barBarToken, right] labels)
    (hwrapped : isInLogical f.tree x.ref = wrapped)
    (hf' : Shown (coalescedAt wrapped x.number p) f') :
    ∃ n c, n = x.number + (if wrapped then 1 else 0) + (if isGroupedTree left then 3 else 0) +
        (if isGroupedTree right then 3 else 0) ∧
      f'.tree.binary? (some n) = some c ∧ c.operator = .questionQuestionToken ∧
      ∀ r ∈ [c.left, c.right, f'.tree.parent (some n)],
        (f'.tree.binaryOperator? r).any isAndOr = false := by
  have hp' := disciplined_coalescedAt wrapped x.number hp
  obtain ⟨k, hk, s, hbare, hfirst, hparent⟩ :=
    exists_coreSpot hp hplain hf hx hgreen hwrapped hf'
  have hkind : k.green.kind = .binaryExpression := by
    rw [← kind_bare, hbare]
    rfl
  obtain ⟨flags', payload', left', lead', operator, right', labels', hgreen', hbinary⟩ :=
    exists_binary (hasForm_of_mem_wholeSpot hp' hk) hkind
  have hparts : left'.bare = (groupedTree left.bare).setLead s ∧ operator = .questionQuestionToken ∧
      right'.bare = groupedTree right.bare := by
    rw [hgreen'] at hbare
    injection hbare with _ _ _ hparts
    injection hparts with hleft hparts
    injection hparts with hmark hparts
    injection hparts with hright
    injection hmark with _ hoperator
    exact ⟨hleft, hoperator, hright⟩
  have hnumber : k.number = x.number + (if wrapped then 1 else 0) +
      (if isGroupedTree left then 3 else 0) + (if isGroupedTree right then 3 else 0) := by
    have hleft := size_groupedTree left.bare
    have hright := size_groupedTree right.bare
    have hsize : k.green.sizeBelow = (groupedTree left.bare).size + (1 +
        (groupedTree right.bare).size) := by
      rw [← sizeBelow_bare, hbare, sizeBelow_setLead]
      rfl
    have hold := number_of_node hgreen
    simp only [sizeAll_cons, sizeAll_nil, isGroupedTree_bare, Green.size, sizeBelow_bare, mark,
      sizeBelow] at hleft hright hsize hold
    rw [Spot.number, hsize, hfirst, hold, hleft, hright]
    omega
  have hget (y : Spot) (hy : y ∈ k.children) :
      f'.tree.binaryOperator? y.ref = operatorOf? y.green :=
    binaryOperator?_eq hp' hf' (Spot.children_subset_all hk hy)
  have hchildren := children_eq_parts hgreen'
  refine ⟨k.number, _, hnumber, (congrArg (Option.bind · Node.binary?)
    (hf'.shows.get?_eq hk)).trans hbinary, hparts.2.1, ?_⟩
  simp only [List.forall_mem_cons, List.not_mem_nil, false_imp_iff, implies_true, and_true]
  refine ⟨?_, ?_, hparent⟩
  · rw [hget _ (by simp [hchildren])]
    change (operatorOf? left').any isAndOr = false
    rw [← operatorOf?_bare, hparts.1, operatorOf?_setLead, operatorOf?_groupedTree]
  · rw [hget _ (by simp [hchildren])]
    change (operatorOf? right').any isAndOr = false
    rw [← operatorOf?_bare, hparts.2.2, operatorOf?_groupedTree]

end

/-- A report on a `||` proposes to put `??` in its place. -/
def OrReport (f : SourceFile) (report : Report) : Prop :=
  report.messageId = "preferNullishOverOr" →
    ∃ r c operator, f.tree.binary? r = some c ∧ c.operator = .barBarToken ∧
      f.tree.tokenAfter? c.left (fun n => n.kind == .barBarToken) = some operator ∧
      f.range operator = (report.start, report.stop) ∧
      report.fixes = [⟨fixDescription, coalesceEdits f r operator c⟩]

theorem orReport_of_messageId {report : Report} (h : report.messageId ≠ "preferNullishOverOr") :
    OrReport f report := fun hid => (h hid).elim

theorem gives_nil (P : Report → Prop) :
    (pure [] : Check (List Report)).Gives f fun reports => ∀ report ∈ reports, P report :=
  Check.gives_pure (List.forall_mem_nil _)

theorem gives_checkLogicalOr (o : Options) (r : NodeRef) :
    (checkLogicalOr o r).Gives f fun reports => ∀ report ∈ reports, OrReport f report := by
  refine Check.gives_bind Check.gives_file ?_
  rintro _ rfl
  split
  · exact gives_nil _
  · next c hc =>
    obtain ⟨hc, hoperator⟩ := Option.filter_eq_some_iff.mp hc
    refine Check.gives_bind (Check.gives_any _) fun s _ => ?_
    refine Check.gives_bind (Check.gives_any _) fun leftType _ => ?_
    split
    · exact gives_nil _
    refine Check.gives_bind (Check.gives_any _) fun exempt _ => ?_
    split
    · exact gives_nil _
    · refine Check.gives_bind (Check.gives_orFail _ _) fun operator hafter => ?_
      refine Check.gives_pure (List.forall_mem_singleton.mpr fun _ => ?_)
      exact ⟨r, c, operator, hc, beq_iff_eq.mp hoperator, hafter, rfl, rfl⟩

theorem gives_checkTernary (r : NodeRef) :
    (checkTernary r).Gives f fun reports => ∀ report ∈ reports, OrReport f report := by
  refine Check.gives_bind Check.gives_file ?_
  rintro _ rfl
  dsimp only
  split
  · exact gives_nil _
  refine Check.gives_bind (Check.gives_any _) fun test _ => ?_
  split
  · exact gives_nil _
  refine Check.gives_bind (Check.gives_any _) fun whenTrue _ => ?_
  refine Check.gives_bind (Check.gives_any _) fun whenFalse _ => ?_
  refine Check.gives_bind (Check.gives_any _) fun tested _ => ?_
  split
  · exact gives_nil _
  split
  · exact gives_nil _
  refine Check.gives_bind (Check.gives_any _) fun fixable _ => ?_
  split
  · refine Check.gives_pure (List.forall_mem_singleton.mpr (orReport_of_messageId ?_))
    change "preferNullishOverTernary" ≠ _
    decide
  · exact gives_nil _

theorem gives_check (o : Options) (r : NodeRef) :
    (check o r).Gives f fun reports => ∀ report ∈ reports, OrReport f report := by
  refine Check.gives_bind (Check.gives_any _) fun t _ => ?_
  split
  · exact gives_checkLogicalOr o r
  · split
    · exact gives_nil _
    · exact gives_checkTernary r
  · exact gives_nil _

theorem gives_requireStrictNullChecks (allowed : Bool) :
    (requireStrictNullChecks allowed).Gives f fun reports =>
      ∀ report ∈ reports, OrReport f report := by
  refine Check.gives_bind (Check.gives_any _) fun options _ => ?_
  split
  · exact gives_nil _
  · refine Check.gives_pure (List.forall_mem_singleton.mpr (orReport_of_messageId ?_))
    change noStrictNullCheck.1 ≠ _
    decide

/-- Where linting proposes `??` for an expression `a || b`, applying the fix gives the text of the
    program that is built with `??` there: its operands in parentheses if they are logical,
    assignment, comma, conditional or arrow expressions, and itself in parentheses exactly if it is
    an operand of `&&` or `||`. In that program, the `??` stands next to no `&&` and no `||`. -/
theorem lint_or_rebuilds {o : Options} {category : Category} (hp : Disciplined p)
    (hplain : CommentFree p) {name : String} {b : Built} (hbuild : build name p = .ok b)
    {oracle oracle' : Option Oracle} {found : List Diagnostic}
    (hlint : Linter.lint ⟨[⟨rule o, category⟩]⟩ b.file oracle = .ok (.ok (found, oracle')))
    {d : Diagnostic} (hd : d ∈ found) (hid : d.messageId = "preferNullishOverOr") :
    ∃ n c wrapped, b.file.tree.binary? (some n) = some c ∧ c.operator = .barBarToken ∧
      b.file.range c.operatorToken = (d.start, d.stop) ∧
      wrapped = isInLogical b.file.tree (some n) ∧
      ∃ b' fix, build name (coalescedAt wrapped n p) = .ok b' ∧ d.fixes = [fix] ∧
        fix.validate (byteLength b.file.text) = .ok () ∧
        fix.apply b.file.text = .ok b'.file.text ∧
        ∃ c', b'.file.tree.binary? (some (movedNumber b.file.tree wrapped n c)) = some c' ∧
          c'.operator = .questionQuestionToken ∧
          ∀ r ∈ [c'.left, c'.right,
              b'.file.tree.parent (some (movedNumber b.file.tree wrapped n c))],
            (b'.file.tree.binaryOperator? r).any isAndOr = false := by
  obtain ⟨hf, -⟩ := shown_of_build hbuild
  obtain ⟨report, hreport, rfl⟩ := Linter.exists_report_of_single rfl (by decide)
    (gives_requireStrictNullChecks _) (gives_check o) hlint hd
  obtain ⟨r, c, operator, hc, hor, hafter, hrange, hfixes⟩ := hreport hid
  obtain ⟨x, hx, flags, payload, left, lead, right, labels, rfl, hgreen, hleft, hoperator,
    hright⟩ := exists_of_binary? hp hf hc
  rw [hor] at hgreen hleft hoperator hright
  have hchildren := children_eq_parts hgreen
  have hword : (partsAt x left lead .barBarToken right).operator ∈ (wholeSpot p).all :=
    Spot.children_subset_all hx (by simp [hchildren])
  have hfound : b.file.tree.tokenAfter? c.left (fun n => n.kind == .barBarToken) =
      some c.operatorToken := by
    rw [hleft, hoperator]
    exact hf.shows.tokenAfter?_eq [] hx hchildren
      ((whole_kindFits hp).of_mem_all hword).self rfl rfl
  obtain rfl : c.operatorToken = operator := Option.some.inj (hfound.symm.trans hafter)
  obtain ⟨b', hbuild'⟩ : ∃ b',
      build name (coalescedAt (isInLogical b.file.tree x.ref) x.number p) = .ok b' :=
    exists_build_changed (coalesces_agree _ x.number) hplain hbuild
  obtain ⟨hf', -⟩ := shown_of_build hbuild'
  have hpatch : Patch b.file.fileName 0 b.file.text b'.file.text
      (coalesceEdits b.file x.ref c.operatorToken c) := by
    have hedits := coalesceEdits_eq hp hf hx (hor ▸ hgreen) (hor ▸ hleft) (hor ▸ hright)
    rw [hor] at hedits
    rw [hoperator, hedits, hf.text, hf'.text]
    exact patch_coalescedAt b.file.fileName _ hp hplain hx hgreen
  have hsorted : Fix.sortedEdits ⟨fixDescription, coalesceEdits b.file x.ref c.operatorToken c⟩ =
      coalesceEdits b.file x.ref c.operatorToken c :=
    Fix.sortedEdits_eq_self hpatch.ordered fun e he => (hpatch.within e he).2.1
  obtain ⟨hvalid, happly⟩ := Fix.apply_of_patch (hsorted.symm ▸ hpatch)
  have hmoved : movedNumber b.file.tree (isInLogical b.file.tree x.ref) x.number c =
      x.number + (if isInLogical b.file.tree x.ref then 1 else 0) +
        (if isGroupedTree left then 3 else 0) + (if isGroupedTree right then 3 else 0) := by
    rw [movedNumber, hleft, hright,
      needsParentheses_eq hp hf (Spot.children_subset_all hx (by simp [hchildren])),
      needsParentheses_eq hp hf (Spot.children_subset_all hx (by simp [hchildren]))]
    rfl
  obtain ⟨n, c', hn, hcore⟩ := exists_coalesced hp hplain hf hx hgreen rfl hf'
  rw [← hmoved] at hn
  exact ⟨x.number, c, _, hc, hor, hrange, rfl, b', _, hbuild', hfixes, hvalid, happly, c',
    hn ▸ hcore⟩

/-- `p && (a || b);` -/
def enclosed : TypeLint.Program :=
  [.statement (.expression (.binary (.identifier "p") .ampersandAmpersandToken
    (.paren (.binary (.identifier "a") .barBarToken (.identifier "b")))))]

/-- A table in which the left operand of the `||` of `enclosed` has the type `undefined`. -/
def enclosedTable : TypeTable := (TypeTable.new .strict).setType (some 3) Types.TypeId.undefined

theorem lint_or_rebuilds_enclosed :
    ∃ b found oracle d, build "a.ts" enclosed = .ok b ∧ Disciplined enclosed ∧
      CommentFree enclosed ∧
      Linter.lint ⟨[⟨rule .default, .error⟩]⟩ b.file (some enclosedTable.oracle) =
        .ok (.ok (found, oracle)) ∧
      d ∈ found ∧ d.messageId = "preferNullishOverOr" ∧ (d.start, d.stop) = (8, 10) ∧
      ∃ n c wrapped, b.file.tree.binary? (some n) = some c ∧ c.operator = .barBarToken ∧
        b.file.range c.operatorToken = (d.start, d.stop) ∧
        wrapped = isInLogical b.file.tree (some n) ∧
        ∃ b' fix, build "a.ts" (coalescedAt wrapped n enclosed) = .ok b' ∧ d.fixes = [fix] ∧
          fix.validate (byteLength b.file.text) = .ok () ∧
          fix.apply b.file.text = .ok b'.file.text ∧
          ∃ c', b'.file.tree.binary? (some (movedNumber b.file.tree wrapped n c)) = some c' ∧
            c'.operator = .questionQuestionToken ∧
            ∀ r ∈ [c'.left, c'.right,
                b'.file.tree.parent (some (movedNumber b.file.tree wrapped n c))],
              (b'.file.tree.binaryOperator? r).any isAndOr = false := by
  have hp : Disciplined enclosed := by decide
  have hplain : CommentFree enclosed := by decide
  have hrun : Linter.messages? ⟨rule .default, .error⟩ enclosed enclosedTable =
      some [("preferNullishOverOr", 8, 10)] := by
    decide +kernel
  obtain ⟨b, found, oracle, d, hb, hlint, hd, hmessage, hrange⟩ := Linter.exists_of_messages? hrun
  exact ⟨b, found, oracle, d, hb, hp, hplain, hlint, hd, hmessage, hrange,
    lint_or_rebuilds hp hplain hb hlint hd hmessage⟩

/-- In `p && a || b = c;`, with the `||` as the right operand of the `&&` and the assignment as that
    of the `||`, both the assignment and the new `??` are put into parentheses. -/
example : (build "a.ts" (coalescedAt true 8
    [.statement (.expression (.binary (.identifier "p") .ampersandAmpersandToken
      (.binary (.identifier "a") .barBarToken
        (.binary (.identifier "b") .equalsToken (.identifier "c")))))])).toOption.map
          (·.file.text) = some "p && (a ?? (b = c));\n" := by
  decide +kernel

end TypeLint.Rules.NullishCoalescing
