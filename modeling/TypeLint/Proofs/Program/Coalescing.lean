import TypeLint.Proofs.Program.FormFacts
import TypeLint.Proofs.Program.Tracking

namespace TypeLint.Program

open Syntax Text Writer Green

/-- The operator is one of those whose expressions do not stand bare next to `??`. -/
def isGrouping (operator : Kind) : Bool :=
  operator.isLogicalOperator || operator.isAssignmentOperator || operator == .commaToken

/-- A logical, assignment, comma, conditional or arrow expression. -/
def Expr.isGrouped : Expr → Bool
  | .binary _ operator _ => isGrouping operator
  | .conditional _ _ _ | .arrow _ _ | .arrowBlock _ _ => true
  | .labeled _ e => e.isGrouped
  | _ => false

/-- An expression as an operand of `??`. -/
def Expr.grouped (e : Expr) : Expr := if e.isGrouped then .paren e else e

/-- An expression `a || b` with `??`, in parentheses if it is to be wrapped. -/
def Expr.coalesced (wrapped : Bool) : Expr → Expr
  | .binary left operator right =>
    if operator = .barBarToken then
      let core : Expr := .binary left.grouped .questionQuestionToken right.grouped
      if wrapped then .paren core else core
    else .binary left operator right
  | e => e

/-- A program in which the expression with a given number is built with `??`. -/
def coalescedAt (wrapped : Bool) (number : Nat) (p : TypeLint.Program) : TypeLint.Program :=
  changed (fun n e => if n = number then e.coalesced wrapped else e) p

/-- The operator of a binary expression. -/
def operatorOf? : Green → Option Kind
  | .token .. => none
  | .node kind _ _ children _ =>
    if kind = .binaryExpression then children[1]?.map Green.kind else none

/-- The tree of a logical, assignment, comma, conditional or arrow expression. -/
def isGroupedTree : Green → Bool
  | .token .. => false
  | .node kind flags payload children labels =>
    kind == .conditionalExpression || kind == .arrowFunction ||
      (operatorOf? (.node kind flags payload children labels)).any isGrouping

/-- A tree in parentheses. -/
def enclosedTree (g : Green) : Green :=
  .node .parenthesizedExpression 0 .empty
    [mark g.lead .openParenToken, g.setLead "", mark "" .closeParenToken] []

/-- A tree as an operand of `??`. -/
def groupedTree (g : Green) : Green := if isGroupedTree g then enclosedTree g else g

/-- The tree of an expression with `??` behind some trivia. -/
def coreTree (left : Green) (lead : String) (right : Green) : Green :=
  .node .binaryExpression 0 .empty
    [groupedTree left, mark lead .questionQuestionToken, groupedTree right] []

/-- The tree of an expression with `??`, in parentheses if it is to be wrapped. -/
def coalesceTree (wrapped : Bool) (left : Green) (lead : String) (right : Green) : Green :=
  if wrapped then enclosedTree (coreTree left lead right) else coreTree left lead right

/-- The tree of an expression `a || b` with `??` in place of the operator. -/
def coalescedTree (wrapped : Bool) (g : Green) : Green :=
  match g with
  | .node kind _ _ [left, operator, right] _ =>
    if kind = .binaryExpression ∧ operator.kind = .barBarToken then
      coalesceTree wrapped left operator.lead right
    else g
  | _ => g

/-- The change of trees that belongs to `coalescedAt`. -/
def coalesceAt (wrapped : Bool) (number n : Nat) (g : Green) : Green :=
  if n = number then coalescedTree wrapped g else g

theorem operatorOf?_setLead (g : Green) (s : String) :
    operatorOf? (g.setLead s) = operatorOf? g := by
  cases g with
  | token lead kind text payload labels => rfl
  | node kind flags payload children labels =>
    rcases children with _ | ⟨first, _ | ⟨second, rest⟩⟩ <;> rfl

theorem operatorOf?_bare (g : Green) : operatorOf? g.bare = operatorOf? g := by
  cases g with
  | token lead kind text payload labels => rfl
  | node kind flags payload children labels =>
    have hkinds : ((bareAll children)[1]?).map Green.kind = children[1]?.map Green.kind := by
      rcases children with _ | ⟨first, _ | ⟨second, rest⟩⟩
      · rfl
      · rfl
      · exact congrArg some (kind_bare second)
    rw [bare, operatorOf?, operatorOf?, hkinds]

theorem isGroupedTree_setLead (g : Green) (s : String) :
    isGroupedTree (g.setLead s) = isGroupedTree g := by
  cases g with
  | token lead kind text payload labels => rfl
  | node kind flags payload children labels =>
    have hoperator := operatorOf?_setLead (.node kind flags payload children labels) s
    rw [setLead] at hoperator ⊢
    simp only [isGroupedTree, hoperator]

theorem isGroupedTree_bare (g : Green) : isGroupedTree g.bare = isGroupedTree g := by
  cases g with
  | token lead kind text payload labels => rfl
  | node kind flags payload children labels =>
    have hoperator := operatorOf?_bare (.node kind flags payload children labels)
    rw [bare] at hoperator ⊢
    simp only [isGroupedTree, hoperator]

theorem enclosedTree_setLead {g : Green} (s t : String) :
    (enclosedTree (g.setLead s)).setLead t = (enclosedTree g).setLead t := by
  simp only [enclosedTree, setLead, setLeadAll, mark, setLead_setLead]

theorem groupedTree_setLead (g : Green) (s t : String) :
    (groupedTree (g.setLead s)).setLead t = (groupedTree g).setLead t := by
  rw [groupedTree, groupedTree, isGroupedTree_setLead]
  split
  · exact enclosedTree_setLead s t
  · exact setLead_setLead g s t

theorem Near.trans {l l' l'' : Layout} (h : Near l l') (h' : Near l' l'') : Near l l'' :=
  ⟨h'.indent.trans h.indent, h.left, h'.right, fun hcut => h'.cut (h.cut hcut)⟩

/-- Trees of types are not grouped. -/
theorem isGroupedTree_of_isTypePart {g : Green} (h : isTypePart g.kind = true) :
    isGroupedTree g = false := by
  cases g with
  | token lead kind text payload labels => rfl
  | node kind flags payload children labels =>
    have hne (other : Kind) (hother : isTypePart other = false) : kind ≠ other := by
      rintro rfl
      cases hother.symm.trans h
    have hoperator : operatorOf? (.node kind flags payload children labels) = none :=
      if_neg (hne _ rfl)
    simp only [isGroupedTree, hoperator, Option.any_none, Bool.or_false, Bool.or_eq_false_iff,
      beq_eq_false_iff_ne]
    exact ⟨hne _ rfl, hne _ rfl⟩

theorem isGroupedTree_withLabel (g : Green) (label : String) :
    isGroupedTree (g.withLabel label) = isGroupedTree g := by
  rw [← isGroupedTree_bare, bare_withLabel, isGroupedTree_bare]

/-- The expressions that are grouped are those that are written as trees that are grouped. -/
theorem Expr.isGroupedTree_write (e : Expr) (h : e.every Expr.isPlain = true) (l : Layout) :
    isGroupedTree (e.write.run l).1 = e.isGrouped := by
  cases e with
  | labeled label e =>
    simp only [Expr.every, Bool.and_eq_true] at h
    exact (isGroupedTree_withLabel _ _).trans (Expr.isGroupedTree_write e h.2 l)
  | typeNode text => exact isGroupedTree_of_isTypePart (writeType_isType text l).self
  | prefixed operator e =>
    rw [run_prefixed]
    by_cases hoperator : operator = .typeOfKeyword
    · simp only [hoperator, if_true]
      rfl
    · simp only [hoperator, if_false]
      rfl
  | commentBefore _ _ | commentAfter _ _ | emptyCall _ _ _ | emptyArray _ => cases h
  | _ => rfl

/-- An expression in parentheses is written as its tree in parentheses. -/
theorem Expr.write_paren {e : Expr} (h : e.every Expr.isPlain = true) {l : Layout}
    (hl : l.continues = false) :
    ((Expr.paren e).write.run l).1.bare = enclosedTree (e.write.run l).1.bare ∧
      Near (e.write.run l).2 ((Expr.paren e).write.run l).2 := by
  have hopened : Near l (l.behind "(") := ⟨rfl, hl, hl, id⟩
  obtain ⟨htree, hnear⟩ := Expr.write_near h hopened
  have hlead : (e.write.run l).1.bare.lead = l.pending :=
    (lead_bare _).trans (Expr.writes e h l hl).lead
  have hpending : ((e.write.run (l.behind "(")).2).pending = "" :=
    (Expr.writes e h (l.behind "(") hl).pending
  refine ⟨congrArg (Green.node .parenthesizedExpression 0 .empty · []) ?_, hnear.indent, hnear.left,
    hnear.right, hnear.cut⟩
  rw [hlead]
  exact congrArg₂ List.cons rfl (congrArg₂ List.cons htree
    (congrArg (fun lead => [mark lead .closeParenToken]) hpending))

theorem Expr.isPlain_grouped {e : Expr} (h : e.every Expr.isPlain = true) :
    e.grouped.every Expr.isPlain = true := by
  rw [Expr.grouped]
  split
  · simp only [Expr.every, h, Expr.isPlain, Bool.and_self]
  · exact h

/-- Between near layouts with the same trivia pending, an operand is written as the tree of the
    operand of `??`. -/
theorem Expr.write_grouped {e : Expr} (h : e.every Expr.isPlain = true) {l l' : Layout}
    (hl : Near l l') (hpending : l'.pending = l.pending) :
    (e.grouped.write.run l').1.bare = groupedTree (e.write.run l).1.bare ∧
      Near (e.write.run l).2 (e.grouped.write.run l').2 := by
  obtain ⟨htree, hnear⟩ := Expr.write_near h hl
  rw [hpending, setLead_bare_write h hl.left] at htree
  rw [groupedTree, isGroupedTree_bare, Expr.isGroupedTree_write e h l, Expr.grouped]
  split
  · obtain ⟨hparen, hbehind⟩ := Expr.write_paren h hl.right
    rw [hparen, htree]
    exact ⟨rfl, hnear.trans hbehind⟩
  · exact ⟨htree, hnear⟩

/-- Behind the same trivia, an expression with `??` is written as the tree with `??`. -/
theorem Expr.write_coalesced {left right : Expr} (hleft : left.every Expr.isPlain = true)
    (hright : right.every Expr.isPlain = true) (wrapped : Bool) {l : Layout}
    (hl : l.continues = false) :
    let e : Expr := .binary left .barBarToken right
    ((e.coalesced wrapped).write.run l).1.bare = coalescedTree wrapped (e.write.run l).1.bare ∧
      Near (e.write.run l).2 ((e.coalesced wrapped).write.run l).2 := by
  intro e
  have hself : Near l l := ⟨rfl, hl, hl, id⟩
  obtain ⟨htree, hnear⟩ := Expr.write_grouped hleft hself rfl
  have hpending : (left.grouped.write.run l).2.pending = (left.write.run l).2.pending :=
    (Expr.writes _ (Expr.isPlain_grouped hleft) l hl).pending.trans
      (Expr.writes left hleft l hl).pending.symm
  obtain ⟨htree', hnear'⟩ := Expr.write_grouped hright
    (((hnear.withTrivia " " " ").behind "||" "??").withTrivia " " " ") rfl
  let core : Expr := .binary left.grouped .questionQuestionToken right.grouped
  have hcore : (core.write.run l).1.bare =
      coalescedTree false (e.write.run l).1.bare := by
    refine congrArg (Green.node .binaryExpression 0 .empty · []) ?_
    refine congrArg₂ List.cons htree (congrArg₂ List.cons ?_ (congrArg ([·]) htree'))
    exact congrArg (mark · .questionQuestionToken) (congrArg (· ++ " ") hpending)
  have hplain : core.every Expr.isPlain = true := by
    simp only [core, Expr.every, Expr.isPlain_grouped hleft, Expr.isPlain_grouped hright,
      Expr.isPlain, Bool.and_self]
  cases wrapped
  · exact ⟨hcore, hnear'⟩
  · obtain ⟨hparen, hbehind⟩ := Expr.write_paren hplain hl
    exact ⟨hparen.trans (congrArg enclosedTree hcore), hnear'.trans hbehind⟩

theorem Expr.isPlain_coalesced (wrapped : Bool) {e : Expr} (h : e.every Expr.isPlain = true) :
    (e.coalesced wrapped).every Expr.isPlain = true := by
  cases e with
  | binary left operator right =>
    simp only [Expr.every, Bool.and_eq_true] at h
    rw [Expr.coalesced]
    split
    · cases wrapped <;>
        simp only [Expr.every, Expr.isPlain_grouped h.1.2, Expr.isPlain_grouped h.2, Expr.isPlain,
          Bool.and_self, if_true, Bool.false_eq_true, if_false]
    · simp only [Expr.every, h.1.2, h.2, Expr.isPlain, Bool.and_self]
  | _ => exact h

theorem coalesceTree_setLead (wrapped : Bool) (left : Green) (lead : String) (right : Green)
    (s t : String) :
    (coalesceTree wrapped (left.setLead s) lead right).setLead t =
      (coalesceTree wrapped left lead right).setLead t := by
  cases wrapped <;>
    simp only [coalesceTree, coreTree, enclosedTree, mark, Bool.false_eq_true, if_false, if_true,
      setLead, setLeadAll, groupedTree_setLead]

theorem coalescedTree_setLead (wrapped : Bool) (g : Green) (s t : String) :
    (coalescedTree wrapped (g.setLead s)).setLead t = (coalescedTree wrapped g).setLead t := by
  cases g with
  | token lead kind text payload labels => rfl
  | node kind flags payload children labels =>
    rcases children with _ | ⟨left, _ | ⟨operator, _ | ⟨right, _ | ⟨extra, rest⟩⟩⟩⟩
    case cons.cons.cons.nil =>
      simp only [setLead, setLeadAll, coalescedTree]
      split
      · exact coalesceTree_setLead wrapped left operator.lead right s t
      · simp only [setLead, setLeadAll, setLead_setLead]
    all_goals exact setLead_setLead _ s t

/-- Only the trees of expressions `a || b` are changed. -/
theorem coalescedTree_eq_self (wrapped : Bool) {g : Green}
    (h : operatorOf? g ≠ some .barBarToken) : coalescedTree wrapped g = g := by
  unfold coalescedTree
  split
  · next kind _ _ left operator right _ =>
    refine if_neg fun hor => h ?_
    rw [operatorOf?, if_pos hor.1]
    exact congrArg some hor.2
  · rfl

/-- An expression after the change is written as its tree after the change. -/
theorem Expr.coalesced_agrees (wrapped : Bool) {e : Expr} (h : e.every Expr.isPlain = true)
    (hform : e.isRewritable = true) {l : Layout} (hl : l.continues = false) :
    ((e.coalesced wrapped).write.run l).1.bare = coalescedTree wrapped (e.write.run l).1.bare ∧
      ((e.write.run l).2.cutText = none → ((e.coalesced wrapped).write.run l).2.cutText = none) := by
  have hself (h : operatorOf? (e.write.run l).1 ≠ some .barBarToken) :
      coalescedTree wrapped (e.write.run l).1.bare = (e.write.run l).1.bare :=
    coalescedTree_eq_self wrapped (by rwa [operatorOf?_bare])
  cases e with
  | binary left operator right =>
    simp only [Expr.every, Bool.and_eq_true] at h
    by_cases hoperator : operator = .barBarToken
    · subst hoperator
      obtain ⟨htree, hnear⟩ := Expr.write_coalesced h.1.2 h.2 wrapped hl
      exact ⟨htree, hnear.cut⟩
    · rw [Expr.coalesced, if_neg hoperator]
      exact ⟨(hself fun heq => hoperator (Option.some.inj heq)).symm, id⟩
  | nonNull _ | property _ _ _ | element _ _ _ | call _ _ _ | asType _ _ | typeAssertion _ _ =>
    exact ⟨(hself nofun).symm, id⟩
  | _ => cases hform

/-- Putting `??` in the place of a `||` in expressions and in trees agrees. -/
theorem coalesces_agree (wrapped : Bool) (number : Nat) :
    Agrees (fun n e => if n = number then e.coalesced wrapped else e)
      (coalesceAt wrapped number) where
  plain n e h := by
    split
    · exact Expr.isPlain_coalesced wrapped h
    · exact h
  tree n e l h hform hl := by
    rw [coalesceAt]
    split
    · rw [← (Expr.coalesced_agrees wrapped h hform hl).1,
        setLead_bare_write (Expr.isPlain_coalesced wrapped h) hl]
    · exact (setLead_bare_write h hl).symm
  cut n e l h hform hl hcut := by
    split
    · exact (Expr.coalesced_agrees wrapped h hform hl).2 hcut
    · exact hcut
  lead n g s t := by
    rw [coalesceAt, coalesceAt]
    split
    · exact coalescedTree_setLead wrapped g s t
    · exact setLead_setLead g s t

theorem Expr.usesTokenKinds_grouped {e : Expr} (h : e.every Expr.usesTokenKinds = true) :
    e.grouped.every Expr.usesTokenKinds = true := by
  rw [Expr.grouped]
  split
  · simp only [Expr.every, h, Expr.usesTokenKinds, Bool.and_self]
  · exact h

/-- Putting `??` in the place of a `||` uses kinds of tokens only. -/
theorem disciplined_coalescedAt (wrapped : Bool) (number : Nat) {p : TypeLint.Program}
    (hp : Disciplined p) : Disciplined (coalescedAt wrapped number p) := by
  refine Item.everyIn_rewriteIn shallow_usesTokenKinds (fun n e h => ?_) p hp 0
  split
  · cases e with
    | binary left operator right =>
      rw [Expr.coalesced]
      split
      · simp only [Expr.every, Bool.and_eq_true] at h
        cases wrapped <;>
          simp only [Expr.every, Expr.usesTokenKinds_grouped h.1.2,
            Expr.usesTokenKinds_grouped h.2, Expr.usesTokenKinds, if_true, Bool.false_eq_true,
            if_false] <;> rfl
      · exact h
    | _ => exact h
  · exact h

end TypeLint.Program
