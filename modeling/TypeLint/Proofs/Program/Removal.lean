import TypeLint.Proofs.Emission.Places
import TypeLint.Proofs.Program.FormFacts
import TypeLint.Proofs.Program.Tracking

namespace TypeLint.Program

open Syntax Text Writer Green

/-- An expression without the assertion that it is, or with a plain step in place of the optional
    one that it is. -/
def Expr.stripped : Expr → Expr
  | .asType e _ => e
  | .typeAssertion _ e => e
  | .nonNull e => e
  | .property e _ name => .property e false name
  | .element e _ argument => .element e false argument
  | .call callee _ arguments => .call callee false arguments
  | e => e

/-- A program without the assertions and optional steps whose nodes have marked numbers. -/
def without (marked : Nat → Bool) (p : TypeLint.Program) : TypeLint.Program :=
  changed (fun n e => if marked n then e.stripped else e) p

/-- What stands behind the receiver of an access with a point in place of the `?.`. -/
def pointed : List Green → List Green
  | .token lead .questionDotToken _ _ _ :: rest => mark lead .dotToken :: rest
  | gs => gs

/-- What stands behind the receiver of a step with a bracket of its own without the `?.`. -/
def undotted : List Green → List Green
  | .token _ .questionDotToken _ _ _ :: rest => rest
  | gs => gs

/-- A tree without the assertion that it is, or with a plain step in place of the optional one. -/
def strippedTree (g : Green) : Green :=
  match g with
  | .token .. => g
  | .node _ _ _ [] _ => g
  | .node kind flags payload (head :: rest) labels =>
    match kind with
    | .asExpression | .nonNullExpression => head
    | .typeAssertionExpression => rest.getLast?.getD g
    | .propertyAccessExpression => .node kind flags payload (head :: pointed rest) labels
    | .elementAccessExpression | .callExpression =>
      .node kind flags payload (head :: undotted rest) labels
    | _ => g

/-- The change of trees that belongs to taking marked assertions and steps away. -/
def stripAt (marked : Nat → Bool) (n : Nat) (g : Green) : Green :=
  if marked n then strippedTree g else g

theorem strippedTree_setLead (g : Green) (s t : String) :
    (strippedTree (g.setLead s)).setLead t = (strippedTree g).setLead t := by
  match g with
  | .token .. => rfl
  | .node _ _ _ [] _ => rfl
  | .node kind flags payload (head :: rest) labels =>
    simp only [setLead, setLeadAll, strippedTree]
    split
    · exact setLead_setLead head s t
    · exact setLead_setLead head s t
    · cases hlast : rest.getLast? with
      | none => simp only [Option.getD_none, setLead, setLeadAll, setLead_setLead]
      | some operand => rfl
    all_goals simp only [setLead, setLeadAll, setLead_setLead]

theorem solid_strippedTree {g : Green} (h : g.Every Solid) : (strippedTree g).Every Solid := by
  match g with
  | .token .. => exact h
  | .node _ _ _ [] _ => exact h
  | .node kind flags payload (head :: rest) labels =>
    have hhead : head.Every Solid := h.2.1
    have hrest : EveryIn Solid rest := h.2.2
    simp only [strippedTree]
    split
    · exact hhead
    · exact hhead
    · cases hlast : rest.getLast? with
      | none => exact h
      | some operand => exact everyIn_iff.mp hrest operand (List.mem_of_getLast? hlast)
    · refine ⟨List.cons_ne_nil _ _, hhead, ?_⟩
      unfold pointed
      split
      · exact ⟨trivial, hrest.2⟩
      · exact hrest
    · refine ⟨List.cons_ne_nil _ _, hhead, ?_⟩
      unfold undotted
      split
      · exact hrest.2
      · exact hrest
    · refine ⟨List.cons_ne_nil _ _, hhead, ?_⟩
      unfold undotted
      split
      · exact hrest.2
      · exact hrest
    · exact h

theorem Expr.isPlain_stripped {e : Expr} (h : e.every Expr.isPlain = true) :
    e.stripped.every Expr.isPlain = true := by
  cases e with
  | asType e _ | typeAssertion _ e | nonNull e =>
    simp only [Expr.every, Bool.and_eq_true] at h
    exact h.2
  | _ => exact h

/-- What is left of an expression is written as what is left of its tree. -/
theorem Expr.write_stripped {e : Expr} (h : e.every Expr.isPlain = true)
    (hform : e.isRewritable = true) {l : Layout} (hl : l.continues = false) :
    (e.stripped.write.run l).1.bare = (strippedTree (e.write.run l).1.bare).setLead l.pending ∧
      ((e.write.run l).2.cutText = none → (e.stripped.write.run l).2.cutText = none) := by
  have hself {e : Expr} (h : e.every Expr.isPlain = true) := setLead_bare_write h hl
  cases e with
  | asType e typeText =>
    simp only [Expr.every, Bool.and_eq_true] at h
    exact ⟨(hself h.2).symm, (writeType_writes typeText _).cut⟩
  | nonNull e =>
    simp only [Expr.every, Bool.and_eq_true] at h
    exact ⟨(hself h.2).symm, id⟩
  | typeAssertion typeText e =>
    simp only [Expr.every, Bool.and_eq_true] at h
    have htype := writeType_writes typeText (l.behind "<")
    have hnear : Near (((writeType typeText).run (l.behind "<")).2.behind ">") l :=
      ⟨htype.indent.symm, htype.continues.trans hl, hl, htype.cut⟩
    obtain ⟨htree, hnear⟩ := Expr.write_near h.2 hnear
    exact ⟨htree, hnear.cut⟩
  | binary left operator right => exact ⟨(hself h).symm, id⟩
  | property e optional name =>
    have hrest := hself h
    simp only [Expr.every, Bool.and_eq_true] at h
    cases optional
    · exact ⟨hrest.symm, id⟩
    · refine ⟨?_, id⟩
      have hin := hself h.2
      simp only [Expr.stripped, Expr.write, run_bind, run_pure, run_token, chainNode, bare,
        bareAll, strippedTree, setLead, setLeadAll, hin]
      rfl
  | element e optional argument =>
    have hrest := hself h
    simp only [Expr.every, Bool.and_eq_true] at h
    have he := Expr.writes e h.1.2 l hl
    cases optional
    · exact ⟨hrest.symm, id⟩
    · let opened := ((e.write.run l).2.behind "?.").behind "["
      have hopened : opened.continues = false := he.continues.trans hl
      have hnear : Near opened ((e.write.run l).2.behind "[") :=
        ⟨rfl, hopened, hopened, id⟩
      obtain ⟨htree, hnear⟩ := Expr.write_near h.2 hnear
      have hargument : (argument.write.run ((e.write.run l).2.behind "[")).1.bare =
          (argument.write.run opened).1.bare := htree.trans (setLead_bare_write h.2 hopened)
      have hclosed := (Expr.writes argument h.2 opened hopened).pending
      have hclosed' := (Expr.writes argument h.2 ((e.write.run l).2.behind "[") hopened).pending
      refine ⟨congrArg (Green.node .elementAccessExpression 0 .empty · []) ?_, hnear.cut⟩
      refine congrArg₂ List.cons (hself h.1.2).symm (congrArg₂ List.cons ?_
        (congrArg₂ List.cons hargument (congrArg ([·]) ?_)))
      · exact congrArg (mark · .openBracketToken) he.pending
      · exact congrArg (mark · .closeBracketToken) (hclosed'.trans hclosed.symm)
  | call callee optional arguments =>
    have hrest := hself h
    simp only [Expr.every, Bool.and_eq_true] at h
    have hcallee := Expr.writes callee h.1.2 l hl
    cases optional
    · exact ⟨hrest.symm, id⟩
    · let opened := ((callee.write.run l).2.behind "?.").behind "("
      have hopened : opened.continues = false := hcallee.continues.trans hl
      have hnear : Near opened ((callee.write.run l).2.behind "(") :=
        ⟨rfl, hopened, hopened, id⟩
      obtain ⟨htrees, hpending, hnear⟩ := Expr.writeList_near h.2 hnear rfl
      refine ⟨congrArg (Green.node .callExpression 0 .empty · []) ?_, hnear.cut⟩
      refine congrArg₂ List.cons (hself h.1.2).symm (congrArg₂ List.cons ?_ ?_)
      · exact congrArg (mark · .openParenToken) hcallee.pending
      · simp only [List.append_eq, bareAll_append]
        exact congrArg₂ (· ++ ·) htrees (congrArg (fun pending => [mark pending .closeParenToken])
          hpending)
  | _ => cases hform

/-- Taking marked assertions and steps away from expressions and from trees agrees. -/
theorem strips_agree (marked : Nat → Bool) :
    Agrees (fun n e => if marked n then e.stripped else e) (stripAt marked) where
  plain n e h := by
    split
    · exact Expr.isPlain_stripped h
    · exact h
  tree n e l h hform hl := by
    rw [stripAt]
    split
    · exact (Expr.write_stripped h hform hl).1
    · exact (setLead_bare_write h hl).symm
  cut n e l h hform hl hcut := by
    split
    · exact (Expr.write_stripped h hform hl).2 hcut
    · exact hcut
  lead n g s t := by
    rw [stripAt, stripAt]
    split
    · exact strippedTree_setLead g s t
    · exact setLead_setLead g s t

end TypeLint.Program
