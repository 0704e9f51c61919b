import TypeLint.Proofs.Emission.Bare
import TypeLint.Proofs.Program.Every
import TypeLint.Proofs.Program.Writing

namespace TypeLint.Program

open Syntax

/-- The number of nodes that an expression is written as. -/
def Expr.size (e : Expr) : Nat := (e.write.run .start).1.size

/-- The number of nodes that expressions are written as, with the commas between them. -/
def Expr.sizeIn (es : List Expr) : Nat := Green.sizeAll ((Expr.writeList es).run .start).1

/-- The number of nodes that a type is written as. -/
def typeSize (text : String) : Nat := ((writeType text).run .start).1.size

/-- The number of nodes that the parameters of a function are written as, with what is around. -/
def parametersSize (parameters : List String) : Nat :=
  Green.sizeAll ((writeParameterList parameters).run .start).1

/-- The number of nodes that the type of a variable is written as, with the colon. -/
def annotationSize (typeText : Option String) : Nat :=
  Green.sizeAll ((writeDeclaredType typeText).run .start).1

/-- The number of nodes that a statement is written as. -/
def Stmt.size (s : Stmt) : Nat := (s.write.run .start).1.size

/-- The number of nodes that the entries of a list of statements are written as. -/
def Item.sizeIn (items : List Item) : Nat := Green.sizeAll ((Item.writeList items).run .start).1

/-- The number of nodes that the entries of a list of clauses are written as. -/
def Clause.sizeIn (clauses : List Clause) : Nat :=
  Green.sizeAll ((Clause.writeList clauses).run .start).1

/-- The number of nodes that a clause is written as. -/
def Clause.size (c : Clause) : Nat := Green.sizeAll (c.write.run .start).1

/-- The number of nodes of the `?.` of an optional step that has a bracket of its own. -/
def questionDotSize (optional : Bool) : Nat := if optional then 1 else 0

mutual

/-- An expression whose first node has a given number after a change at each expression in it. -/
def Expr.rewrite (change : Nat → Expr → Expr) (first : Nat) : Expr → Expr
  | .identifier name => .identifier name
  | .string value => .string value
  | .number text => .number text
  | .bigint text => .bigint text
  | .template text => .template text
  | .substitution head spans => .substitution head spans
  | .keyword kind => .keyword kind
  | .paren e => .paren (e.rewrite change (first + 1))
  | .binary left operator right =>
    change (first + left.size + 1 + right.size) <|
      .binary (left.rewrite change first) operator (right.rewrite change (first + left.size + 1))
  | .prefixed operator e => .prefixed operator (e.rewrite change (first + 1))
  | .postfixed e operator => .postfixed (e.rewrite change first) operator
  | .nonNull e => change (first + e.size + 1) (.nonNull (e.rewrite change first))
  | .property e optional name =>
    change (first + e.size + 2) (.property (e.rewrite change first) optional name)
  | .element e optional argument =>
    change (first + e.size + questionDotSize optional + 1 + argument.size + 1) <|
      .element (e.rewrite change first) optional
        (argument.rewrite change (first + e.size + questionDotSize optional + 1))
  | .call callee optional arguments =>
    change (first + callee.size + questionDotSize optional + 1 + Expr.sizeIn arguments + 1) <|
      .call (callee.rewrite change first) optional
        (Expr.rewriteIn change (first + callee.size + questionDotSize optional + 1) arguments)
  | .conditional condition whenTrue whenFalse =>
    .conditional (condition.rewrite change first)
      (whenTrue.rewrite change (first + condition.size + 1))
      (whenFalse.rewrite change (first + condition.size + 1 + whenTrue.size + 1))
  | .asType e typeText =>
    change (first + e.size + 1 + typeSize typeText) (.asType (e.rewrite change first) typeText)
  | .satisfiesType e typeText => .satisfiesType (e.rewrite change first) typeText
  | .typeAssertion typeText e =>
    change (first + 1 + typeSize typeText + 1 + e.size) <|
      .typeAssertion typeText (e.rewrite change (first + 1 + typeSize typeText + 1))
  | .arrow parameters body =>
    .arrow parameters (body.rewrite change (first + parametersSize parameters + 1))
  | .arrowBlock parameters body =>
    .arrowBlock parameters (Item.rewriteIn change (first + parametersSize parameters + 2) body)
  | .function parameters body =>
    .function parameters (Item.rewriteIn change (first + 1 + parametersSize parameters + 1) body)
  | .array items => .array (Expr.rewriteIn change (first + 1) items)
  | .emptyObject => .emptyObject
  | .commentBefore text e => .commentBefore text (e.rewrite change first)
  | .commentAfter e text => .commentAfter (e.rewrite change first) text
  | .emptyCall callee optional text => .emptyCall (callee.rewrite change first) optional text
  | .emptyArray text => .emptyArray text
  | .typeNode text => .typeNode text
  | .labeled label e => .labeled label (e.rewrite change first)

/-- The expressions of a list after a change at each expression in them. -/
def Expr.rewriteIn (change : Nat → Expr → Expr) (first : Nat) : List Expr → List Expr
  | [] => []
  | e :: rest => e.rewrite change first :: Expr.rewriteIn change (first + e.size + 1) rest

/-- A statement after a change at each expression in it. -/
def Stmt.rewrite (change : Nat → Expr → Expr) (first : Nat) : Stmt → Stmt
  | .expression e => .expression (e.rewrite change first)
  | .variable kind name typeText => .variable kind name typeText
  | .initialized kind name typeText initializer =>
    .initialized kind name typeText
      (initializer.rewrite change (first + 2 + annotationSize typeText + 1))
  | .declared kind name typeText => .declared kind name typeText
  | .definite name typeText => .definite name typeText
  | .block body => .block (Item.rewriteIn change (first + 1) body)
  | .ifThen condition consequent =>
    .ifThen (condition.rewrite change (first + 2))
      (consequent.rewrite change (first + 2 + condition.size + 1))
  | .ifElse condition consequent alternative =>
    .ifElse (condition.rewrite change (first + 2))
      (consequent.rewrite change (first + 2 + condition.size + 1))
      (alternative.rewrite change (first + 2 + condition.size + 1 + consequent.size + 1))
  | .whileLoop condition body =>
    .whileLoop (condition.rewrite change (first + 2))
      (body.rewrite change (first + 2 + condition.size + 1))
  | .doLoop body condition =>
    .doLoop (body.rewrite change (first + 1))
      (condition.rewrite change (first + 1 + body.size + 2))
  | .forever body => .forever (body.rewrite change (first + 5))
  | .forLoop condition body =>
    .forLoop (condition.rewrite change (first + 3))
      (body.rewrite change (first + 3 + condition.size + 2))
  | .switch e clauses =>
    .switch (e.rewrite change (first + 2))
      (Clause.rewriteIn change (first + 2 + e.size + 2) clauses)
  | .breakOut => .breakOut
  | .returned e => .returned (e.rewrite change (first + 1))
  | .thrown e => .thrown (e.rewrite change (first + 1))
  | .commentBefore text s => .commentBefore text (s.rewrite change first)
  | .commentAfter s text => .commentAfter (s.rewrite change first) text
  | .labeled label s => .labeled label (s.rewrite change first)

/-- The entries of a list of statements after a change at each expression in them. -/
def Item.rewriteIn (change : Nat → Expr → Expr) (first : Nat) : List Item → List Item
  | [] => []
  | .comment text :: rest => .comment text :: Item.rewriteIn change first rest
  | .statement s :: rest =>
    .statement (s.rewrite change first) :: Item.rewriteIn change (first + s.size) rest

/-- Clauses after a change at each expression in them. -/
def Clause.rewriteIn (change : Nat → Expr → Expr) (first : Nat) : List Clause → List Clause
  | [] => []
  | c :: rest => c.rewrite change first :: Clause.rewriteIn change (first + c.size) rest

/-- A clause after a change at each expression in it. -/
def Clause.rewrite (change : Nat → Expr → Expr) (first : Nat) : Clause → Clause
  | .comment text => .comment text
  | .caseOf e body =>
    .caseOf (e.rewrite change (first + 1))
      (Item.rewriteIn change (first + 1 + e.size + 1) body)
  | .default body => .default (Item.rewriteIn change (first + 2) body)
  | .labeled label c => .labeled label (c.rewrite change first)

end

/-- A program after a change at each of its expressions. -/
def changed (change : Nat → Expr → Expr) (p : TypeLint.Program) : TypeLint.Program :=
  Item.rewriteIn change 0 p

theorem isEmpty_itemRewriteIn (change : Nat → Expr → Expr) (first : Nat) (items : List Item) :
    (Item.rewriteIn change first items).isEmpty = items.isEmpty := by
  match items with
  | [] => rfl
  | .comment text :: rest => rfl
  | .statement s :: rest => rfl

theorem isEmpty_clauseRewriteIn (change : Nat → Expr → Expr) (first : Nat)
    (clauses : List Clause) :
    (Clause.rewriteIn change first clauses).isEmpty = clauses.isEmpty := by
  cases clauses <;> rfl

/-- An expression with nothing in particular inside. -/
def Expr.shell : Expr → Expr
  | .paren _ => .paren .emptyObject
  | .binary _ operator _ => .binary .emptyObject operator .emptyObject
  | .prefixed operator _ => .prefixed operator .emptyObject
  | .postfixed _ operator => .postfixed .emptyObject operator
  | .nonNull _ => .nonNull .emptyObject
  | .property _ optional name => .property .emptyObject optional name
  | .element _ optional _ => .element .emptyObject optional .emptyObject
  | .call _ optional _ => .call .emptyObject optional []
  | .conditional _ _ _ => .conditional .emptyObject .emptyObject .emptyObject
  | .asType _ typeText => .asType .emptyObject typeText
  | .satisfiesType _ typeText => .satisfiesType .emptyObject typeText
  | .typeAssertion typeText _ => .typeAssertion typeText .emptyObject
  | .arrow parameters _ => .arrow parameters .emptyObject
  | .arrowBlock parameters _ => .arrowBlock parameters []
  | .function parameters _ => .function parameters []
  | .array _ => .array []
  | .commentBefore text _ => .commentBefore text .emptyObject
  | .commentAfter _ text => .commentAfter .emptyObject text
  | .emptyCall _ optional text => .emptyCall .emptyObject optional text
  | .labeled label _ => .labeled label .emptyObject
  | e => e

/-- A condition does not look at what is inside an expression. -/
def Shallow (q : Expr → Bool) : Prop := ∀ e e' : Expr, e.shell = e'.shell → q e = q e'

theorem Shallow.holds {q : Expr → Bool} (hq : Shallow q) {e e' : Expr} (h : q e = true)
    (heq : e.shell = e'.shell) : q e' = true :=
  (hq e e' heq).symm.trans h

theorem shallow_of_shell {q : Expr → Bool} (h : ∀ e, q e = q e.shell) : Shallow q :=
  fun e e' heq => by rw [h e, h e', heq]

theorem shallow_usesTokenKinds : Shallow Expr.usesTokenKinds :=
  shallow_of_shell fun e => by cases e <;> rfl

theorem shallow_isPlain : Shallow Expr.isPlain :=
  shallow_of_shell fun e => by cases e <;> rfl

section

set_option linter.unusedSectionVars false

variable {change : Nat → Expr → Expr} {q : Expr → Bool} (hq : Shallow q)
  (hchange : ∀ n e, e.every q = true → (change n e).every q = true)

include hq hchange

mutual

/-- A condition that every change keeps holds of what is changed. -/
theorem Expr.every_rewrite (e : Expr) (h : e.every q = true) (first : Nat) :
    (e.rewrite change first).every q = true := by
  cases e with
  | paren e =>
    simp only [Expr.every, Expr.rewrite, Bool.and_eq_true] at h ⊢
    exact ⟨hq.holds h.1 rfl, Expr.every_rewrite e h.2 _⟩
  | binary left operator right =>
    refine hchange _ _ ?_
    simp only [Expr.every, Bool.and_eq_true] at h ⊢
    exact ⟨⟨hq.holds h.1.1 rfl, Expr.every_rewrite left h.1.2 _⟩,
      Expr.every_rewrite right h.2 _⟩
  | prefixed operator e =>
    simp only [Expr.every, Expr.rewrite, Bool.and_eq_true] at h ⊢
    exact ⟨hq.holds h.1 rfl, Expr.every_rewrite e h.2 _⟩
  | postfixed e operator =>
    simp only [Expr.every, Expr.rewrite, Bool.and_eq_true] at h ⊢
    exact ⟨hq.holds h.1 rfl, Expr.every_rewrite e h.2 _⟩
  | nonNull e =>
    refine hchange _ _ ?_
    simp only [Expr.every, Bool.and_eq_true] at h ⊢
    exact ⟨hq.holds h.1 rfl, Expr.every_rewrite e h.2 _⟩
  | property e optional name =>
    refine hchange _ _ ?_
    simp only [Expr.every, Bool.and_eq_true] at h ⊢
    exact ⟨hq.holds h.1 rfl, Expr.every_rewrite e h.2 _⟩
  | element e optional argument =>
    refine hchange _ _ ?_
    simp only [Expr.every, Bool.and_eq_true] at h ⊢
    exact ⟨⟨hq.holds h.1.1 rfl, Expr.every_rewrite e h.1.2 _⟩,
      Expr.every_rewrite argument h.2 _⟩
  | call callee optional arguments =>
    refine hchange _ _ ?_
    simp only [Expr.every, Bool.and_eq_true] at h ⊢
    exact ⟨⟨hq.holds h.1.1 rfl, Expr.every_rewrite callee h.1.2 _⟩,
      Expr.everyIn_rewriteIn arguments h.2 _⟩
  | conditional condition whenTrue whenFalse =>
    simp only [Expr.every, Expr.rewrite, Bool.and_eq_true] at h ⊢
    exact ⟨⟨⟨hq.holds h.1.1.1 rfl, Expr.every_rewrite condition h.1.1.2 _⟩,
      Expr.every_rewrite whenTrue h.1.2 _⟩, Expr.every_rewrite whenFalse h.2 _⟩
  | asType e typeText =>
    refine hchange _ _ ?_
    simp only [Expr.every, Bool.and_eq_true] at h ⊢
    exact ⟨hq.holds h.1 rfl, Expr.every_rewrite e h.2 _⟩
  | satisfiesType e typeText =>
    simp only [Expr.every, Expr.rewrite, Bool.and_eq_true] at h ⊢
    exact ⟨hq.holds h.1 rfl, Expr.every_rewrite e h.2 _⟩
  | typeAssertion typeText e =>
    refine hchange _ _ ?_
    simp only [Expr.every, Bool.and_eq_true] at h ⊢
    exact ⟨hq.holds h.1 rfl, Expr.every_rewrite e h.2 _⟩
  | arrow parameters body =>
    simp only [Expr.every, Expr.rewrite, Bool.and_eq_true] at h ⊢
    exact ⟨hq.holds h.1 rfl, Expr.every_rewrite body h.2 _⟩
  | arrowBlock parameters body =>
    simp only [Expr.every, Expr.rewrite, Bool.and_eq_true] at h ⊢
    exact ⟨hq.holds h.1 rfl, Item.everyIn_rewriteIn body h.2 _⟩
  | function parameters body =>
    simp only [Expr.every, Expr.rewrite, Bool.and_eq_true] at h ⊢
    exact ⟨hq.holds h.1 rfl, Item.everyIn_rewriteIn body h.2 _⟩
  | array items =>
    simp only [Expr.every, Expr.rewrite, Bool.and_eq_true] at h ⊢
    exact ⟨hq.holds h.1 rfl, Expr.everyIn_rewriteIn items h.2 _⟩
  | commentBefore text e =>
    simp only [Expr.every, Expr.rewrite, Bool.and_eq_true] at h ⊢
    exact ⟨hq.holds h.1 rfl, Expr.every_rewrite e h.2 _⟩
  | commentAfter e text =>
    simp only [Expr.every, Expr.rewrite, Bool.and_eq_true] at h ⊢
    exact ⟨hq.holds h.1 rfl, Expr.every_rewrite e h.2 _⟩
  | emptyCall callee optional text =>
    simp only [Expr.every, Expr.rewrite, Bool.and_eq_true] at h ⊢
    exact ⟨hq.holds h.1 rfl, Expr.every_rewrite callee h.2 _⟩
  | labeled label e =>
    simp only [Expr.every, Expr.rewrite, Bool.and_eq_true] at h ⊢
    exact ⟨hq.holds h.1 rfl, Expr.every_rewrite e h.2 _⟩
  | _ => exact h

theorem Expr.everyIn_rewriteIn (es : List Expr) (h : Expr.everyIn q es = true) (first : Nat) :
    Expr.everyIn q (Expr.rewriteIn change first es) = true := by
  match es with
  | [] => rfl
  | e :: rest =>
    simp only [Expr.everyIn, Expr.rewriteIn, Bool.and_eq_true] at h ⊢
    exact ⟨Expr.every_rewrite e h.1 _, Expr.everyIn_rewriteIn rest h.2 _⟩

theorem Stmt.every_rewrite (s : Stmt) (h : s.every q = true) (first : Nat) :
    (s.rewrite change first).every q = true := by
  match s with
  | .expression e => exact Expr.every_rewrite e h _
  | .variable _ _ _ | .declared _ _ _ | .definite _ _ | .breakOut => rfl
  | .initialized _ _ _ initializer => exact Expr.every_rewrite initializer h _
  | .block body => exact Item.everyIn_rewriteIn body h _
  | .ifThen condition consequent =>
    simp only [Stmt.every, Stmt.rewrite, Bool.and_eq_true] at h ⊢
    exact ⟨Expr.every_rewrite condition h.1 _, Stmt.every_rewrite consequent h.2 _⟩
  | .ifElse condition consequent alternative =>
    simp only [Stmt.every, Stmt.rewrite, Bool.and_eq_true] at h ⊢
    exact ⟨⟨Expr.every_rewrite condition h.1.1 _, Stmt.every_rewrite consequent h.1.2 _⟩,
      Stmt.every_rewrite alternative h.2 _⟩
  | .whileLoop condition body =>
    simp only [Stmt.every, Stmt.rewrite, Bool.and_eq_true] at h ⊢
    exact ⟨Expr.every_rewrite condition h.1 _, Stmt.every_rewrite body h.2 _⟩
  | .doLoop body condition =>
    simp only [Stmt.every, Stmt.rewrite, Bool.and_eq_true] at h ⊢
    exact ⟨Stmt.every_rewrite body h.1 _, Expr.every_rewrite condition h.2 _⟩
  | .forever body => exact Stmt.every_rewrite body h _
  | .forLoop condition body =>
    simp only [Stmt.every, Stmt.rewrite, Bool.and_eq_true] at h ⊢
    exact ⟨Expr.every_rewrite condition h.1 _, Stmt.every_rewrite body h.2 _⟩
  | .switch e clauses =>
    simp only [Stmt.every, Stmt.rewrite, Bool.and_eq_true] at h ⊢
    exact ⟨Expr.every_rewrite e h.1 _, Clause.everyIn_rewriteIn clauses h.2 _⟩
  | .returned e => exact Expr.every_rewrite e h _
  | .thrown e => exact Expr.every_rewrite e h _
  | .commentBefore _ s | .commentAfter s _ | .labeled _ s => exact Stmt.every_rewrite s h _

theorem Item.everyIn_rewriteIn (items : List Item) (h : Item.everyIn q items = true)
    (first : Nat) : Item.everyIn q (Item.rewriteIn change first items) = true := by
  match items with
  | [] => rfl
  | .comment _ :: rest => exact Item.everyIn_rewriteIn rest h _
  | .statement s :: rest =>
    simp only [Item.everyIn, Item.rewriteIn, Bool.and_eq_true] at h ⊢
    exact ⟨Stmt.every_rewrite s h.1 _, Item.everyIn_rewriteIn rest h.2 _⟩

theorem Clause.everyIn_rewriteIn (clauses : List Clause) (h : Clause.everyIn q clauses = true)
    (first : Nat) : Clause.everyIn q (Clause.rewriteIn change first clauses) = true := by
  match clauses with
  | [] => rfl
  | c :: rest =>
    simp only [Clause.everyIn, Clause.rewriteIn, Bool.and_eq_true] at h ⊢
    exact ⟨Clause.every_rewrite c h.1 _, Clause.everyIn_rewriteIn rest h.2 _⟩

theorem Clause.every_rewrite (c : Clause) (h : c.every q = true) (first : Nat) :
    (c.rewrite change first).every q = true := by
  match c with
  | .comment _ => rfl
  | .caseOf e body =>
    simp only [Clause.every, Clause.rewrite, Bool.and_eq_true] at h ⊢
    exact ⟨Expr.every_rewrite e h.1 _, Item.everyIn_rewriteIn body h.2 _⟩
  | .default body => exact Item.everyIn_rewriteIn body h _
  | .labeled _ c => exact Clause.every_rewrite c h _

end

end

end TypeLint.Program
