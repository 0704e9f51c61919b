import TypeLint.Proofs.Program.Built
import TypeLint.Proofs.Program.Lossless

namespace TypeLint.Program

open Syntax Writer Green Text

/-- The expression is one of those of the program, at any depth. -/
def Stands (e : Expr) (p : TypeLint.Program) : Prop :=
  ∀ q : Expr → Bool, Item.everyIn q p = true → q e = true

/-- The tree with more labels on its outermost node. -/
def relabeled (labels : List String) (g : Green) : Green := labels.foldr Green.withLabel g

/-- The spot of an expression, wherever it was written and whatever its labels. -/
def IsSpotOf (e : Expr) (s : Spot) : Prop :=
  ∃ labels l, s.green = relabeled labels (e.write.run l).1

theorem everyIn_of_braced {P : Green → Prop} {isEmpty : Bool} {contents : Writer (List Green)}
    {l : Layout} (h : EveryIn P ((braced isEmpty contents).run l).1) :
    ∃ l', EveryIn P (contents.run l').1 := by
  rw [run_braced] at h
  exact ⟨_, (everyIn_append_iff.mp h.2).1⟩

theorem every_of_forall_mem_all {P : Green → Prop} (s : Spot) (h : ∀ x ∈ s.all, P x.green) :
    s.green.Every P := by
  induction s using Spot.inductionOnChildren with
  | step s ih =>
    have hself := h s s.self_mem_all
    cases hs : s.green with
    | token lead kind text payload labels => rwa [hs] at hself
    | node kind flags payload gs labels =>
      rw [hs] at hself
      refine ⟨hself, everyIn_iff.mpr fun g hg => ?_⟩
      rw [← Spot.map_green_row s.first s.offset s.ref gs, ← Spot.children_of_node hs,
        List.mem_map] at hg
      obtain ⟨c, hc, rfl⟩ := hg
      exact ih c hc fun x hx => h x (Spot.mem_all_iff.mpr (.inl ⟨c, hc, hx⟩))

section

variable {Q : Green → Prop} {q : Expr → Bool}
  (hlabel : ∀ g label, Q (g.withLabel label) → Q g)
  (hq : ∀ (e : Expr) l, Q (e.write.run l).1 → q e = true)

include hlabel in
theorem every_of_withLabel {g : Green} {label : String} (h : (g.withLabel label).Every Q) :
    g.Every Q := by
  cases g with
  | token lead kind text payload labels => exact hlabel _ label h
  | node kind flags payload children labels => exact ⟨hlabel _ label h.1, h.2⟩

include hlabel hq

-- Each of the theorems below needs both for the others.
set_option linter.unusedSectionVars false

mutual

theorem Expr.every_of_write (e : Expr) (l : Layout) (h : (e.write.run l).1.Every Q) :
    e.every q = true := by
  have hself := hq e l h.self
  cases e with
  | identifier | string | number | bigint | template | substitution | keyword | emptyObject
  | emptyArray | typeNode => exact hself
  | paren e => exact Bool.and_eq_true_iff.mpr ⟨hself, Expr.every_of_write e _ h.2.2.1⟩
  | binary left operator right =>
    simp only [Expr.every, Bool.and_eq_true]
    exact ⟨⟨hself, Expr.every_of_write left _ h.2.1⟩, Expr.every_of_write right _ h.2.2.2.1⟩
  | prefixed operator e =>
    rw [run_prefixed] at h
    exact Bool.and_eq_true_iff.mpr ⟨hself, Expr.every_of_write e _ h.2.2.1⟩
  | postfixed e operator | nonNull e | property e optional name | asType e typeText
  | satisfiesType e typeText =>
    exact Bool.and_eq_true_iff.mpr ⟨hself, Expr.every_of_write e _ h.2.1⟩
  | element e optional argument =>
    simp only [Expr.write, run_bind, run_pure, run_token, run_writeQuestionDot] at h
    simp only [Expr.every, Bool.and_eq_true]
    exact ⟨⟨hself, Expr.every_of_write e _ h.2.1⟩,
      Expr.every_of_write argument _ (everyIn_append_iff.mp h.2.2).2.2.1⟩
  | call callee optional arguments =>
    simp only [Expr.write, run_bind, run_pure, run_token, run_writeQuestionDot] at h
    simp only [Expr.every, Bool.and_eq_true]
    refine ⟨⟨hself, Expr.every_of_write callee _ h.2.1⟩, ?_⟩
    exact Expr.everyIn_of_writeList arguments _
      (everyIn_append_iff.mp (everyIn_append_iff.mp h.2.2).1).2.2
  | conditional condition whenTrue whenFalse =>
    simp only [Expr.every, Bool.and_eq_true]
    exact ⟨⟨⟨hself, Expr.every_of_write condition _ h.2.1⟩,
      Expr.every_of_write whenTrue _ h.2.2.2.1⟩, Expr.every_of_write whenFalse _ h.2.2.2.2.2.1⟩
  | typeAssertion typeText e =>
    exact Bool.and_eq_true_iff.mpr ⟨hself, Expr.every_of_write e _ h.2.2.2.2.1⟩
  | arrow parameters body =>
    have hbody := (everyIn_append_iff.mp h.2).2.2.1
    exact Bool.and_eq_true_iff.mpr ⟨hself, Expr.every_of_write body _ hbody⟩
  | arrowBlock parameters body =>
    obtain ⟨l', hbody⟩ := everyIn_of_braced (everyIn_append_iff.mp h.2).2.2.1.2
    exact Bool.and_eq_true_iff.mpr ⟨hself, Item.everyIn_of_writeList body l' hbody⟩
  | function parameters body =>
    obtain ⟨l', hbody⟩ := everyIn_of_braced (everyIn_append_iff.mp h.2).2.1.2
    exact Bool.and_eq_true_iff.mpr ⟨hself, Item.everyIn_of_writeList body l' hbody⟩
  | array items =>
    have hitems := (everyIn_append_iff.mp h.2.2).1
    exact Bool.and_eq_true_iff.mpr ⟨hself, Expr.everyIn_of_writeList items _ hitems⟩
  | commentBefore text e => exact Bool.and_eq_true_iff.mpr ⟨hself, Expr.every_of_write e _ h⟩
  | commentAfter e text => exact Bool.and_eq_true_iff.mpr ⟨hself, Expr.every_of_write e _ h⟩
  | emptyCall callee optional text =>
    exact Bool.and_eq_true_iff.mpr ⟨hself, Expr.every_of_write callee _ h.2.1⟩
  | labeled label e =>
    exact Bool.and_eq_true_iff.mpr
      ⟨hself, Expr.every_of_write e _ (every_of_withLabel hlabel h)⟩

theorem Expr.everyIn_of_writeList (es : List Expr) (l : Layout)
    (h : EveryIn Q ((Expr.writeList es).run l).1) : Expr.everyIn q es = true := by
  match es with
  | [] => rfl
  | [e] => exact Bool.and_eq_true_iff.mpr ⟨Expr.every_of_write e l h.1, rfl⟩
  | e :: next :: rest =>
    exact Bool.and_eq_true_iff.mpr ⟨Expr.every_of_write e l h.1,
      Expr.everyIn_of_writeList (next :: rest) _ h.2.2⟩

theorem Stmt.every_of_write (s : Stmt) (l : Layout) (h : (s.write.run l).1.Every Q) :
    s.every q = true := by
  match s with
  | .variable .. | .declared .. | .definite .. | .breakOut => rfl
  | .expression e => exact Expr.every_of_write e _ h.2.1
  | .initialized kind name typeText initializer =>
    rw [Stmt.write, writeVariable_eq] at h
    exact Expr.every_of_write initializer _
      (everyIn_append_iff.mp (everyIn_append_iff.mp h.2).2.1.2.2.1.2.2).2.2.1
  | .block body =>
    obtain ⟨l', hbody⟩ := everyIn_of_braced h.2
    exact Item.everyIn_of_writeList body l' hbody
  | .ifThen condition consequent =>
    exact Bool.and_eq_true_iff.mpr ⟨Expr.every_of_write condition _ h.2.2.2.1,
      Stmt.every_of_write consequent _ h.2.2.2.2.2.1⟩
  | .ifElse condition consequent alternative =>
    simp only [Stmt.every, Bool.and_eq_true]
    exact ⟨⟨Expr.every_of_write condition _ h.2.2.2.1, Stmt.every_of_write consequent _ h.2.2.2.2.2.1⟩,
      Stmt.every_of_write alternative _ h.2.2.2.2.2.2.2.1⟩
  | .whileLoop condition body =>
    exact Bool.and_eq_true_iff.mpr ⟨Expr.every_of_write condition _ h.2.2.2.1,
      Stmt.every_of_write body _ h.2.2.2.2.2.1⟩
  | .doLoop body condition =>
    exact Bool.and_eq_true_iff.mpr ⟨Stmt.every_of_write body _ h.2.2.1,
      Expr.every_of_write condition _ h.2.2.2.2.2.1⟩
  | .forever body => exact Stmt.every_of_write body _ h.2.2.2.2.2.2.1
  | .forLoop condition body =>
    exact Bool.and_eq_true_iff.mpr ⟨Expr.every_of_write condition _ h.2.2.2.2.1,
      Stmt.every_of_write body _ h.2.2.2.2.2.2.2.1⟩
  | .switch e clauses =>
    obtain ⟨l', hclauses⟩ := everyIn_of_braced h.2.2.2.2.2.1.2
    exact Bool.and_eq_true_iff.mpr ⟨Expr.every_of_write e _ h.2.2.2.1,
      Clause.everyIn_of_writeList clauses l' hclauses⟩
  | .returned e => exact Expr.every_of_write e _ h.2.2.1
  | .thrown e => exact Expr.every_of_write e _ h.2.2.1
  | .commentBefore text s => exact Stmt.every_of_write s _ h
  | .commentAfter s text => exact Stmt.every_of_write s _ h
  | .labeled label s => exact Stmt.every_of_write s _ (every_of_withLabel hlabel h)

theorem Item.everyIn_of_writeList (items : List Item) (l : Layout)
    (h : EveryIn Q ((Item.writeList items).run l).1) : Item.everyIn q items = true := by
  match items with
  | [] => rfl
  | .comment text :: rest => exact Item.everyIn_of_writeList rest _ h
  | .statement s :: rest =>
    exact Bool.and_eq_true_iff.mpr
      ⟨Stmt.every_of_write s l h.1, Item.everyIn_of_writeList rest _ h.2⟩

theorem Clause.everyIn_of_writeList (clauses : List Clause) (l : Layout)
    (h : EveryIn Q ((Clause.writeList clauses).run l).1) : Clause.everyIn q clauses = true := by
  match clauses with
  | [] => rfl
  | c :: rest =>
    obtain ⟨hfirst, hrest⟩ := everyIn_append_iff.mp h
    exact Bool.and_eq_true_iff.mpr
      ⟨Clause.every_of_write c l hfirst, Clause.everyIn_of_writeList rest _ hrest⟩

theorem Clause.every_of_write (c : Clause) (l : Layout) (h : EveryIn Q (c.write.run l).1) :
    c.every q = true := by
  cases c with
  | comment text => rfl
  | caseOf e body =>
    exact Bool.and_eq_true_iff.mpr ⟨Expr.every_of_write e _ h.1.2.2.1,
      Item.everyIn_of_writeList body _ h.1.2.2.2.2⟩
  | default body => exact Item.everyIn_of_writeList body _ h.1.2.2.2
  | labeled label c =>
    refine Clause.every_of_write c l (everyIn_iff.mpr fun g hg => ?_)
    exact every_of_withLabel hlabel
      (everyIn_iff.mp h (g.withLabel label) (List.mem_map_of_mem hg))

end

end

/-- An expression of a program has its spot in the file. -/
theorem exists_isSpotOf {e : Expr} {p : TypeLint.Program} (h : Stands e p) :
    ∃ x ∈ (wholeSpot p).all, IsSpotOf e x := by
  classical
  by_contra hnone
  have hevery : (whole p).Every fun g => ∀ labels l, g ≠ relabeled labels (e.write.run l).1 :=
    every_of_forall_mem_all (wholeSpot p) fun x hx labels l hgreen =>
      hnone ⟨x, hx, labels, l, hgreen⟩
  have hothers : Item.everyIn (fun other => !decide (other = e)) p = true := by
    refine Item.everyIn_of_writeList
      (fun g label hg labels l hgreen => hg (label :: labels) l (congrArg _ hgreen))
      (fun other l hother => ?_) p _ (everyIn_append_iff.mp hevery.2).1
    rw [Bool.not_eq_true', decide_eq_false_iff_not]
    rintro rfl
    exact hother [] l rfl
  simpa using h _ hothers

/-- Labels leave alone what one label leaves alone. -/
theorem relabeled_eq {β : Type} {read : Green → β}
    (h : ∀ g label, read (g.withLabel label) = read g) (labels : List String) (g : Green) :
    read (relabeled labels g) = read g := by
  induction labels with
  | nil => rfl
  | cons label labels ih =>
    rw [← ih, relabeled, List.foldr_cons, ← relabeled]
    exact h _ label

theorem body_relabeled (labels : List String) (g : Green) : (relabeled labels g).body = g.body :=
  relabeled_eq (fun g _ => by cases g <;> rfl) labels g

theorem kind_relabeled (labels : List String) (g : Green) : (relabeled labels g).kind = g.kind :=
  relabeled_eq (fun g _ => by cases g <;> rfl) labels g

theorem payloadOver_relabeled (refs : List NodeRef) (labels : List String) (g : Green) :
    (relabeled labels g).payloadOver refs = g.payloadOver refs :=
  relabeled_eq (fun g _ => by cases g <;> rfl) labels g

/-- The text of a node is the one that its spot has behind its leading trivia. -/
theorem Shown.nodeText_eq {p : TypeLint.Program} {f : SourceFile} (hf : Shown p f) {x : Spot}
    (hx : x ∈ (wholeSpot p).all) : f.nodeText x.ref = x.green.body := by
  rw [SourceFile.nodeText, hf.shows.get?_eq hx]
  simp only [Spot.node, slice, hf.text, slice?_body_whole hx, Option.getD_some]

end TypeLint.Program
