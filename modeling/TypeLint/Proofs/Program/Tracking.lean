import TypeLint.Proofs.Program.Built
import TypeLint.Proofs.Program.Quiet

namespace TypeLint.Program

open Syntax Writer Green

/-- The expression is one of those that a change may concern. -/
def Expr.isRewritable : Expr → Bool
  | .binary _ _ _ | .nonNull _ | .property _ _ _ | .element _ _ _ | .call _ _ _ | .asType _ _
  | .typeAssertion _ _ => true
  | _ => false

/-- Changing an expression without comments changes the tree that it is written as, up to the
    trivia in front of it. -/
structure Agrees (change : Nat → Expr → Expr) (recast : Nat → Green → Green) : Prop where
  plain : ∀ n e, e.every Expr.isPlain = true → (change n e).every Expr.isPlain = true
  tree : ∀ n e l, e.every Expr.isPlain = true → e.isRewritable = true → l.continues = false →
    ((change n e).write.run l).1.bare = (recast n (e.write.run l).1.bare).setLead l.pending
  cut : ∀ n e l, e.every Expr.isPlain = true → e.isRewritable = true → l.continues = false →
    (e.write.run l).2.cutText = none → ((change n e).write.run l).2.cutText = none
  lead : ∀ n g s t, (recast n (g.setLead s)).setLead t = (recast n g).setLead t

/-- Two layouts between the statements of which only what is pending and what was written last may
    differ. -/
structure Near (l l' : Layout) : Prop where
  indent : l'.indent = l.indent
  left : l.continues = false
  right : l'.continues = false
  cut : l.cutText = none → l'.cutText = none

theorem Near.behind {l l' : Layout} (h : Near l l') (text text' : String) :
    Near (l.behind text) (l'.behind text') :=
  ⟨h.indent, h.left, h.right, h.cut⟩

theorem Near.withTrivia {l l' : Layout} (h : Near l l') (text text' : String) :
    Near (l.withTrivia text) (l'.withTrivia text') :=
  ⟨h.indent, h.left, h.right, h.cut⟩

/-- Two layouts in the same place, of which the second one has met no cut text if the first one
    has not. -/
structure Same (l l' : Layout) : Prop where
  pending : l'.pending = l.pending
  last : l'.last = l.last
  indent : l'.indent = l.indent
  continues : l'.continues = l.continues
  cut : l.cutText = none → l'.cutText = none

theorem Same.near {l l' : Layout} (h : Same l l') (hl : l.continues = false) : Near l l' :=
  ⟨h.indent, hl, h.continues.trans hl, h.cut⟩

/-- Behind a token that is not empty, near layouts are in the same place. -/
theorem Near.same {l l' : Layout} (h : Near l l') (text : String)
    (htext : ∀ before before', lastOf text before = lastOf text before') :
    Same (l.behind text) (l'.behind text) :=
  ⟨rfl, htext _ _, h.indent, h.right.trans h.left.symm, h.cut⟩

theorem Same.withTrivia {l l' : Layout} (h : Same l l') (text : String) :
    Same (l.withTrivia text) (l'.withTrivia text) :=
  ⟨congrArg (· ++ text) h.pending, congrArg (lastOf text) h.last, h.indent, h.continues, h.cut⟩

theorem Same.deeper {l l' : Layout} (h : Same l l') : Same l.deeper l'.deeper :=
  ⟨h.pending, h.last, congrArg (· + 1) h.indent, h.continues, h.cut⟩

theorem Same.shallower {l l' : Layout} (h : Same l l') : Same l.shallower l'.shallower :=
  ⟨h.pending, h.last, congrArg (· - 1) h.indent, h.continues, h.cut⟩

theorem Same.continuing {l l' : Layout} (h : Same l l') (continues : Bool) :
    Same (l.continuing continues) (l'.continuing continues) :=
  ⟨h.pending, h.last, h.indent, rfl, h.cut⟩

theorem Same.lineStart {l l' : Layout} (h : Same l l') : l'.lineStart = l.lineStart := by
  simp only [Layout.lineStart, h.indent]

theorem Same.behind {l l' : Layout} (h : Same l l') (text : String) :
    Same (l.behind text) (l'.behind text) :=
  ⟨rfl, by simp only [Layout.behind, h.pending, h.last], h.indent, h.continues, h.cut⟩

theorem Same.inline {l l' : Layout} (h : Same l l') : Same l.inline l'.inline :=
  (h.withTrivia " ").continuing true

theorem Near.head {l l' : Layout} (h : Near l l') (word : String) :
    Near (l.head word) (l'.head word) :=
  ((h.behind word word).withTrivia " " " ").behind "(" "("

theorem Near.closed {l l' : Layout} (h : Near l l') : Same (l.behind ")") (l'.behind ")") :=
  h.same _ fun _ _ => rfl

theorem Same.newline {l l' : Layout} (h : Same l l') :
    Same (l.withTrivia l.lineStart) (l'.withTrivia l'.lineStart) := by
  rw [h.lineStart]
  exact h.withTrivia _

theorem Same.begun {l l' : Layout} (h : Same l l') : Same l.begun l'.begun := by
  cases hcontinues : l.continues with
  | true =>
    have hbegun : l.begun = l.continuing false := by simp [Layout.begun, hcontinues, Layout.continuing]
    have hbegun' : l'.begun = l'.continuing false := by
      simp [Layout.begun, h.continues, hcontinues, Layout.continuing]
    rw [hbegun, hbegun']
    exact h.continuing false
  | false =>
    simp only [Layout.begun, h.continues, hcontinues, h.last, Bool.false_eq_true, if_false]
    split
    · exact h.newline
    · exact h

theorem pending_withTrivia (l : Layout) (text : String) :
    (l.withTrivia text).pending = l.pending ++ text := rfl

theorem rewriteAll_map_withLabel (recast : Nat → Green → Green) (first : Nat) (gs : List Green)
    (label : String) :
    rewriteAll recast first (gs.map (·.withLabel label)) = rewriteAll recast first gs := by
  induction gs generalizing first with
  | nil => rfl
  | cons g gs ih =>
    simp only [List.map_cons, rewriteAll, rewrite_withLabel, size_withLabel, ih]

/-- The second row of trees is the first one after a change. -/
def Row (recast : Nat → Green → Green) (first : Nat) (gs gs' : List Green) : Prop :=
  bareAll gs' = rewriteAll recast first gs

/-- The second row of trees is the first one after a change, with other trivia in front. -/
def Front (recast : Nat → Green → Green) (lead : String) (first : Nat) (gs gs' : List Green) :
    Prop :=
  bareAll gs' = setLeadAll lead (rewriteAll recast first gs)

section

variable {recast : Nat → Green → Green} {first count : Nat} {lead : String} {g g' : Green}
  {gs gs' hs hs' : List Green}

theorem Row.nil : Row recast first [] [] := rfl

theorem Row.cons (h : g'.bare = g.rewrite recast first) (hsize : g.size = count)
    (hrest : Row recast (first + count) gs gs') : Row recast first (g :: gs) (g' :: gs') := by
  subst hsize
  simp only [Row, bareAll, rewriteAll] at hrest ⊢
  rw [h, hrest]

theorem Row.mark {kind : Kind} {lead' : String} (hlead : lead' = lead)
    (hrest : Row recast (first + 1) gs gs') :
    Row recast first (Program.mark lead kind :: gs) (Program.mark lead' kind :: gs') :=
  .cons (by rw [hlead]; rfl) rfl hrest

theorem Row.append (h : Row recast first gs gs') (hsize : sizeAll gs = count)
    (hrest : Row recast (first + count) hs hs') : Row recast first (gs ++ hs) (gs' ++ hs') := by
  subst hsize
  simp only [Row] at h hrest ⊢
  rw [bareAll_append, rewriteAll_append, h, hrest]

theorem Front.cons (h : g'.bare = (g.rewrite recast first).setLead lead) (hsize : g.size = count)
    (hrest : Row recast (first + count) gs gs') :
    Front recast lead first (g :: gs) (g' :: gs') := by
  subst hsize
  simp only [Row, Front, bareAll, rewriteAll, setLeadAll] at hrest ⊢
  rw [h, hrest]

theorem Front.mark {kind : Kind} {lead' : String} (hrest : Row recast (first + 1) gs gs') :
    Front recast lead first (Program.mark lead' kind :: gs) (Program.mark lead kind :: gs') :=
  .cons rfl rfl hrest

theorem Front.append (h : Front recast lead first gs gs') (hne : gs ≠ [])
    (hsize : sizeAll gs = count) (hrest : Row recast (first + count) hs hs') :
    Front recast lead first (gs ++ hs) (gs' ++ hs') := by
  subst hsize
  cases gs with
  | nil => exact absurd rfl hne
  | cons g gs =>
    simp only [Row, Front, bareAll_append, rewriteAll, setLeadAll, List.cons_append,
      rewriteAll_append, sizeAll_cons, Nat.add_assoc] at h hrest ⊢
    rw [h, hrest, List.cons_append]

theorem Front.row (h : Front recast lead first gs gs') (hlead : leadAll gs = lead) :
    Row recast first gs gs' := by
  rw [Row, h, ← hlead, setLeadAll_rewriteAll]

/-- A node that no change concerns has changed children. -/
theorem Front.node (h : Front recast lead first gs gs') {kind : Kind}
    (hkind : Syntax.isRewritable kind = false) {flags flags' : Nat} {payload payload' : Payload}
    {labels labels' : List String} :
    (Green.node kind flags' payload' gs' labels').bare =
      ((Green.node kind flags payload gs labels).rewrite recast first).setLead lead := by
  simp only [Front, bare, Green.rewrite, hkind, Bool.false_eq_true, if_false, setLead] at h ⊢
  rw [h]

theorem Row.node (h : Row recast first gs gs') {kind : Kind}
    (hkind : Syntax.isRewritable kind = false) {flags flags' : Nat} {payload payload' : Payload}
    {labels labels' : List String} :
    (Green.node kind flags' payload' gs' labels').bare =
      (Green.node kind flags payload gs labels).rewrite recast first := by
  simp only [Row, bare, Green.rewrite, hkind, Bool.false_eq_true, if_false] at h ⊢
  rw [h]

end

mutual

/-- A type is written as the same tree behind whatever is pending. -/
theorem TypeText.write_near (t : TypeText) (h : t.Proper) {l l' : Layout} (hl : Near l l') :
    (t.write.run l').1 = (t.write.run l).1.setLead l'.pending ∧
      Near (t.write.run l).2 (t.write.run l').2 := by
  cases t with
  | keyword kind text => exact ⟨rfl, hl.behind _ _⟩
  | literal kind text value =>
    simp only [TypeText.write, run_literalType]
    cases value with
    | none =>
      refine ⟨rfl, hl.indent, hl.left, hl.right, fun hcut => ?_⟩
      change l.cutText.or (some text) = none at hcut
      simp at hcut
    | some value => exact ⟨rfl, hl.behind _ _⟩
  | name text => exact ⟨rfl, hl.behind _ _⟩
  | array element =>
    obtain ⟨htree, hnear⟩ := TypeText.write_near element h hl
    have hpending := (TypeText.onward element h l).2.2
    have hpending' := (TypeText.onward element h l').2.2
    refine ⟨?_, (hnear.behind _ _).behind _ _⟩
    simp only [TypeText.write, run_bind, run_pure, run_token, htree, hpending, hpending', branch,
      setLead, setLeadAll]
    rfl
  | union parts =>
    obtain ⟨htrees, hnear⟩ := TypeText.writeParts_near .barToken parts h.2 hl
    refine ⟨?_, hnear⟩
    simp only [TypeText.write, run_bind, run_pure, htrees, branch, setLead]
  | intersection parts =>
    obtain ⟨htrees, hnear⟩ := TypeText.writeParts_near .ampersandToken parts h.2 hl
    refine ⟨?_, hnear⟩
    simp only [TypeText.write, run_bind, run_pure, htrees, branch, setLead]

theorem TypeText.writeParts_near (separator : Kind) (parts : List TypeText)
    (h : TypeText.ProperIn parts) {l l' : Layout} (hl : Near l l') :
    ((TypeText.writeParts separator parts).run l').1 =
        setLeadAll l'.pending ((TypeText.writeParts separator parts).run l).1 ∧
      Near ((TypeText.writeParts separator parts).run l).2
        ((TypeText.writeParts separator parts).run l').2 := by
  match parts with
  | [] => exact ⟨rfl, hl⟩
  | [part] =>
    obtain ⟨htree, hnear⟩ := TypeText.write_near part h.1 hl
    refine ⟨?_, hnear⟩
    simp only [TypeText.writeParts, run_bind, run_pure, htree, setLeadAll]
  | part :: next :: rest =>
    obtain ⟨htree, hnear⟩ := TypeText.write_near part h.1 hl
    have hpending := (TypeText.onward part h.1 l).2.2
    have hpending' := (TypeText.onward part h.1 l').2.2
    obtain ⟨htrees, hnears⟩ := TypeText.writeParts_near separator (next :: rest) h.2
      (((hnear.withTrivia " " " ").behind ((separator.text?).getD "")
        ((separator.text?).getD "")).withTrivia " " " ")
    have hlead := (TypeText.onwardParts separator (next :: rest) h.2 (by simp)
      (((((TypeText.write part).run l).2.withTrivia " ").behind
        ((separator.text?).getD "")).withTrivia " ")).2.1
    have hsame : ((TypeText.writeParts separator (next :: rest)).run
        (((((TypeText.write part).run l').2.withTrivia " ").behind
          ((separator.text?).getD "")).withTrivia " ")).1 =
        ((TypeText.writeParts separator (next :: rest)).run
          (((((TypeText.write part).run l).2.withTrivia " ").behind
            ((separator.text?).getD "")).withTrivia " ")).1 := by
      rw [htrees]
      exact (congrArg (setLeadAll · _) hlead.symm).trans (setLeadAll_leadAll _)
    refine ⟨?_, hnears⟩
    simp only [TypeText.writeParts, run_bind, run_pure, run_token, run_space, htree, hsame,
      setLeadAll, pending_withTrivia, hpending, hpending']

end

theorem isRewritable_eq_false_of_isTypePart {kind : Kind} (h : isTypePart kind = true) :
    Syntax.isRewritable kind = false := by
  unfold Syntax.isRewritable
  split <;> first | rfl | cases h

/-- Writing two trees leads from near layouts to near layouts, and the second tree is the first
    one after a change. -/
structure Tracks (recast : Nat → Green → Green) (first : Nat) (l l' : Layout) (g g' : Green)
    (m m' : Layout) : Prop where
  tree : g'.bare = (g.rewrite recast first).setLead l'.pending
  near : Near m m'
  left : Writes l g m
  right : Writes l' g' m'

namespace Tracks

variable {recast : Nat → Green → Green} {first : Nat} {l l' : Layout} {g g' : Green}
  {m m' : Layout}

/-- Behind the same trivia the second tree is just the first one after a change. -/
theorem inner (h : Tracks recast first l l' g g' m m') (hl : l'.pending = l.pending) :
    g'.bare = g.rewrite recast first := by
  rw [h.tree, hl, ← h.left.lead, setLead_rewrite]

theorem pending_eq (h : Tracks recast first l l' g g' m m') : m'.pending = m.pending :=
  h.right.pending.trans h.left.pending.symm

end Tracks

theorem writeType_tracks (recast : Nat → Green → Green) (first : Nat) (text : String)
    {l l' : Layout} (hl : Near l l') :
    Tracks recast first l l' ((writeType text).run l).1 ((writeType text).run l').1
      ((writeType text).run l).2 ((writeType text).run l').2 := by
  obtain ⟨htree, hnear⟩ := TypeText.write_near _ (TypeText.ofText_proper text) hl
  have htype := (writeType_isType text l).imp fun _ => isRewritable_eq_false_of_isTypePart
  refine ⟨?_, hnear, writeType_writes text l, writeType_writes text l'⟩
  rw [rewrite_eq_bare _ _ _ htype, ← bare_setLead]
  exact congrArg bare htree

theorem writeParameters_near (names : List String) {l l' : Layout} (hl : Near l l')
    (hpending : l'.pending = l.pending) :
    ((writeParameters names).run l').1 = ((writeParameters names).run l).1 ∧
      ((writeParameters names).run l').2.pending = ((writeParameters names).run l).2.pending ∧
      Near ((writeParameters names).run l).2 ((writeParameters names).run l').2 := by
  induction names generalizing l l' with
  | nil => exact ⟨rfl, hpending, hl⟩
  | cons name rest ih =>
    have hparameter : branch .parameter (.parameter ⟨some 0, none⟩)
          [.token l'.pending .identifier name (.identifier name) []] =
        branch .parameter (.parameter ⟨some 0, none⟩)
          [.token l.pending .identifier name (.identifier name) []] := by rw [hpending]
    cases rest with
    | nil => exact ⟨congrArg ([·]) hparameter, rfl, hl.behind _ _⟩
    | cons next rest =>
      obtain ⟨htrees, hpending, hnear⟩ :=
        ih (((hl.behind name name).behind "," ",").withTrivia " " " ") rfl
      exact ⟨congrArg₂ List.cons hparameter (congrArg (List.cons _) htrees), hpending, hnear⟩

theorem writeSpans_near (spans : List (String × String)) {l l' : Layout} (hl : Near l l')
    (hpending : l'.pending = l.pending) :
    ((writeSpans spans).run l').1 = ((writeSpans spans).run l).1 ∧
      Near ((writeSpans spans).run l).2 ((writeSpans spans).run l').2 := by
  induction spans generalizing l l' with
  | nil => exact ⟨rfl, hl⟩
  | cons span rest ih =>
    obtain ⟨name, text⟩ := span
    have hspan (tail : Green) : branch .templateSpan (.templateSpan ⟨some 0, some 1⟩)
          [.token l'.pending .identifier name (.identifier name) [], tail] =
        branch .templateSpan (.templateSpan ⟨some 0, some 1⟩)
          [.token l.pending .identifier name (.identifier name) [], tail] := by rw [hpending]
    cases rest with
    | nil => exact ⟨congrArg ([·]) (hspan _), (hl.behind _ _).behind _ _⟩
    | cons next rest =>
      obtain ⟨htrees, hnear⟩ := ih ((hl.behind name name).behind
        ("\x7d" ++ text ++ "$\x7b") ("\x7d" ++ text ++ "$\x7b")) rfl
      exact ⟨congrArg₂ List.cons (hspan _) htrees, hnear⟩

theorem isRewritable_eq_false_of_parameters (names : List String) (l : Layout) :
    EveryIn (fun g => Syntax.isRewritable g.kind = false) ((writeParameters names).run l).1 := by
  induction names generalizing l with
  | nil => trivial
  | cons name rest ih =>
    cases rest with
    | nil => exact ⟨⟨rfl, rfl, trivial⟩, trivial⟩
    | cons next rest => exact ⟨⟨rfl, rfl, trivial⟩, rfl, ih _⟩

theorem isRewritable_eq_false_of_spans (spans : List (String × String)) (l : Layout) :
    EveryIn (fun g => Syntax.isRewritable g.kind = false) ((writeSpans spans).run l).1 := by
  induction spans generalizing l with
  | nil => trivial
  | cons span rest ih =>
    obtain ⟨name, text⟩ := span
    cases rest with
    | nil => exact ⟨⟨rfl, rfl, rfl, trivial⟩, trivial⟩
    | cons next rest => exact ⟨⟨rfl, rfl, rfl, trivial⟩, ih _⟩

/-- What no change concerns is the same after a change. -/
theorem Row.same {recast : Nat → Green → Green} {first : Nat} {gs gs' : List Green}
    (h : gs' = gs) (hkinds : EveryIn (fun g => Syntax.isRewritable g.kind = false) gs) :
    Row recast first gs gs' := by
  rw [Row, h, rewriteAll_eq_bareAll _ _ _ hkinds]

theorem writeParameterList_front (recast : Nat → Green → Green) (first : Nat)
    (names : List String) {l l' : Layout} (hl : Near l l') :
    Front recast l'.pending first ((writeParameterList names).run l).1
        ((writeParameterList names).run l').1 ∧
      Near ((writeParameterList names).run l).2 ((writeParameterList names).run l').2 := by
  obtain ⟨htrees, hpending, hnear⟩ := writeParameters_near names (hl.behind "(" "(") rfl
  exact ⟨.mark (.append (.same htrees (isRewritable_eq_false_of_parameters names _)) rfl
    (.mark hpending .nil)), hnear.behind _ _⟩

section

set_option linter.unusedSectionVars false

variable {change : Nat → Expr → Expr} {recast : Nat → Green → Green}
  (hagree : Agrees change recast)

include hagree

theorem Expr.plain_rewrite {e : Expr} (h : e.every Expr.isPlain = true) (first : Nat) :
    (e.rewrite change first).every Expr.isPlain = true :=
  Expr.every_rewrite shallow_isPlain hagree.plain e h first

/-- An expression that a change concerns: its children have been changed, and now it is. -/
theorem Agrees.changed {e e' : Expr} {first n : Nat} {l l' m m' : Layout}
    {kind : Kind} {flags flags' : Nat} {payload payload' : Payload} {gs gs' : List Green}
    {labels labels' : List String} (hl : Near l l')
    (hwrite : e.write.run l = (.node kind flags payload gs labels, m))
    (hwrite' : e'.write.run l' = (.node kind flags' payload' gs' labels', m'))
    (he : e'.every Expr.isPlain = true) (hform : e'.isRewritable = true)
    (hkind : Syntax.isRewritable kind = true) (hn : first + e.size = n + 1)
    (hfront : Front recast l'.pending first gs gs') (hnear : Near m m') :
    ((change n e').write.run l').1.bare =
        ((e.write.run l).1.rewrite recast first).setLead l'.pending ∧
      Near (e.write.run l).2 ((change n e').write.run l').2 := by
  have hcount : n = first + sizeAll gs := by
    have hsize := e.size_write l
    rw [hwrite, size_node] at hsize
    omega
  have hbare : (e'.write.run l').1.bare =
      (Green.node kind 0 .empty (rewriteAll recast first gs) []).setLead l'.pending := by
    rw [hwrite']
    simp only [Front] at hfront
    simp only [bare, setLead, hfront]
  have hw := Expr.writes _ (hagree.plain n e' he) l' hl.right
  have hw' := Expr.writes e' he l' hl.right
  rw [hwrite] at *
  refine ⟨?_, ?_, hnear.left, hw.continues.trans hl.right, fun hcut => ?_⟩
  · rw [hagree.tree n e' l' he hform hl.right, hbare, hagree.lead, Green.rewrite]
    simp only [hkind, if_true, setLead_setLead, hcount]
  · have hindent := hw'.indent
    rw [hwrite'] at hindent
    rw [hw.indent, ← hindent, hnear.indent]
  · refine hagree.cut n e' l' he hform hl.right ?_
    rw [hwrite']
    exact hnear.cut hcut

omit hagree in
/-- Braces around contents that have been changed. -/
theorem braced_front (isEmpty : Bool) {contents contents' : Writer (List Green)}
    {first count : Nat} (hcount : ∀ l, sizeAll (contents.run l).1 = count)
    (h : ∀ l l', Same l l' → l.continues = false →
      Row recast (first + 1) (contents.run l).1 (contents'.run l').1 ∧
        Same (contents.run l).2 (contents'.run l').2)
    {l l' : Layout} (hl : Near l l') :
    Front recast l'.pending first ((braced isEmpty contents).run l).1
        ((braced isEmpty contents').run l').1 ∧
      Same ((braced isEmpty contents).run l).2 ((braced isEmpty contents').run l').2 := by
  have hopened : Same (l.behind "\x7b") (l'.behind "\x7b") := hl.same _ fun _ _ => rfl
  obtain ⟨hrow, hsame⟩ := h _ _ hopened.deeper hl.left
  rw [run_braced, run_braced]
  cases isEmpty
  · have hline := hsame.shallower.newline
    exact ⟨.mark (.append hrow (hcount _) (.mark hline.pending .nil)), hline.behind _⟩
  · exact ⟨.mark (.append hrow (hcount _) (.mark hsame.pending .nil)),
      hsame.shallower.behind _⟩

omit hagree in
theorem leadAll_braced (isEmpty : Bool) (contents : Writer (List Green)) (l : Layout) :
    leadAll ((braced isEmpty contents).run l).1 = l.pending := by
  cases isEmpty <;> rfl

omit hagree in
theorem writeBlock_tracks (isEmpty : Bool) {contents contents' : Writer (List Green)}
    {first count : Nat} (hcount : ∀ l, sizeAll (contents.run l).1 = count)
    (h : ∀ l l', Same l l' → l.continues = false →
      Row recast (first + 1) (contents.run l).1 (contents'.run l').1 ∧
        Same (contents.run l).2 (contents'.run l').2)
    {l l' : Layout} (hl : Near l l') (hpending : l'.pending = l.pending) :
    ((writeBlock isEmpty contents').run l').1.bare =
        ((writeBlock isEmpty contents).run l).1.rewrite recast first ∧
      Same ((writeBlock isEmpty contents).run l).2 ((writeBlock isEmpty contents').run l').2 := by
  obtain ⟨hfront, hsame⟩ := braced_front isEmpty hcount h hl
  refine ⟨Row.node (hfront.row ?_) rfl, hsame⟩
  rw [hpending, leadAll_braced]

/-- Writing trees in a row leads from near layouts to near layouts with the same trivia pending,
    and the second row is the first one after a change. -/
structure TracksAll (recast : Nat → Green → Green) (first : Nat) (gs gs' : List Green)
    (m m' : Layout) : Prop where
  row : Row recast first gs gs'
  pending : m'.pending = m.pending
  near : Near m m'

omit hagree in
theorem writeDeclare_tracks (recast : Nat → Green → Green) (first : Nat) (isDeclare : Bool)
    {l l' : Layout} (hl : Near l l') (hpending : l'.pending = l.pending) :
    TracksAll recast first ((writeDeclare isDeclare).run l).1 ((writeDeclare isDeclare).run l').1
      ((writeDeclare isDeclare).run l).2 ((writeDeclare isDeclare).run l').2 := by
  cases isDeclare
  · exact ⟨.nil, hpending, hl⟩
  · exact ⟨.mark hpending .nil, rfl, (hl.behind _ _).withTrivia _ _⟩

omit hagree in
theorem writeDefinite_tracks (recast : Nat → Green → Green) (first : Nat) (definite : Bool)
    {l l' : Layout} (hl : Near l l') (hpending : l'.pending = l.pending) :
    TracksAll recast first ((writeDefinite definite).run l).1 ((writeDefinite definite).run l').1
      ((writeDefinite definite).run l).2 ((writeDefinite definite).run l').2 := by
  cases definite
  · exact ⟨.nil, hpending, hl⟩
  · exact ⟨.mark hpending .nil, rfl, hl.behind _ _⟩

omit hagree in
theorem writeDeclaredType_tracks (recast : Nat → Green → Green) (first : Nat)
    (typeText : Option String) {l l' : Layout} (hl : Near l l')
    (hpending : l'.pending = l.pending) :
    TracksAll recast first ((writeDeclaredType typeText).run l).1
      ((writeDeclaredType typeText).run l').1 ((writeDeclaredType typeText).run l).2
      ((writeDeclaredType typeText).run l').2 := by
  cases typeText with
  | none => exact ⟨.nil, hpending, hl⟩
  | some text =>
    have htype := writeType_tracks recast (first + 1) text
      ((hl.behind ":" ":").withTrivia " " " ")
    exact ⟨.mark hpending (.cons (htype.inner rfl) rfl .nil), htype.pending_eq, htype.near⟩

omit hagree in
/-- A variable statement around an initial value that has been changed. -/
theorem writeVariable_tracks (isDeclare : Bool) (kind : VariableKind) (name : String)
    (definite : Bool) (typeText : Option String) {initializer initializer' : Writer (List Green)}
    {first : Nat}
    (h : ∀ l l', Near l l' → l'.pending = l.pending →
      TracksAll recast
        (first + (if isDeclare then 1 else 0) + 1 + 1 + (if definite then 1 else 0) +
          annotationSize typeText)
        (initializer.run l).1 (initializer'.run l').1 (initializer.run l).2
        (initializer'.run l').2)
    {l l' : Layout} (hl : Same l l') :
    ((writeVariable isDeclare kind name definite typeText initializer').run l').1.bare =
        ((writeVariable isDeclare kind name definite typeText initializer).run l).1.rewrite
          recast first ∧
      Same ((writeVariable isDeclare kind name definite typeText initializer).run l).2
        ((writeVariable isDeclare kind name definite typeText initializer').run l').2 := by
  have hdeclare := writeDeclare_tracks recast first isDeclare
    (hl.begun.near l.continues_begun) hl.begun.pending
  have hkeyword := (hdeclare.near.behind ((kind.keyword.text?).getD "")
    ((kind.keyword.text?).getD "")).withTrivia " " " "
  have hdefinite := writeDefinite_tracks recast
    (first + (if isDeclare then 1 else 0) + 1 + 1) definite (hkeyword.behind name name) rfl
  have hdeclared := writeDeclaredType_tracks recast
    (first + (if isDeclare then 1 else 0) + 1 + 1 + (if definite then 1 else 0)) typeText
    hdefinite.near hdefinite.pending
  have hvalue := h _ _ hdeclared.near hdeclared.pending
  have hrow := hvalue.row
  rw [Nat.add_assoc _ (if definite then 1 else 0)] at hrow
  rw [writeVariable_eq, writeVariable_eq]
  simp only [run_bind, run_pure, run_token, run_identifier, run_space, run_beginStatement]
  refine ⟨Row.node (.append hdeclare.row (sizeAll_writeDeclare isDeclare _) (.cons
    (Row.node (.mark hdeclare.pending (.cons (Row.node ?_ rfl) rfl .nil)) rfl) rfl
    (.mark hvalue.pending .nil))) rfl, hvalue.near.same _ fun _ _ => rfl⟩
  refine .cons rfl rfl (.append (.append hdefinite.row (sizeAll_writeDefinite definite _)
    hdeclared.row) ?_ hrow)
  rw [sizeAll_append, sizeAll_writeDefinite, sizeAll_writeDeclaredType]

mutual

/-- Writing a changed expression gives the changed tree. -/
theorem Expr.tracks (e : Expr) (h : e.every Expr.isPlain = true) (first : Nat) {l l' : Layout}
    (hl : Near l l') :
    Tracks recast first l l' (e.write.run l).1 ((e.rewrite change first).write.run l').1
      (e.write.run l).2 ((e.rewrite change first).write.run l').2 := by
  have hplain {e : Expr} (h : e.every Expr.isPlain = true) (first : Nat) :=
    Expr.plain_rewrite hagree h first
  have hcore : ((e.rewrite change first).write.run l').1.bare =
        ((e.write.run l).1.rewrite recast first).setLead l'.pending ∧
      Near (e.write.run l).2 ((e.rewrite change first).write.run l').2 := by
    cases e with
    | substitution head spans =>
      obtain ⟨htrees, hnear⟩ := writeSpans_near spans (hl.behind ("\x60" ++ head ++ "$\x7b")
        ("\x60" ++ head ++ "$\x7b")) rfl
      exact ⟨Front.node (.cons rfl rfl (.same htrees (isRewritable_eq_false_of_spans spans _)))
        rfl, hnear⟩
    | paren e =>
      simp only [Expr.every, Bool.and_eq_true] at h
      have hin := Expr.tracks e h.2 (first + 1) (hl.behind "(" "(")
      exact ⟨Front.node (.mark (.cons (hin.inner rfl) (e.size_write _)
        (.mark hin.pending_eq .nil))) rfl, hin.near.behind ")" ")"⟩
    | binary left operator right =>
      simp only [Expr.every, Bool.and_eq_true] at h
      have hleft := Expr.tracks left h.1.2 first hl
      have hright := Expr.tracks right h.2 (first + left.size + 1)
        (((hleft.near.withTrivia " " " ").behind ((operator.text?).getD "")
          ((operator.text?).getD "")).withTrivia " " " ")
      refine hagree.changed hl rfl rfl ?_ rfl rfl ?_
        (.cons hleft.tree (left.size_write _) (.mark (congrArg (· ++ " ") hleft.pending_eq)
          (.cons (hright.inner rfl) (right.size_write _) .nil))) hright.near
      · simp only [Expr.every, hplain h.1.2, hplain h.2, Expr.isPlain, Bool.and_self]
      · rw [Expr.size_binary]
        omega
    | prefixed operator e =>
      simp only [Expr.every, Bool.and_eq_true] at h
      have hkind : Syntax.isRewritable (if operator = .typeOfKeyword then Kind.typeOfExpression
          else .prefixUnaryExpression) = false := by split <;> rfl
      rw [Expr.rewrite, run_prefixed, run_prefixed]
      cases operator.isKeyword
      · have hin := Expr.tracks e h.2 (first + 1) (hl.behind ((operator.text?).getD "")
          ((operator.text?).getD ""))
        exact ⟨Front.node (.mark (.cons (hin.inner rfl) (e.size_write _) .nil)) hkind, hin.near⟩
      · have hin := Expr.tracks e h.2 (first + 1) ((hl.behind ((operator.text?).getD "")
          ((operator.text?).getD "")).withTrivia " " " ")
        exact ⟨Front.node (.mark (.cons (hin.inner rfl) (e.size_write _) .nil)) hkind, hin.near⟩
    | postfixed e operator =>
      simp only [Expr.every, Bool.and_eq_true] at h
      have hin := Expr.tracks e h.2 first hl
      exact ⟨Front.node (.cons hin.tree (e.size_write _) (.mark hin.pending_eq .nil)) rfl,
        hin.near.behind _ _⟩
    | nonNull e =>
      simp only [Expr.every, Bool.and_eq_true] at h
      have hin := Expr.tracks e h.2 first hl
      refine hagree.changed hl rfl rfl ?_ rfl rfl ?_
        (.cons hin.tree (e.size_write _) (.mark hin.pending_eq .nil)) (hin.near.behind _ _)
      · simp only [Expr.every, hplain h.2, Expr.isPlain, Bool.and_self]
      · rw [Expr.size_nonNull]
        omega
    | property e optional name =>
      simp only [Expr.every, Bool.and_eq_true] at h
      have hin := Expr.tracks e h.2 first hl
      refine hagree.changed hl rfl rfl ?_ rfl rfl ?_
        (.cons hin.tree (e.size_write _) (.mark hin.pending_eq (.cons rfl rfl .nil)))
        ((hin.near.behind _ _).behind _ _)
      · simp only [Expr.every, hplain h.2, Expr.isPlain, Bool.and_self]
      · rw [Expr.size_property]
        omega
    | element e optional argument =>
      simp only [Expr.every, Bool.and_eq_true] at h
      have hin := Expr.tracks e h.1.2 first hl
      cases optional
      · have hargument := Expr.tracks argument h.2 (first + e.size + 0 + 1)
          (hin.near.behind "[" "[")
        refine hagree.changed hl rfl rfl ?_ rfl rfl ?_
          (.cons hin.tree (e.size_write _) (.mark hin.pending_eq
            (.cons (hargument.inner rfl) (argument.size_write _)
              (.mark hargument.pending_eq .nil)))) (hargument.near.behind _ _)
        · simp only [Expr.every, hplain h.1.2, hplain h.2, Expr.isPlain, Bool.and_self]
        · rw [Expr.size_element]
          omega
      · have hargument := Expr.tracks argument h.2 (first + e.size + 1 + 1)
          ((hin.near.behind "?." "?.").behind "[" "[")
        refine hagree.changed hl rfl rfl ?_ rfl rfl ?_
          (.cons hin.tree (e.size_write _) (.mark hin.pending_eq (.mark rfl
            (.cons (hargument.inner rfl) (argument.size_write _)
              (.mark hargument.pending_eq .nil))))) (hargument.near.behind _ _)
        · simp only [Expr.every, hplain h.1.2, hplain h.2, Expr.isPlain, Bool.and_self]
        · rw [Expr.size_element]
          omega
    | call callee optional arguments =>
      simp only [Expr.every, Bool.and_eq_true] at h
      have hin := Expr.tracks callee h.1.2 first hl
      have hplains (first : Nat) :=
        Expr.everyIn_rewriteIn shallow_isPlain hagree.plain arguments h.2 first
      cases optional
      · have hitems := Expr.tracksAll arguments h.2 (first + callee.size + 0 + 1)
          (hin.near.behind "(" "(") rfl
        refine hagree.changed hl rfl rfl ?_ rfl rfl ?_
          (.cons hin.tree (callee.size_write _) (.mark hin.pending_eq
            (.append hitems.row (Expr.sizeAll_writeList arguments _) (.mark hitems.pending .nil))))
          (hitems.near.behind _ _)
        · simp only [Expr.every, hplain h.1.2, hplains, Expr.isPlain, Bool.and_self]
        · rw [Expr.size_call]
          omega
      · have hitems := Expr.tracksAll arguments h.2 (first + callee.size + 1 + 1)
          ((hin.near.behind "?." "?.").behind "(" "(") rfl
        refine hagree.changed hl rfl rfl ?_ rfl rfl ?_
          (.cons hin.tree (callee.size_write _) (.mark hin.pending_eq (.mark rfl
            (.append hitems.row (Expr.sizeAll_writeList arguments _) (.mark hitems.pending .nil)))))
          (hitems.near.behind _ _)
        · simp only [Expr.every, hplain h.1.2, hplains, Expr.isPlain, Bool.and_self]
        · rw [Expr.size_call]
          omega
    | conditional condition whenTrue whenFalse =>
      simp only [Expr.every, Bool.and_eq_true] at h
      have hc := Expr.tracks condition h.1.1.2 first hl
      have ht := Expr.tracks whenTrue h.1.2 (first + condition.size + 1)
        (((hc.near.withTrivia " " " ").behind "?" "?").withTrivia " " " ")
      have hf := Expr.tracks whenFalse h.2 (first + condition.size + 1 + whenTrue.size + 1)
        (((ht.near.withTrivia " " " ").behind ":" ":").withTrivia " " " ")
      exact ⟨Front.node (.cons hc.tree (condition.size_write _)
        (.mark (congrArg (· ++ " ") hc.pending_eq) (.cons (ht.inner rfl) (whenTrue.size_write _)
          (.mark (congrArg (· ++ " ") ht.pending_eq)
            (.cons (hf.inner rfl) (whenFalse.size_write _) .nil))))) rfl, hf.near⟩
    | asType e typeText =>
      simp only [Expr.every, Bool.and_eq_true] at h
      have hin := Expr.tracks e h.2 first hl
      have htype := writeType_tracks recast (first + e.size + 1) typeText
        (((hin.near.withTrivia " " " ").behind "as" "as").withTrivia " " " ")
      refine hagree.changed hl rfl rfl ?_ rfl rfl ?_
        (.cons hin.tree (e.size_write _) (.mark (congrArg (· ++ " ") hin.pending_eq)
          (.cons (htype.inner rfl) (size_writeType typeText _) .nil))) htype.near
      · simp only [Expr.every, hplain h.2, Expr.isPlain, Bool.and_self]
      · rw [Expr.size_asType]
        omega
    | satisfiesType e typeText =>
      simp only [Expr.every, Bool.and_eq_true] at h
      have hin := Expr.tracks e h.2 first hl
      have htype := writeType_tracks recast (first + e.size + 1) typeText
        (((hin.near.withTrivia " " " ").behind "satisfies" "satisfies").withTrivia " " " ")
      exact ⟨Front.node (.cons hin.tree (e.size_write _)
        (.mark (congrArg (· ++ " ") hin.pending_eq)
          (.cons (htype.inner rfl) (size_writeType typeText _) .nil))) rfl, htype.near⟩
    | typeAssertion typeText e =>
      simp only [Expr.every, Bool.and_eq_true] at h
      have htype := writeType_tracks recast (first + 1) typeText (hl.behind "<" "<")
      have hin := Expr.tracks e h.2 (first + 1 + typeSize typeText + 1)
        (htype.near.behind ">" ">")
      refine hagree.changed hl rfl rfl ?_ rfl rfl ?_
        (.mark (.cons (htype.inner rfl) (size_writeType typeText _) (.mark htype.pending_eq
          (.cons (hin.inner rfl) (e.size_write _) .nil)))) hin.near
      · simp only [Expr.every, hplain h.2, Expr.isPlain, Bool.and_self]
      · rw [Expr.size_typeAssertion]
        omega
    | arrow parameters body =>
      simp only [Expr.every, Bool.and_eq_true] at h
      obtain ⟨hfront, hnear⟩ := writeParameterList_front recast first parameters hl
      have hbody := Expr.tracks body h.2 (first + parametersSize parameters + 1)
        (((hnear.withTrivia " " " ").behind "=>" "=>").withTrivia " " " ")
      exact ⟨Front.node (.append hfront (List.cons_ne_nil _ _)
        (sizeAll_writeParameterList parameters _) (.mark rfl
          (.cons (hbody.inner rfl) (body.size_write _) .nil))) rfl, hbody.near⟩
    | arrowBlock parameters body =>
      simp only [Expr.every, Bool.and_eq_true] at h
      obtain ⟨hfront, hnear⟩ := writeParameterList_front recast first parameters hl
      have hcount := Item.sizeAll_writeList body
      obtain ⟨hbody, hsame⟩ := writeBlock_tracks body.isEmpty hcount
        (fun l l' => Item.tracksAll body h.2 (first + parametersSize parameters + 1 + 1))
        (((hnear.withTrivia " " " ").behind "=>" "=>").withTrivia " " " ") rfl
      have hcontinues := (writeBlock_writes body.isEmpty (Item.writesAll body h.2)
        (l := (((writeParameterList parameters).run l).2.withTrivia " ").behind
          "=>" |>.withTrivia " ") hnear.left).continues.trans hnear.left
      rw [Expr.rewrite, Expr.write, Expr.write, isEmpty_itemRewriteIn]
      exact ⟨Front.node (.append hfront (List.cons_ne_nil _ _)
        (sizeAll_writeParameterList parameters _) (.mark rfl
          (.cons hbody (size_writeBlock _ hcount _) .nil))) rfl, hsame.near hcontinues⟩
    | function parameters body =>
      simp only [Expr.every, Bool.and_eq_true] at h
      obtain ⟨hfront, hnear⟩ := writeParameterList_front recast (first + 1) parameters
        (hl.behind "function" "function")
      have hcount := Item.sizeAll_writeList body
      obtain ⟨hbody, hsame⟩ := writeBlock_tracks body.isEmpty hcount
        (fun l l' => Item.tracksAll body h.2 (first + 1 + parametersSize parameters + 1))
        (hnear.withTrivia " " " ") rfl
      have hcontinues := (writeBlock_writes body.isEmpty (Item.writesAll body h.2)
        (l := ((writeParameterList parameters).run (l.behind "function")).2.withTrivia " ")
        hnear.left).continues.trans hnear.left
      rw [Expr.rewrite, Expr.write, Expr.write, isEmpty_itemRewriteIn]
      exact ⟨Front.node (.mark (.append (hfront.row rfl) (sizeAll_writeParameterList parameters _)
        (.cons hbody (size_writeBlock _ hcount _) .nil))) rfl, hsame.near hcontinues⟩
    | array items =>
      simp only [Expr.every, Bool.and_eq_true] at h
      have hitems := Expr.tracksAll items h.2 (first + 1) (hl.behind "[" "[") rfl
      exact ⟨Front.node (.mark (.append hitems.row (Expr.sizeAll_writeList items _)
        (.mark hitems.pending .nil))) rfl, hitems.near.behind _ _⟩
    | emptyObject =>
      exact ⟨Front.node (.mark (.mark rfl .nil)) rfl, (hl.behind _ _).behind _ _⟩
    | commentBefore text e => simp [Expr.every, Expr.isPlain] at h
    | commentAfter e text => simp [Expr.every, Expr.isPlain] at h
    | emptyCall callee optional text => simp [Expr.every, Expr.isPlain] at h
    | emptyArray text => simp [Expr.every, Expr.isPlain] at h
    | typeNode text =>
      have htype := writeType_tracks recast first text hl
      exact ⟨htype.tree, htype.near⟩
    | labeled label e =>
      simp only [Expr.every, Bool.and_eq_true] at h
      have hin := Expr.tracks e h.2 first hl
      refine ⟨?_, hin.near⟩
      rw [Expr.rewrite, Expr.write, Expr.write]
      simp only [run_bind, run_pure, bare_withLabel, rewrite_withLabel]
      exact hin.tree
    | _ => exact ⟨rfl, hl.behind _ _⟩
  exact ⟨hcore.1, hcore.2, Expr.writes e h l hl.left,
    Expr.writes _ (Expr.plain_rewrite hagree h first) l' hl.right⟩

theorem Expr.tracksAll (es : List Expr) (h : Expr.everyIn Expr.isPlain es = true) (first : Nat)
    {l l' : Layout} (hl : Near l l') (hpending : l'.pending = l.pending) :
    TracksAll recast first ((Expr.writeList es).run l).1
      ((Expr.writeList (Expr.rewriteIn change first es)).run l').1
      ((Expr.writeList es).run l).2
      ((Expr.writeList (Expr.rewriteIn change first es)).run l').2 := by
  match es with
  | [] => exact ⟨.nil, hpending, hl⟩
  | [e] =>
    rw [Expr.everyIn, Bool.and_eq_true] at h
    have he := Expr.tracks e h.1 first hl
    exact ⟨.cons (he.inner hpending) rfl .nil, he.pending_eq, he.near⟩
  | e :: next :: rest =>
    rw [Expr.everyIn, Bool.and_eq_true] at h
    have he := Expr.tracks e h.1 first hl
    have hrest := Expr.tracksAll (next :: rest) h.2 (first + e.size + 1)
      ((he.near.behind "," ",").withTrivia " " " ") rfl
    exact ⟨.cons (he.inner hpending) (e.size_write _) (.mark he.pending_eq hrest.row),
      hrest.pending, hrest.near⟩

/-- Writing a changed statement in the same place gives the changed tree. -/
theorem Stmt.tracks (s : Stmt) (h : s.every Expr.isPlain = true) (first : Nat) {l l' : Layout}
    (hl : Same l l') :
    ((s.rewrite change first).write.run l').1.bare = (s.write.run l).1.rewrite recast first ∧
      Same (s.write.run l).2 ((s.rewrite change first).write.run l').2 := by
  have hbegun := hl.begun.near l.continues_begun
  match s with
  | .expression e =>
    simp only [Stmt.rewrite, Stmt.write, run_bind, run_beginStatement]
    have he := Expr.tracks e h first hbegun
    exact ⟨Row.node (.cons (he.inner hl.begun.pending) (e.size_write _)
      (.mark he.pending_eq .nil)) rfl, he.near.same _ fun _ _ => rfl⟩
  | .variable kind name typeText =>
    exact writeVariable_tracks _ _ _ _ _ (fun _ _ hl hpending => by exact ⟨.nil, hpending, hl⟩) hl
  | .initialized kind name typeText initializer =>
    refine writeVariable_tracks _ _ _ _ _ (fun l l' hl hpending => ?_) hl
    have hvalue := Expr.tracks initializer h (first + 2 + annotationSize typeText + 1)
      (((hl.withTrivia " " " ").behind "=" "=").withTrivia " " " ")
    exact ⟨.mark (congrArg (· ++ " ") hpending) (.cons (hvalue.inner rfl) rfl .nil),
      hvalue.pending_eq, hvalue.near⟩
  | .declared kind name typeText =>
    exact writeVariable_tracks _ _ _ _ _ (fun _ _ hl hpending => by exact ⟨.nil, hpending, hl⟩) hl
  | .definite name typeText =>
    exact writeVariable_tracks _ _ _ _ _ (fun _ _ hl hpending => by exact ⟨.nil, hpending, hl⟩) hl
  | .block body =>
    simp only [Stmt.rewrite, Stmt.write, run_bind, run_beginStatement, isEmpty_itemRewriteIn]
    exact writeBlock_tracks body.isEmpty (Item.sizeAll_writeList body)
      (fun l l' => Item.tracksAll body h (first + 1)) hbegun hl.begun.pending
  | .ifThen condition consequent =>
    simp only [Stmt.every, Bool.and_eq_true] at h
    simp only [Stmt.rewrite, Stmt.write, run_bind, run_beginStatement]
    have hc := Expr.tracks condition h.1 (first + 2) (hbegun.head "if")
    obtain ⟨hs, hsame⟩ := Stmt.tracks consequent h.2 (first + 2 + condition.size + 1)
      (hc.near.closed.inline)
    exact ⟨Row.node (.mark hl.begun.pending (.mark rfl (.cons (hc.inner rfl)
      (condition.size_write _) (.mark hc.pending_eq (.cons hs rfl .nil))))) rfl,
      hsame.continuing false⟩
  | .ifElse condition consequent alternative =>
    simp only [Stmt.every, Bool.and_eq_true] at h
    simp only [Stmt.rewrite, Stmt.write, run_bind, run_beginStatement]
    have hc := Expr.tracks condition h.1.1 (first + 2) (hbegun.head "if")
    obtain ⟨hs, hsame⟩ := Stmt.tracks consequent h.1.2 (first + 2 + condition.size + 1)
      (hc.near.closed.inline)
    have hbetween := (hsame.continuing false).withTrivia " "
    obtain ⟨ha, hsame'⟩ := Stmt.tracks alternative h.2
      (first + 2 + condition.size + 1 + consequent.size + 1) (hbetween.behind "else").inline
    exact ⟨Row.node (.mark hl.begun.pending (.mark rfl (.cons (hc.inner rfl)
      (condition.size_write _) (.mark hc.pending_eq (.cons hs (consequent.size_write _)
        (.mark hbetween.pending (.cons ha rfl .nil))))))) rfl, hsame'.continuing false⟩
  | .whileLoop condition body =>
    simp only [Stmt.every, Bool.and_eq_true] at h
    simp only [Stmt.rewrite, Stmt.write, run_bind, run_beginStatement]
    have hc := Expr.tracks condition h.1 (first + 2) (hbegun.head "while")
    obtain ⟨hs, hsame⟩ := Stmt.tracks body h.2 (first + 2 + condition.size + 1)
      (hc.near.closed.inline)
    exact ⟨Row.node (.mark hl.begun.pending (.mark rfl (.cons (hc.inner rfl)
      (condition.size_write _) (.mark hc.pending_eq (.cons hs rfl .nil))))) rfl,
      hsame.continuing false⟩
  | .doLoop body condition =>
    simp only [Stmt.every, Bool.and_eq_true] at h
    simp only [Stmt.rewrite, Stmt.write, run_bind, run_beginStatement]
    obtain ⟨hs, hsame⟩ := Stmt.tracks body h.1 (first + 1) (hl.begun.behind "do").inline
    have hbetween := (hsame.continuing false).withTrivia " "
    have hc := Expr.tracks condition h.2 (first + 1 + body.size + 2)
      ((hbetween.near rfl).head "while")
    exact ⟨Row.node (.mark hl.begun.pending (.cons hs (body.size_write _)
      (.mark hbetween.pending (.mark rfl (.cons (hc.inner rfl) (condition.size_write _)
        (.mark hc.pending_eq (.mark rfl .nil))))))) rfl, (hc.near.behind ")" ")").same _ fun _ _ => rfl⟩
  | .forever body =>
    simp only [Stmt.rewrite, Stmt.write, run_bind, run_beginStatement]
    obtain ⟨hs, hsame⟩ := Stmt.tracks body h (first + 5)
      ((((hbegun.head "for").behind ";" ";").behind ";" ";").closed.inline)
    exact ⟨Row.node (.mark hl.begun.pending (.mark rfl (.mark rfl (.mark rfl (.mark rfl
      (.cons hs rfl .nil)))))) rfl, hsame.continuing false⟩
  | .forLoop condition body =>
    simp only [Stmt.every, Bool.and_eq_true] at h
    simp only [Stmt.rewrite, Stmt.write, run_bind, run_beginStatement]
    have hc := Expr.tracks condition h.1 (first + 3)
      (((hbegun.head "for").behind ";" ";").withTrivia " " " ")
    obtain ⟨hs, hsame⟩ := Stmt.tracks body h.2 (first + 3 + condition.size + 2)
      ((hc.near.behind ";" ";").closed.inline)
    exact ⟨Row.node (.mark hl.begun.pending (.mark rfl (.mark rfl (.cons (hc.inner rfl)
      (condition.size_write _) (.mark hc.pending_eq (.mark rfl (.cons hs rfl .nil))))))) rfl,
      hsame.continuing false⟩
  | .switch e clauses =>
    simp only [Stmt.every, Bool.and_eq_true] at h
    simp only [Stmt.rewrite, Stmt.write, run_bind, run_beginStatement, isEmpty_clauseRewriteIn]
    have he := Expr.tracks e h.1 (first + 2) (hbegun.head "switch")
    obtain ⟨hfront, hsame⟩ := braced_front clauses.isEmpty (Clause.sizeAll_writeList clauses)
      (fun l l' => Clause.tracksAll clauses h.2 (first + 2 + e.size + 1 + 1))
      ((he.near.behind ")" ")").withTrivia " " " ")
    exact ⟨Row.node (.mark hl.begun.pending (.mark rfl (.cons (he.inner rfl) (e.size_write _)
      (.mark he.pending_eq (.cons (Row.node (hfront.row (leadAll_braced _ _ _)) rfl) rfl .nil)))))
      rfl, hsame⟩
  | .breakOut =>
    simp only [Stmt.rewrite, Stmt.write, run_bind, run_beginStatement]
    exact ⟨Row.node (.mark hl.begun.pending (.mark rfl .nil)) rfl,
      (hl.begun.behind _).behind _⟩
  | .returned e =>
    simp only [Stmt.rewrite, Stmt.write, run_bind, run_beginStatement]
    have he := Expr.tracks e h (first + 1)
      ((hbegun.behind "return" "return").withTrivia " " " ")
    exact ⟨Row.node (.mark hl.begun.pending (.cons (he.inner rfl) (e.size_write _)
      (.mark he.pending_eq .nil))) rfl, he.near.same _ fun _ _ => rfl⟩
  | .thrown e =>
    simp only [Stmt.rewrite, Stmt.write, run_bind, run_beginStatement]
    have he := Expr.tracks e h (first + 1)
      ((hbegun.behind "throw" "throw").withTrivia " " " ")
    exact ⟨Row.node (.mark hl.begun.pending (.cons (he.inner rfl) (e.size_write _)
      (.mark he.pending_eq .nil))) rfl, he.near.same _ fun _ _ => rfl⟩
  | .commentBefore text s =>
    simp only [Stmt.rewrite, Stmt.write, run_bind, run_comment]
    exact Stmt.tracks s h first (hl.begun.withTrivia text)
  | .commentAfter s text =>
    obtain ⟨hs, hsame⟩ := Stmt.tracks s h first hl
    simp only [Stmt.rewrite, Stmt.write, run_bind, run_pure, run_comment]
    exact ⟨hs, hsame.begun.withTrivia text⟩
  | .labeled label s =>
    obtain ⟨hs, hsame⟩ := Stmt.tracks s h first hl
    refine ⟨?_, hsame⟩
    rw [Stmt.rewrite, Stmt.write, Stmt.write]
    simp only [run_bind, run_pure, bare_withLabel, rewrite_withLabel]
    exact hs

theorem Item.tracksAll (items : List Item) (h : Item.everyIn Expr.isPlain items = true)
    (first : Nat) {l l' : Layout} (hl : Same l l') (_hcontinues : l.continues = false) :
    Row recast first ((Item.writeList items).run l).1
        ((Item.writeList (Item.rewriteIn change first items)).run l').1 ∧
      Same ((Item.writeList items).run l).2
        ((Item.writeList (Item.rewriteIn change first items)).run l').2 := by
  match items with
  | [] => exact ⟨.nil, hl⟩
  | .comment text :: rest =>
    simp only [Item.rewriteIn, Item.writeList, run_bind, run_comment]
    exact Item.tracksAll rest h first (hl.begun.withTrivia text) l.continues_begun
  | .statement s :: rest =>
    rw [Item.everyIn, Bool.and_eq_true] at h
    obtain ⟨hs, hsame⟩ := Stmt.tracks s h.1 first hl
    obtain ⟨hrow, hrest⟩ := Item.tracksAll rest h.2 (first + s.size) hsame
      ((Stmt.writes s h.1 l).continues.trans l.continues_begun)
    exact ⟨.cons hs (s.size_write _) hrow, hrest⟩

theorem Clause.tracksAll (clauses : List Clause)
    (h : Clause.everyIn Expr.isPlain clauses = true) (first : Nat) {l l' : Layout}
    (hl : Same l l') (hcontinues : l.continues = false) :
    Row recast first ((Clause.writeList clauses).run l).1
        ((Clause.writeList (Clause.rewriteIn change first clauses)).run l').1 ∧
      Same ((Clause.writeList clauses).run l).2
        ((Clause.writeList (Clause.rewriteIn change first clauses)).run l').2 := by
  match clauses with
  | [] => exact ⟨.nil, hl⟩
  | c :: rest =>
    rw [Clause.everyIn, Bool.and_eq_true] at h
    obtain ⟨hc, hsame⟩ := Clause.tracks c h.1 first hl hcontinues
    obtain ⟨hrow, hrest⟩ := Clause.tracksAll rest h.2 (first + c.size) hsame
      ((Clause.writes c h.1 l hcontinues).continues.trans hcontinues)
    exact ⟨.append hc (c.sizeAll_write _) hrow, hrest⟩

theorem Clause.tracks (c : Clause) (h : c.every Expr.isPlain = true) (first : Nat)
    {l l' : Layout} (hl : Same l l') (hcontinues : l.continues = false) :
    Row recast first (c.write.run l).1 ((c.rewrite change first).write.run l').1 ∧
      Same (c.write.run l).2 ((c.rewrite change first).write.run l').2 := by
  have hbegun := hl.begun.near l.continues_begun
  match c with
  | .comment text =>
    simp only [Clause.rewrite, Clause.write, run_bind, run_comment]
    exact ⟨.nil, hl.begun.withTrivia text⟩
  | .caseOf e body =>
    rw [Clause.every, Bool.and_eq_true] at h
    simp only [Clause.rewrite, Clause.write, run_bind, run_beginStatement]
    have he := Expr.tracks e h.1 (first + 1)
      ((hbegun.behind "case" "case").withTrivia " " " ")
    obtain ⟨hrow, hsame⟩ := Item.tracksAll body h.2 (first + 1 + e.size + 1)
      (he.near.same ":" fun _ _ => rfl).deeper (he.near.left)
    exact ⟨.cons (Row.node (.mark hl.begun.pending (.cons (he.inner rfl) (e.size_write _)
      (.mark he.pending_eq hrow))) rfl) rfl .nil, hsame.shallower⟩
  | .default body =>
    simp only [Clause.rewrite, Clause.write, run_bind, run_beginStatement]
    obtain ⟨hrow, hsame⟩ := Item.tracksAll body h (first + 2)
      ((hl.begun.behind "default").behind ":").deeper l.continues_begun
    exact ⟨.cons (Row.node (.mark hl.begun.pending (.mark rfl hrow)) rfl) rfl .nil,
      hsame.shallower⟩
  | .labeled label c =>
    obtain ⟨hc, hsame⟩ := Clause.tracks c h first hl hcontinues
    refine ⟨?_, hsame⟩
    rw [Clause.rewrite, Clause.write, Clause.write]
    simp only [run_bind, run_pure, Row, bareAll_map_withLabel, rewriteAll_map_withLabel]
    exact hc

end

/-- The tree of a changed program is the changed tree of the program. -/
theorem whole_changed {p : TypeLint.Program} (hp : CommentFree p) :
    (whole (changed change p)).bare = (whole p).rewrite recast 0 := by
  have hstart : Same .start .start := ⟨rfl, rfl, rfl, rfl, id⟩
  obtain ⟨hrow, hsame⟩ := Item.tracksAll hagree p hp 0 hstart rfl
  have hend : lineEnd (lay (changed change p)).2 = lineEnd (lay p).2 := by
    have hlast : (lay (changed change p)).2.last = (lay p).2.last := hsame.last
    simp only [lineEnd, hlast]
  exact Row.node (.append hrow rfl (.mark (congrArg₂ (· ++ ·) hsame.pending hend) .nil)) rfl

/-- A changed program builds if the program does. -/
theorem exists_build_changed {fileName : String} {p : TypeLint.Program} (hp : CommentFree p)
    {b : Built} (h : build fileName p = .ok b) :
    ∃ b', build fileName (changed change p) = .ok b' := by
  have hstart : Same .start .start := ⟨rfl, rfl, rfl, rfl, id⟩
  obtain ⟨-, hsame⟩ := Item.tracksAll hagree p hp 0 hstart rfl
  refine exists_build fileName (hsame.cut ?_)
  rw [build_eq] at h
  split at h
  · cases h
  · assumption

end

theorem whole_tight {p : TypeLint.Program} (hp : CommentFree p) : (whole p).Every Tight :=
  ⟨tight_of_gap rfl, everyIn_append (Item.writesAll p hp .start rfl).tight
    (everyIn_singleton (token_tight _ _ _ _ _))⟩

mutual

theorem Expr.rewrite_self (e : Expr) (first : Nat) : e.rewrite (fun _ e => e) first = e := by
  cases e with
  | paren e | prefixed _ e | postfixed e _ | nonNull e | property e _ _ | asType e _
  | satisfiesType e _ | typeAssertion _ e | arrow _ e | commentBefore _ e | commentAfter e _
  | emptyCall e _ _ | labeled _ e =>
    simp only [Expr.rewrite, Expr.rewrite_self e]
  | binary left _ right => simp only [Expr.rewrite, Expr.rewrite_self left, Expr.rewrite_self right]
  | element e _ argument =>
    simp only [Expr.rewrite, Expr.rewrite_self e, Expr.rewrite_self argument]
  | call callee _ arguments =>
    simp only [Expr.rewrite, Expr.rewrite_self callee, Expr.rewriteIn_self arguments]
  | conditional condition whenTrue whenFalse =>
    simp only [Expr.rewrite, Expr.rewrite_self condition, Expr.rewrite_self whenTrue,
      Expr.rewrite_self whenFalse]
  | arrowBlock _ body | function _ body => simp only [Expr.rewrite, Item.rewriteIn_self body]
  | array items => simp only [Expr.rewrite, Expr.rewriteIn_self items]
  | _ => rfl

theorem Expr.rewriteIn_self (es : List Expr) (first : Nat) :
    Expr.rewriteIn (fun _ e => e) first es = es := by
  match es with
  | [] => rfl
  | e :: rest => simp only [Expr.rewriteIn, Expr.rewrite_self e, Expr.rewriteIn_self rest]

theorem Stmt.rewrite_self (s : Stmt) (first : Nat) : s.rewrite (fun _ e => e) first = s := by
  match s with
  | .variable _ _ _ | .declared _ _ _ | .definite _ _ | .breakOut => rfl
  | .expression e | .initialized _ _ _ e | .returned e | .thrown e =>
    simp only [Stmt.rewrite, Expr.rewrite_self e]
  | .block body => simp only [Stmt.rewrite, Item.rewriteIn_self body]
  | .ifThen condition body | .whileLoop condition body | .doLoop body condition
  | .forLoop condition body =>
    simp only [Stmt.rewrite, Expr.rewrite_self condition, Stmt.rewrite_self body]
  | .ifElse condition consequent alternative =>
    simp only [Stmt.rewrite, Expr.rewrite_self condition, Stmt.rewrite_self consequent,
      Stmt.rewrite_self alternative]
  | .forever body | .commentBefore _ body | .commentAfter body _ | .labeled _ body =>
    simp only [Stmt.rewrite, Stmt.rewrite_self body]
  | .switch e clauses =>
    simp only [Stmt.rewrite, Expr.rewrite_self e, Clause.rewriteIn_self clauses]

theorem Item.rewriteIn_self (items : List Item) (first : Nat) :
    Item.rewriteIn (fun _ e => e) first items = items := by
  match items with
  | [] => rfl
  | .comment _ :: rest => simp only [Item.rewriteIn, Item.rewriteIn_self rest]
  | .statement s :: rest =>
    simp only [Item.rewriteIn, Stmt.rewrite_self s, Item.rewriteIn_self rest]

theorem Clause.rewriteIn_self (clauses : List Clause) (first : Nat) :
    Clause.rewriteIn (fun _ e => e) first clauses = clauses := by
  match clauses with
  | [] => rfl
  | c :: rest => simp only [Clause.rewriteIn, Clause.rewrite_self c, Clause.rewriteIn_self rest]

theorem Clause.rewrite_self (c : Clause) (first : Nat) : c.rewrite (fun _ e => e) first = c := by
  match c with
  | .comment _ => rfl
  | .caseOf e body => simp only [Clause.rewrite, Expr.rewrite_self e, Item.rewriteIn_self body]
  | .default body => simp only [Clause.rewrite, Item.rewriteIn_self body]
  | .labeled _ c => simp only [Clause.rewrite, Clause.rewrite_self c]

end

theorem setLead_bare_write {e : Expr} (h : e.every Expr.isPlain = true) {l : Layout}
    (hl : l.continues = false) :
    (e.write.run l).1.bare.setLead l.pending = (e.write.run l).1.bare := by
  rw [← (Expr.writes e h l hl).lead, ← lead_bare, setLead_lead]

/-- Changing nothing changes nothing. -/
theorem agrees_self : Agrees (fun _ e => e) (fun _ g => g) where
  plain _ _ h := h
  tree _ _ _ h _ hl := (setLead_bare_write h hl).symm
  cut _ _ _ _ _ _ hcut := hcut
  lead _ g s t := setLead_setLead g s t

/-- Between near layouts, an expression is written as the same tree up to the trivia in front. -/
theorem Expr.write_near {e : Expr} (h : e.every Expr.isPlain = true) {l l' : Layout}
    (hl : Near l l') :
    (e.write.run l').1.bare = (e.write.run l).1.bare.setLead l'.pending ∧
      Near (e.write.run l).2 (e.write.run l').2 := by
  have htracks := Expr.tracks agrees_self e h 0 hl
  rw [Expr.rewrite_self] at htracks
  exact ⟨htracks.tree.trans (congrArg _ (rewrite_id 0 _)), htracks.near⟩

/-- Between near layouts with the same trivia pending, expressions are written as the same
    trees. -/
theorem Expr.writeList_near {es : List Expr} (h : Expr.everyIn Expr.isPlain es = true)
    {l l' : Layout} (hl : Near l l') (hpending : l'.pending = l.pending) :
    bareAll ((Expr.writeList es).run l').1 = bareAll ((Expr.writeList es).run l).1 ∧
      ((Expr.writeList es).run l').2.pending = ((Expr.writeList es).run l).2.pending ∧
      Near ((Expr.writeList es).run l).2 ((Expr.writeList es).run l').2 := by
  have htracks := Expr.tracksAll agrees_self es h 0 hl hpending
  rw [Expr.rewriteIn_self] at htracks
  exact ⟨htracks.row.trans (rewriteAll_id 0 _), htracks.pending, htracks.near⟩

end TypeLint.Program
