import TypeLint.Proofs.Program.Sizes

namespace TypeLint.Program

open Syntax Writer Green

/-- The place of the child of a step or assertion that stands close to what is in front of it, and
    the trivia between them. -/
def gap : Kind → Option (Nat × String)
  | .nonNullExpression | .elementAccessExpression | .callExpression => some (1, "")
  | .asExpression => some (1, " ")
  | .typeAssertionExpression => some (3, "")
  | _ => none

/-- The trivia in front of the child in a place. -/
def leadAt (place : Nat) : Green → String
  | .token .. => ""
  | .node _ _ _ children _ => leadAll (children.drop place)

/-- What stands behind the operand of a step or assertion, or behind the brackets of one in front,
    is as close to it as it is written. -/
def Tight (g : Green) : Prop :=
  ∀ place lead, gap g.kind = some (place, lead) → g.isLeaf = false → leadAt place g = lead

theorem tight_of_gap {g : Green} (h : gap g.kind = none) : Tight g := by
  intro place lead hgap
  rw [h] at hgap
  cases hgap

theorem tight_of_eq {g : Green} {place : Nat} {lead : String}
    (h : gap g.kind = some (place, lead)) (hlead : leadAt place g = lead) : Tight g := by
  intro place' lead' hgap _
  rw [h] at hgap
  cases hgap
  exact hlead

theorem token_tight (lead : String) (kind : Kind) (text : String) (payload : Payload)
    (labels : List String) : (Green.token lead kind text payload labels).Every Tight :=
  fun _ _ _ hleaf => nomatch hleaf

theorem mark_tight (lead : String) (kind : Kind) : (mark lead kind).Every Tight :=
  token_tight _ _ _ _ _

theorem tight_withLabel {g : Green} (label : String) (h : g.Every Tight) :
    (g.withLabel label).Every Tight := by
  cases g <;> exact h

/-- Writing goes on at the same level, in the same state, and a text that has been cut is
    remembered. -/
structure Onward (l l' : Layout) : Prop where
  indent : l'.indent = l.indent
  continues : l'.continues = l.continues
  cut : l'.cutText = none → l.cutText = none

theorem Onward.refl (l : Layout) : Onward l l := ⟨rfl, rfl, id⟩

theorem Onward.trans {l m n : Layout} (h : Onward l m) (h' : Onward m n) : Onward l n :=
  ⟨h'.indent.trans h.indent, h'.continues.trans h.continues, fun hcut => h.cut (h'.cut hcut)⟩

theorem Onward.behind {l m : Layout} (h : Onward l m) (text : String) :
    Onward l (m.behind text) :=
  ⟨h.indent, h.continues, h.cut⟩

theorem Onward.withTrivia {l m : Layout} (h : Onward l m) (text : String) :
    Onward l (m.withTrivia text) :=
  ⟨h.indent, h.continues, h.cut⟩

theorem Layout.onward_begun (l : Layout) (hl : l.continues = false) : Onward l l.begun :=
  ⟨l.indent_begun, l.continues_begun.trans hl.symm, fun hcut => l.cutText_begun ▸ hcut⟩

/-- A tree is written behind what is pending and leaves nothing pending. -/
structure Writes (l : Layout) (g : Green) (l' : Layout) : Prop extends Onward l l' where
  lead : g.lead = l.pending
  pending : l'.pending = ""
  tight : g.Every Tight

/-- A statement is written. What is pending before and behind it may be comments. -/
structure WritesStmt (l : Layout) (g : Green) (l' : Layout) : Prop extends Onward l l' where
  tight : g.Every Tight

theorem Writes.stmt {l l' : Layout} {g : Green} (h : Writes l g l') : WritesStmt l g l' :=
  ⟨h.toOnward, h.tight⟩

/-- Trees are written, and under a condition nothing is left pending. -/
structure WritesAll (settled : Prop) (l : Layout) (gs : List Green) (l' : Layout) : Prop
    extends Onward l l' where
  pending : settled → l'.pending = ""
  tight : EveryIn Tight gs

theorem WritesAll.nil {settled : Prop} {l : Layout} (h : settled → l.pending = "") :
    WritesAll settled l [] l :=
  ⟨.refl l, h, trivial⟩

theorem gap_eq_none_of_isTypePart {kind : Kind} (h : isTypePart kind = true) :
    gap kind = none := by
  unfold gap
  split <;> first | rfl | cases h

theorem tight_of_isType {g : Green} (h : IsType g) : g.Every Tight :=
  h.imp fun _ hkind => tight_of_gap (gap_eq_none_of_isTypePart hkind)

mutual

theorem TypeText.onward (t : TypeText) (h : t.Proper) (l : Layout) :
    Onward l (t.write.run l).2 ∧ (t.write.run l).1.lead = l.pending ∧
      (t.write.run l).2.pending = "" := by
  cases t with
  | keyword kind text => exact ⟨⟨rfl, rfl, id⟩, rfl, rfl⟩
  | literal kind text value =>
    simp only [TypeText.write, run_literalType]
    cases value with
    | none =>
      refine ⟨⟨rfl, rfl, fun hcut => ?_⟩, rfl, rfl⟩
      change l.cutText.or (some text) = none at hcut
      simp at hcut
    | some value => exact ⟨⟨rfl, rfl, id⟩, rfl, rfl⟩
  | name text => exact ⟨⟨rfl, rfl, id⟩, rfl, rfl⟩
  | array element =>
    obtain ⟨ih, hlead, -⟩ := TypeText.onward element h l
    exact ⟨⟨ih.indent, ih.continues, ih.cut⟩, hlead, rfl⟩
  | union parts => exact TypeText.onwardParts .barToken parts h.2 h.1 l
  | intersection parts => exact TypeText.onwardParts .ampersandToken parts h.2 h.1 l

theorem TypeText.onwardParts (separator : Kind) (parts : List TypeText)
    (h : TypeText.ProperIn parts) (hne : parts ≠ []) (l : Layout) :
    Onward l ((TypeText.writeParts separator parts).run l).2 ∧
      leadAll ((TypeText.writeParts separator parts).run l).1 = l.pending ∧
      ((TypeText.writeParts separator parts).run l).2.pending = "" := by
  match parts with
  | [] => exact absurd rfl hne
  | [part] => exact TypeText.onward part h.1 l
  | part :: next :: rest =>
    obtain ⟨ih, hlead, -⟩ := TypeText.onward part h.1 l
    obtain ⟨ihrest, -, hpending⟩ := TypeText.onwardParts separator (next :: rest) h.2 (by simp)
      (((((TypeText.write part).run l).2.withTrivia " ").behind
        ((separator.text?).getD "")).withTrivia " ")
    exact ⟨⟨ihrest.indent.trans ih.indent, ihrest.continues.trans ih.continues,
      fun hcut => ih.cut (ihrest.cut hcut)⟩, hlead, hpending⟩

end

theorem writeType_writes (text : String) (l : Layout) :
    Writes l ((writeType text).run l).1 ((writeType text).run l).2 := by
  obtain ⟨honward, hlead, hpending⟩ :=
    TypeText.onward _ (TypeText.ofText_proper text) l
  exact ⟨honward, hlead, hpending, tight_of_isType (writeType_isType text l)⟩

theorem writeParameters_writesAll (names : List String) (l : Layout) :
    WritesAll (names ≠ [] ∨ l.pending = "") l ((writeParameters names).run l).1
      ((writeParameters names).run l).2 := by
  induction names generalizing l with
  | nil => exact .nil (by simp)
  | cons name rest ih =>
    have hparameter (lead : String) : (branch .parameter (.parameter ⟨some 0, none⟩)
        [.token lead .identifier name (.identifier name) []]).Every Tight :=
      ⟨tight_of_gap rfl, token_tight _ _ _ _ _, trivial⟩
    cases rest with
    | nil => exact ⟨⟨rfl, rfl, id⟩, fun _ => rfl, hparameter _, trivial⟩
    | cons next rest =>
      have hrest := ih (((l.behind name).behind ",").withTrivia " ")
      exact ⟨⟨hrest.indent, hrest.continues, hrest.cut⟩, fun _ => hrest.pending (.inl (by simp)),
        hparameter _, mark_tight _ _, hrest.tight⟩

theorem writeParameterList_writesAll (names : List String) (l : Layout) :
    WritesAll True l ((writeParameterList names).run l).1
      ((writeParameterList names).run l).2 := by
  have h := writeParameters_writesAll names (l.behind "(")
  exact ⟨⟨h.indent, h.continues, h.cut⟩, fun _ => rfl, mark_tight _ _,
    everyIn_append h.tight (everyIn_singleton (mark_tight _ _))⟩

theorem writeSpans_writesAll (spans : List (String × String)) (l : Layout) :
    WritesAll (spans ≠ [] ∨ l.pending = "") l ((writeSpans spans).run l).1 ((writeSpans spans).run l).2 := by
  induction spans generalizing l with
  | nil => exact .nil (by simp)
  | cons span rest ih =>
    obtain ⟨name, text⟩ := span
    cases rest with
    | nil =>
      exact ⟨⟨rfl, rfl, id⟩, fun _ => rfl, ⟨tight_of_gap rfl, token_tight _ _ _ _ _,
        token_tight _ _ _ _ _, trivial⟩, trivial⟩
    | cons next rest =>
      have hrest := ih ((l.behind name).behind ("\x7d" ++ text ++ "$\x7b"))
      exact ⟨⟨hrest.indent, hrest.continues, hrest.cut⟩, fun _ => hrest.pending (.inl (by simp)),
        ⟨tight_of_gap rfl, token_tight _ _ _ _ _, token_tight _ _ _ _ _,
          trivial⟩, hrest.tight⟩

/-- Braces leave the level as they find it. -/
theorem braced_writesAll (isEmpty : Bool) {contents : Writer (List Green)} {settled : Prop}
    (h : ∀ l, l.continues = false → WritesAll settled l (contents.run l).1 (contents.run l).2)
    {l : Layout} (hl : l.continues = false) :
    WritesAll True l ((braced isEmpty contents).run l).1 ((braced isEmpty contents).run l).2 := by
  have hinside := h (l.behind "\x7b").deeper hl
  have hindent : ((contents.run (l.behind "\x7b").deeper).2.shallower).indent = l.indent := by
    change (contents.run (l.behind "\x7b").deeper).2.indent - 1 = l.indent
    rw [hinside.indent]
    rfl
  rw [run_braced]
  cases isEmpty
  · exact ⟨⟨hindent, hinside.continues, hinside.cut⟩, fun _ => rfl, mark_tight _ _,
      everyIn_append hinside.tight (everyIn_singleton (mark_tight _ _))⟩
  · exact ⟨⟨hindent, hinside.continues, hinside.cut⟩, fun _ => rfl, mark_tight _ _,
      everyIn_append hinside.tight (everyIn_singleton (mark_tight _ _))⟩

theorem writeBlock_writes (isEmpty : Bool) {statements : Writer (List Green)} {settled : Prop}
    (h : ∀ l, l.continues = false → WritesAll settled l (statements.run l).1 (statements.run l).2)
    {l : Layout} (hl : l.continues = false) :
    Writes l ((writeBlock isEmpty statements).run l).1
      ((writeBlock isEmpty statements).run l).2 := by
  have hbraced := braced_writesAll isEmpty h hl
  exact ⟨⟨hbraced.indent, hbraced.continues, hbraced.cut⟩, by cases isEmpty <;> rfl,
    hbraced.pending trivial, tight_of_gap rfl, hbraced.tight⟩

theorem writeDeclare_onward (isDeclare : Bool) (l : Layout) :
    Onward l ((writeDeclare isDeclare).run l).2 := by
  cases isDeclare <;> exact ⟨rfl, rfl, id⟩

theorem writeDefinite_onward (definite : Bool) (l : Layout) :
    Onward l ((writeDefinite definite).run l).2 := by
  cases definite <;> exact ⟨rfl, rfl, id⟩

theorem writeDeclaredType_onward (typeText : Option String) (l : Layout) :
    Onward l ((writeDeclaredType typeText).run l).2 ∧
      EveryIn Tight ((writeDeclaredType typeText).run l).1 := by
  cases typeText with
  | none => exact ⟨.refl l, trivial⟩
  | some text =>
    have htype := writeType_writes text ((l.behind ":").withTrivia " ")
    exact ⟨⟨htype.indent, htype.continues, htype.cut⟩, mark_tight _ _, htype.tight, trivial⟩

/-- A variable statement around an initial value without comments. -/
theorem writeVariable_writes (isDeclare : Bool) (kind : VariableKind) (name : String)
    (definite : Bool) (typeText : Option String) {initializer : Writer (List Green)} (settled : Prop)
    (h : ∀ l, l.continues = false →
      WritesAll settled l (initializer.run l).1 (initializer.run l).2) (l : Layout) :
    Writes l.begun ((writeVariable isDeclare kind name definite typeText initializer).run l).1
      ((writeVariable isDeclare kind name definite typeText initializer).run l).2 := by
  have hdeclare := writeDeclare_onward isDeclare l.begun
  have hdefinite := writeDefinite_onward definite
    (((((writeDeclare isDeclare).run l.begun).2.behind ((kind.keyword.text?).getD "")).withTrivia
      " ").behind name)
  obtain ⟨hdeclared, hannotated⟩ := writeDeclaredType_onward typeText
    ((writeDefinite definite).run (((((writeDeclare isDeclare).run l.begun).2.behind
      ((kind.keyword.text?).getD "")).withTrivia " ").behind name)).2
  have honward := (((hdeclare.behind ((kind.keyword.text?).getD "")).withTrivia " ").behind
    name).trans (hdefinite.trans hdeclared)
  have hvalue := h _ (honward.continues.trans l.continues_begun)
  have hmarks (l : Layout) : EveryIn Tight ((writeDefinite definite).run l).1 := by
    cases definite
    · trivial
    · exact everyIn_singleton (mark_tight _ _)
  have hwords : EveryIn Tight ((writeDeclare isDeclare).run l.begun).1 := by
    cases isDeclare
    · trivial
    · exact everyIn_singleton (mark_tight _ _)
  rw [writeVariable_eq]
  simp only [run_bind, run_pure, run_token, run_identifier, run_space, run_beginStatement]
  refine ⟨(honward.trans hvalue.toOnward).behind ";", ?_, rfl, tight_of_gap rfl,
    everyIn_append hwords ⟨⟨tight_of_gap rfl, mark_tight _ _,
      ⟨tight_of_gap rfl, token_tight _ _ _ _ _,
        everyIn_append (everyIn_append (hmarks _) hannotated) hvalue.tight⟩, trivial⟩,
      mark_tight _ _, trivial⟩⟩
  cases isDeclare <;> rfl

mutual

/-- An expression without comments is written behind what is pending. -/
theorem Expr.writes (e : Expr) (h : e.every Expr.isPlain = true) (l : Layout)
    (hl : l.continues = false) : Writes l (e.write.run l).1 (e.write.run l).2 := by
  cases e with
  | substitution head spans =>
    have hspans := writeSpans_writesAll spans (l.behind ("\x60" ++ head ++ "$\x7b"))
    exact ⟨⟨hspans.indent, hspans.continues, hspans.cut⟩, rfl, hspans.pending (.inr rfl),
      tight_of_gap rfl, token_tight _ _ _ _ _, hspans.tight⟩
  | paren e =>
    simp only [Expr.every, Bool.and_eq_true] at h
    have he := Expr.writes e h.2 (l.behind "(") hl
    exact ⟨⟨he.indent, he.continues, he.cut⟩, rfl, rfl, tight_of_gap rfl, mark_tight _ _,
      he.tight, mark_tight _ _, trivial⟩
  | binary left operator right =>
    simp only [Expr.every, Bool.and_eq_true] at h
    have hleft := Expr.writes left h.1.2 l hl
    have hright := Expr.writes right h.2
      ((((left.write.run l).2.withTrivia " ").behind ((operator.text?).getD "")).withTrivia " ")
      (hleft.continues.trans hl)
    exact ⟨⟨hright.indent.trans hleft.indent, hright.continues.trans hleft.continues,
      fun hcut => hleft.cut (hright.cut hcut)⟩, hleft.lead, hright.pending, tight_of_gap rfl,
      hleft.tight, mark_tight _ _, hright.tight, trivial⟩
  | prefixed operator e =>
    simp only [Expr.every, Bool.and_eq_true] at h
    rw [run_prefixed]
    have hkind : gap (if operator = .typeOfKeyword then Kind.typeOfExpression
        else .prefixUnaryExpression) = none := by split <;> rfl
    cases operator.isKeyword
    · have he := Expr.writes e h.2 (l.behind ((operator.text?).getD "")) hl
      exact ⟨⟨he.indent, he.continues, he.cut⟩, rfl, he.pending, tight_of_gap hkind,
        mark_tight _ _, he.tight, trivial⟩
    · have he := Expr.writes e h.2 ((l.behind ((operator.text?).getD "")).withTrivia " ") hl
      exact ⟨⟨he.indent, he.continues, he.cut⟩, rfl, he.pending, tight_of_gap hkind,
        mark_tight _ _, he.tight, trivial⟩
  | postfixed e operator =>
    simp only [Expr.every, Bool.and_eq_true] at h
    have he := Expr.writes e h.2 l hl
    exact ⟨⟨he.indent, he.continues, he.cut⟩, he.lead, rfl, tight_of_gap rfl, he.tight,
      mark_tight _ _, trivial⟩
  | nonNull e =>
    simp only [Expr.every, Bool.and_eq_true] at h
    have he := Expr.writes e h.2 l hl
    exact ⟨⟨he.indent, he.continues, he.cut⟩, he.lead, rfl, tight_of_eq rfl he.pending, he.tight,
      mark_tight _ _, trivial⟩
  | property e optional name =>
    simp only [Expr.every, Bool.and_eq_true] at h
    have he := Expr.writes e h.2 l hl
    exact ⟨⟨he.indent, he.continues, he.cut⟩, he.lead, rfl, tight_of_gap rfl, he.tight,
      mark_tight _ _, token_tight _ _ _ _ _, trivial⟩
  | element e optional argument =>
    simp only [Expr.every, Bool.and_eq_true] at h
    have he := Expr.writes e h.1.2 l hl
    cases optional
    · have hargument := Expr.writes argument h.2 ((e.write.run l).2.behind "[")
        (he.continues.trans hl)
      exact ⟨⟨hargument.indent.trans he.indent, hargument.continues.trans he.continues,
        fun hcut => he.cut (hargument.cut hcut)⟩, he.lead, rfl, tight_of_eq rfl he.pending,
        he.tight, mark_tight _ _, hargument.tight, mark_tight _ _, trivial⟩
    · have hargument := Expr.writes argument h.2 (((e.write.run l).2.behind "?.").behind "[")
        (he.continues.trans hl)
      exact ⟨⟨hargument.indent.trans he.indent, hargument.continues.trans he.continues,
        fun hcut => he.cut (hargument.cut hcut)⟩, he.lead, rfl, tight_of_eq rfl he.pending,
        he.tight, mark_tight _ _, mark_tight _ _, hargument.tight, mark_tight _ _, trivial⟩
  | call callee optional arguments =>
    simp only [Expr.every, Bool.and_eq_true] at h
    have hcallee := Expr.writes callee h.1.2 l hl
    cases optional
    · have hitems := Expr.writesAll arguments h.2 ((callee.write.run l).2.behind "(")
        (hcallee.continues.trans hl)
      exact ⟨⟨hitems.indent.trans hcallee.indent, hitems.continues.trans hcallee.continues,
        fun hcut => hcallee.cut (hitems.cut hcut)⟩, hcallee.lead, rfl,
        tight_of_eq rfl hcallee.pending, hcallee.tight, mark_tight _ _,
        everyIn_append hitems.tight (everyIn_singleton (mark_tight _ _))⟩
    · have hitems := Expr.writesAll arguments h.2
        (((callee.write.run l).2.behind "?.").behind "(") (hcallee.continues.trans hl)
      exact ⟨⟨hitems.indent.trans hcallee.indent, hitems.continues.trans hcallee.continues,
        fun hcut => hcallee.cut (hitems.cut hcut)⟩, hcallee.lead, rfl,
        tight_of_eq rfl hcallee.pending, hcallee.tight, mark_tight _ _, mark_tight _ _,
        everyIn_append hitems.tight (everyIn_singleton (mark_tight _ _))⟩
  | conditional condition whenTrue whenFalse =>
    simp only [Expr.every, Bool.and_eq_true] at h
    have hc := Expr.writes condition h.1.1.2 l hl
    have ht := Expr.writes whenTrue h.1.2
      ((((condition.write.run l).2.withTrivia " ").behind "?").withTrivia " ")
      (hc.continues.trans hl)
    have hf := Expr.writes whenFalse h.2
      ((((whenTrue.write.run _).2.withTrivia " ").behind ":").withTrivia " ")
      (ht.continues.trans (hc.continues.trans hl))
    exact ⟨⟨hf.indent.trans (ht.indent.trans hc.indent),
      hf.continues.trans (ht.continues.trans hc.continues),
      fun hcut => hc.cut (ht.cut (hf.cut hcut))⟩, hc.lead, hf.pending, tight_of_gap rfl,
      hc.tight, mark_tight _ _, ht.tight, mark_tight _ _, hf.tight, trivial⟩
  | asType e typeText =>
    simp only [Expr.every, Bool.and_eq_true] at h
    have he := Expr.writes e h.2 l hl
    have htype := writeType_writes typeText
      ((((e.write.run l).2.withTrivia " ").behind "as").withTrivia " ")
    have hlead : ((e.write.run l).2.withTrivia " ").pending = " " :=
      congrArg (· ++ " ") he.pending
    exact ⟨⟨htype.indent.trans he.indent, htype.continues.trans he.continues,
      fun hcut => he.cut (htype.cut hcut)⟩, he.lead, htype.pending, tight_of_eq rfl hlead,
      he.tight, mark_tight _ _, htype.tight, trivial⟩
  | satisfiesType e typeText =>
    simp only [Expr.every, Bool.and_eq_true] at h
    have he := Expr.writes e h.2 l hl
    have htype := writeType_writes typeText
      ((((e.write.run l).2.withTrivia " ").behind "satisfies").withTrivia " ")
    exact ⟨⟨htype.indent.trans he.indent, htype.continues.trans he.continues,
      fun hcut => he.cut (htype.cut hcut)⟩, he.lead, htype.pending, tight_of_gap rfl,
      he.tight, mark_tight _ _, htype.tight, trivial⟩
  | typeAssertion typeText e =>
    simp only [Expr.every, Bool.and_eq_true] at h
    have htype := writeType_writes typeText (l.behind "<")
    have he := Expr.writes e h.2 (((writeType typeText).run (l.behind "<")).2.behind ">")
      (htype.continues.trans hl)
    exact ⟨⟨he.indent.trans htype.indent, he.continues.trans htype.continues,
      fun hcut => htype.cut (he.cut hcut)⟩, rfl, he.pending, tight_of_eq rfl he.lead,
      mark_tight _ _, htype.tight, mark_tight _ _, he.tight, trivial⟩
  | arrow parameters body =>
    simp only [Expr.every, Bool.and_eq_true] at h
    have hlist := writeParameterList_writesAll parameters l
    have hbody := Expr.writes body h.2
      ((((((writeParameterList parameters).run l).2.withTrivia " ").behind "=>").withTrivia " "))
      (hlist.continues.trans hl)
    exact ⟨⟨hbody.indent.trans hlist.indent, hbody.continues.trans hlist.continues,
      fun hcut => hlist.cut (hbody.cut hcut)⟩, rfl, hbody.pending, tight_of_gap rfl,
      everyIn_append hlist.tight ⟨mark_tight _ _, hbody.tight, trivial⟩⟩
  | arrowBlock parameters body =>
    simp only [Expr.every, Bool.and_eq_true] at h
    have hlist := writeParameterList_writesAll parameters l
    have hbody := writeBlock_writes body.isEmpty (Item.writesAll body h.2)
      (l := ((((writeParameterList parameters).run l).2.withTrivia " ").behind "=>").withTrivia " ")
      (hlist.continues.trans hl)
    exact ⟨⟨hbody.indent.trans hlist.indent, hbody.continues.trans hlist.continues,
      fun hcut => hlist.cut (hbody.cut hcut)⟩, rfl, hbody.pending, tight_of_gap rfl,
      everyIn_append hlist.tight ⟨mark_tight _ _, hbody.tight, trivial⟩⟩
  | function parameters body =>
    simp only [Expr.every, Bool.and_eq_true] at h
    have hlist := writeParameterList_writesAll parameters (l.behind "function")
    have hbody := writeBlock_writes body.isEmpty (Item.writesAll body h.2)
      (l := ((writeParameterList parameters).run (l.behind "function")).2.withTrivia " ")
      (hlist.continues.trans hl)
    exact ⟨⟨hbody.indent.trans hlist.indent, hbody.continues.trans hlist.continues,
      fun hcut => hlist.cut (hbody.cut hcut)⟩, rfl, hbody.pending, tight_of_gap rfl,
      mark_tight _ _, everyIn_append hlist.tight ⟨hbody.tight, trivial⟩⟩
  | array items =>
    simp only [Expr.every, Bool.and_eq_true] at h
    have hitems := Expr.writesAll items h.2 (l.behind "[") hl
    exact ⟨⟨hitems.indent, hitems.continues, hitems.cut⟩, rfl, rfl, tight_of_gap rfl,
      mark_tight _ _, everyIn_append hitems.tight (everyIn_singleton (mark_tight _ _))⟩
  | emptyObject =>
    exact ⟨⟨rfl, rfl, id⟩, rfl, rfl, tight_of_gap rfl, mark_tight _ _, mark_tight _ _,
      trivial⟩
  | commentBefore text e => simp [Expr.every, Expr.isPlain] at h
  | commentAfter e text => simp [Expr.every, Expr.isPlain] at h
  | emptyCall callee optional text => simp [Expr.every, Expr.isPlain] at h
  | emptyArray text => simp [Expr.every, Expr.isPlain] at h
  | typeNode text => exact writeType_writes text l
  | labeled label e =>
    simp only [Expr.every, Bool.and_eq_true] at h
    have he := Expr.writes e h.2 l hl
    exact ⟨he.toOnward, (lead_withLabel _ label).trans he.lead, he.pending,
      tight_withLabel label he.tight⟩
  | _ => exact ⟨⟨rfl, rfl, id⟩, rfl, rfl, token_tight _ _ _ _ _⟩

theorem Expr.writesAll (es : List Expr) (h : Expr.everyIn Expr.isPlain es = true) (l : Layout)
    (hl : l.continues = false) :
    WritesAll (es ≠ [] ∨ l.pending = "") l ((Expr.writeList es).run l).1 ((Expr.writeList es).run l).2 := by
  match es with
  | [] => exact .nil (by simp)
  | [e] =>
    rw [Expr.everyIn, Bool.and_eq_true] at h
    have he := Expr.writes e h.1 l hl
    exact ⟨he.toOnward, fun _ => he.pending, everyIn_singleton he.tight⟩
  | e :: next :: rest =>
    rw [Expr.everyIn, Bool.and_eq_true] at h
    have he := Expr.writes e h.1 l hl
    have hrest := Expr.writesAll (next :: rest) h.2
      (((e.write.run l).2.behind ",").withTrivia " ") (he.continues.trans hl)
    exact ⟨⟨hrest.indent.trans he.indent, hrest.continues.trans he.continues,
      fun hcut => he.cut (hrest.cut hcut)⟩, fun _ => hrest.pending (.inl (by simp)),
      he.tight, mark_tight _ _, hrest.tight⟩

/-- A statement is written behind what begins its line, or behind the head that it continues. -/
theorem Stmt.writes (s : Stmt) (h : s.every Expr.isPlain = true) (l : Layout) :
    WritesStmt l.begun (s.write.run l).1 (s.write.run l).2 := by
  match s with
  | .expression e =>
    simp only [Stmt.write, run_bind, run_beginStatement]
    have he := Expr.writes e h l.begun l.continues_begun
    exact ⟨⟨he.indent, he.continues, he.cut⟩, tight_of_gap rfl, he.tight, mark_tight _ _, trivial⟩
  | .variable kind name typeText =>
    exact (writeVariable_writes _ _ _ _ _ _ (fun _ _ => .nil False.elim) l).stmt
  | .initialized kind name typeText initializer =>
    refine (writeVariable_writes _ _ _ _ _ True (fun l hl => ?_) l).stmt
    have hvalue := Expr.writes initializer h (((l.withTrivia " ").behind "=").withTrivia " ") hl
    exact ⟨⟨hvalue.indent, hvalue.continues, hvalue.cut⟩, fun _ => hvalue.pending,
      mark_tight _ _, hvalue.tight, trivial⟩
  | .declared kind name typeText =>
    exact (writeVariable_writes _ _ _ _ _ _ (fun _ _ => .nil False.elim) l).stmt
  | .definite name typeText =>
    exact (writeVariable_writes _ _ _ _ _ _ (fun _ _ => .nil False.elim) l).stmt
  | .block body =>
    simp only [Stmt.write, run_bind, run_beginStatement]
    exact (writeBlock_writes body.isEmpty (Item.writesAll body h) l.continues_begun).stmt
  | .ifThen condition consequent =>
    simp only [Stmt.every, Bool.and_eq_true] at h
    simp only [Stmt.write, run_bind, run_beginStatement]
    have hc := Expr.writes condition h.1 (l.begun.head "if") l.continues_begun
    have hs := Stmt.writes consequent h.2
      ((condition.write.run (l.begun.head "if")).2.behind ")").inline
    exact ⟨⟨hs.indent.trans hc.indent, l.continues_begun.symm, fun hcut => hc.cut (hs.cut hcut)⟩,
      tight_of_gap rfl, mark_tight _ _, mark_tight _ _, hc.tight,
      mark_tight _ _, hs.tight, trivial⟩
  | .ifElse condition consequent alternative =>
    simp only [Stmt.every, Bool.and_eq_true] at h
    simp only [Stmt.write, run_bind, run_beginStatement]
    have hc := Expr.writes condition h.1.1 (l.begun.head "if") l.continues_begun
    have hs := Stmt.writes consequent h.1.2
      ((condition.write.run (l.begun.head "if")).2.behind ")").inline
    have ha := Stmt.writes alternative h.2
      (((((consequent.write.run ((condition.write.run (l.begun.head "if")).2.behind
        ")").inline).2.continuing false).withTrivia " ").behind "else").inline)
    exact ⟨⟨ha.indent.trans (hs.indent.trans hc.indent), l.continues_begun.symm,
      fun hcut => hc.cut (hs.cut (ha.cut hcut))⟩, tight_of_gap rfl,
      mark_tight _ _, mark_tight _ _, hc.tight, mark_tight _ _, hs.tight, mark_tight _ _,
      ha.tight, trivial⟩
  | .whileLoop condition body =>
    simp only [Stmt.every, Bool.and_eq_true] at h
    simp only [Stmt.write, run_bind, run_beginStatement]
    have hc := Expr.writes condition h.1 (l.begun.head "while") l.continues_begun
    have hs := Stmt.writes body h.2
      ((condition.write.run (l.begun.head "while")).2.behind ")").inline
    exact ⟨⟨hs.indent.trans hc.indent, l.continues_begun.symm, fun hcut => hc.cut (hs.cut hcut)⟩,
      tight_of_gap rfl, mark_tight _ _, mark_tight _ _, hc.tight,
      mark_tight _ _, hs.tight, trivial⟩
  | .doLoop body condition =>
    simp only [Stmt.every, Bool.and_eq_true] at h
    simp only [Stmt.write, run_bind, run_beginStatement]
    have hs := Stmt.writes body h.1 (l.begun.behind "do").inline
    have hc := Expr.writes condition h.2 ((((body.write.run
      (l.begun.behind "do").inline).2.continuing false).withTrivia " ").head "while") rfl
    exact ⟨⟨hc.indent.trans hs.indent, hc.continues.trans l.continues_begun.symm,
      fun hcut => hs.cut (hc.cut hcut)⟩, tight_of_gap rfl, mark_tight _ _,
      hs.tight, mark_tight _ _, mark_tight _ _, hc.tight, mark_tight _ _, mark_tight _ _, trivial⟩
  | .forever body =>
    simp only [Stmt.write, run_bind, run_beginStatement]
    have hs := Stmt.writes body h
      ((((l.begun.head "for").behind ";").behind ";").behind ")").inline
    exact ⟨⟨hs.indent, l.continues_begun.symm, hs.cut⟩, tight_of_gap rfl,
      mark_tight _ _, mark_tight _ _, mark_tight _ _, mark_tight _ _, mark_tight _ _, hs.tight,
      trivial⟩
  | .forLoop condition body =>
    simp only [Stmt.every, Bool.and_eq_true] at h
    simp only [Stmt.write, run_bind, run_beginStatement]
    have hc := Expr.writes condition h.1 (((l.begun.head "for").behind ";").withTrivia " ")
      l.continues_begun
    have hs := Stmt.writes body h.2 (((condition.write.run (((l.begun.head "for").behind
      ";").withTrivia " ")).2.behind ";").behind ")").inline
    exact ⟨⟨hs.indent.trans hc.indent, l.continues_begun.symm, fun hcut => hc.cut (hs.cut hcut)⟩,
      tight_of_gap rfl, mark_tight _ _, mark_tight _ _, mark_tight _ _,
      hc.tight, mark_tight _ _, mark_tight _ _, hs.tight, trivial⟩
  | .switch e clauses =>
    simp only [Stmt.every, Bool.and_eq_true] at h
    simp only [Stmt.write, run_bind, run_beginStatement]
    have he := Expr.writes e h.1 (l.begun.head "switch") l.continues_begun
    have hbraced := braced_writesAll clauses.isEmpty (Clause.writesAll clauses h.2)
      (l := ((e.write.run (l.begun.head "switch")).2.behind ")").withTrivia " ")
      (he.continues.trans l.continues_begun)
    exact ⟨⟨hbraced.indent.trans he.indent, hbraced.continues.trans he.continues,
      fun hcut => he.cut (hbraced.cut hcut)⟩,
      tight_of_gap rfl, mark_tight _ _, mark_tight _ _, he.tight, mark_tight _ _,
      ⟨tight_of_gap rfl, hbraced.tight⟩, trivial⟩
  | .breakOut =>
    simp only [Stmt.write, run_bind, run_beginStatement]
    exact ⟨⟨rfl, rfl, id⟩, tight_of_gap rfl, mark_tight _ _, mark_tight _ _, trivial⟩
  | .returned e =>
    simp only [Stmt.write, run_bind, run_beginStatement]
    have he := Expr.writes e h ((l.begun.behind "return").withTrivia " ") l.continues_begun
    exact ⟨⟨he.indent, he.continues, he.cut⟩, tight_of_gap rfl, mark_tight _ _,
      he.tight, mark_tight _ _, trivial⟩
  | .thrown e =>
    simp only [Stmt.write, run_bind, run_beginStatement]
    have he := Expr.writes e h ((l.begun.behind "throw").withTrivia " ") l.continues_begun
    exact ⟨⟨he.indent, he.continues, he.cut⟩, tight_of_gap rfl, mark_tight _ _,
      he.tight, mark_tight _ _, trivial⟩
  | .commentBefore text s =>
    simp only [Stmt.write, run_bind, run_comment]
    have hs := Stmt.writes s h (l.begun.withTrivia text)
    have hbegun := (Onward.refl l.begun).withTrivia text |>.trans
      (Layout.onward_begun (l.begun.withTrivia text) l.continues_begun)
    exact ⟨hbegun.trans hs.toOnward, hs.tight⟩
  | .commentAfter s text =>
    simp only [Stmt.write, run_bind, run_pure, run_comment]
    have hs := Stmt.writes s h l
    have hbegun := (s.write.run l).2.onward_begun (hs.continues.trans l.continues_begun)
    exact ⟨(hs.toOnward.trans hbegun).withTrivia text, hs.tight⟩
  | .labeled label s =>
    have hs := Stmt.writes s h l
    exact ⟨hs.toOnward, tight_withLabel label hs.tight⟩

theorem Item.writesAll (items : List Item) (h : Item.everyIn Expr.isPlain items = true)
    (l : Layout) (hl : l.continues = false) :
    WritesAll False l ((Item.writeList items).run l).1 ((Item.writeList items).run l).2 := by
  match items with
  | [] => exact .nil False.elim
  | .comment text :: rest =>
    simp only [Item.writeList, run_bind, run_comment]
    have hrest := Item.writesAll rest h (l.begun.withTrivia text) l.continues_begun
    exact ⟨(l.onward_begun hl).trans ⟨hrest.indent, hrest.continues, hrest.cut⟩, False.elim,
      hrest.tight⟩
  | .statement s :: rest =>
    rw [Item.everyIn, Bool.and_eq_true] at h
    have hs := Stmt.writes s h.1 l
    have hrest := Item.writesAll rest h.2 (s.write.run l).2
      (hs.continues.trans l.continues_begun)
    exact ⟨(l.onward_begun hl).trans (hs.toOnward.trans hrest.toOnward), False.elim, hs.tight,
      hrest.tight⟩

theorem Clause.writesAll (clauses : List Clause)
    (h : Clause.everyIn Expr.isPlain clauses = true) (l : Layout) (hl : l.continues = false) :
    WritesAll False l ((Clause.writeList clauses).run l).1
      ((Clause.writeList clauses).run l).2 := by
  match clauses with
  | [] => exact .nil False.elim
  | c :: rest =>
    rw [Clause.everyIn, Bool.and_eq_true] at h
    have hc := Clause.writes c h.1 l hl
    have hrest := Clause.writesAll rest h.2 (c.write.run l).2 (hc.continues.trans hl)
    exact ⟨hc.toOnward.trans hrest.toOnward, False.elim, everyIn_append hc.tight hrest.tight⟩

theorem Clause.writes (c : Clause) (h : c.every Expr.isPlain = true) (l : Layout)
    (hl : l.continues = false) :
    WritesAll False l (c.write.run l).1 (c.write.run l).2 := by
  match c with
  | .comment text =>
    simp only [Clause.write, run_bind, run_comment]
    exact ⟨(l.onward_begun hl).withTrivia text, False.elim, trivial⟩
  | .caseOf e body =>
    rw [Clause.every, Bool.and_eq_true] at h
    simp only [Clause.write, run_bind, run_beginStatement]
    have he := Expr.writes e h.1 ((l.begun.behind "case").withTrivia " ") l.continues_begun
    have hbody := Item.writesAll body h.2 (((e.write.run
      ((l.begun.behind "case").withTrivia " ")).2.behind ":").deeper)
      (he.continues.trans l.continues_begun)
    exact ⟨(l.onward_begun hl).trans
      ⟨(congrArg (· - 1) hbody.indent).trans he.indent, hbody.continues.trans he.continues,
        fun hcut => he.cut (hbody.cut hcut)⟩, False.elim,
      ⟨tight_of_gap rfl, mark_tight _ _, he.tight, mark_tight _ _, hbody.tight⟩, trivial⟩
  | .default body =>
    simp only [Clause.write, run_bind, run_beginStatement]
    have hbody := Item.writesAll body h (((l.begun.behind "default").behind ":").deeper)
      l.continues_begun
    exact ⟨(l.onward_begun hl).trans
      ⟨congrArg (· - 1) hbody.indent, hbody.continues, hbody.cut⟩, False.elim,
      ⟨tight_of_gap rfl, mark_tight _ _, mark_tight _ _, hbody.tight⟩, trivial⟩
  | .labeled label c =>
    have hc := Clause.writes c h l hl
    refine ⟨hc.toOnward, False.elim, everyIn_iff.mpr fun g hg => ?_⟩
    obtain ⟨inner, hinner, rfl⟩ := List.mem_map.mp hg
    exact tight_withLabel label (everyIn_iff.mp hc.tight inner hinner)

end

end TypeLint.Program
