import TypeLint.Proofs.Program.Merging

namespace TypeLint.Program

open Syntax Writer Green

/-- The signs among the operators in front of an expression. -/
def prefixMarks : List Kind :=
  [.plusToken, .minusToken, .exclamationToken, .tildeToken, .plusPlusToken, .minusMinusToken]

/-- Keywords are keywords, and what stands in front of an expression or behind it is an operator
    that may stand there. -/
def Expr.isConventional : Expr → Bool
  | .keyword kind => kind.isKeyword
  | .prefixed kind _ => kind.isKeyword || prefixMarks.contains kind
  | .postfixed _ kind => kind == .plusPlusToken || kind == .minusMinusToken
  | _ => true

/-- The keywords and operators of a program are what they are used as. -/
abbrev Conventional (p : TypeLint.Program) : Prop := Item.everyIn Expr.isConventional p = true

/-- Unless there is trivia between them, one tree stands right behind an opening token, or right in
    front of a closing one, or both are tokens, or the first one is complete. -/
def Fits (c d : Green) : Prop :=
  d.lead = "" →
    c.isLeaf = true ∧ (d.isLeaf = true ∨ c.kind.opens = true) ∨
      d.isLeaf = true ∧ d.kind.closes = true ∨ c.lastKind.stops = true

/-- The operand of an assertion or step is an expression, and so is what stands behind the brackets
    of an assertion. The name in a property access is a name, and a type does not end as a statement
    does. -/
def OperandFits (kind : Kind) (children : List Green) : Prop :=
  match kind with
  | .typeAssertionExpression => ∀ e ∈ children.getLast?, e.firstKind.starts = true
  | .asExpression =>
    (∀ e ∈ children.head?, e.lastKind.ends = true) ∧
      ∀ type ∈ children.getLast?, type.lastKind.stops = false
  | .propertyAccessExpression =>
    (∀ e ∈ children.head?, e.lastKind.ends = true) ∧
      ∀ name ∈ children.getLast?, name.firstKind = .identifier
  | .nonNullExpression | .elementAccessExpression | .callExpression =>
    ∀ e ∈ children.head?, e.lastKind.ends = true
  | _ => True

/-- The children of the outermost node stand next to each other as they should. -/
def Fitting : Green → Prop
  | .token .. => True
  | .node kind _ _ children _ => children.IsChain Fits ∧ OperandFits kind children

section

variable {c d : Green}

theorem fits_leaves (hc : c.isLeaf = true) (hd : d.isLeaf = true) : Fits c d :=
  fun _ => .inl ⟨hc, .inl hd⟩

theorem fits_opener (c : Green) (hc : c.isLeaf = true) (h : c.kind.opens = true) (d : Green) :
    Fits c d :=
  fun _ => .inl ⟨hc, .inr h⟩

theorem fits_closer (c : Green) (hd : d.isLeaf = true) (h : d.kind.closes = true) : Fits c d :=
  fun _ => .inr (.inl ⟨hd, h⟩)

theorem fits_of_stop (h : c.lastKind.stops = true) (d : Green) : Fits c d :=
  fun _ => .inr (.inr h)

theorem fits_of_lead_ne (c : Green) (h : d.lead ≠ "") : Fits c d := fun hlead => absurd hlead h

theorem isChain_cons {gs : List Green} (h : gs.IsChain Fits) (hc : ∀ d ∈ gs.head?, Fits c d) :
    (c :: gs).IsChain Fits :=
  List.isChain_cons.mpr ⟨hc, h⟩

theorem isChain_concat {gs : List Green} (h : gs.IsChain Fits) (hc : ∀ c ∈ gs.getLast?, Fits c d) :
    (gs ++ [d]).IsChain Fits := by
  refine List.isChain_append.mpr ⟨h, List.isChain_singleton d, fun c hlast d' hd => ?_⟩
  obtain rfl : d = d' := by simpa using hd
  exact hc c hlast

/-- Trees between brackets. -/
theorem isChain_enclosed {gs : List Green} (h : gs.IsChain Fits) (lead lead' : String)
    {opening closing : Kind} (hopening : opening.opens = true) (hclosing : closing.closes = true) :
    (mark lead opening :: (gs ++ [mark lead' closing])).IsChain Fits :=
  isChain_cons (isChain_concat h fun c _ => fits_closer c rfl hclosing)
    fun d _ => fits_opener (mark lead opening) rfl hopening d

/-- A word and a condition in parentheses, and what stands behind them. -/
theorem isChain_head {gs : List Green} (h : gs.IsChain Fits) (lead lead' lead'' : String)
    (word : Kind) (test : Green) :
    (mark lead word :: mark lead' .openParenToken :: test :: mark lead'' .closeParenToken ::
      gs).IsChain Fits :=
  .cons_cons (fits_closer _ rfl rfl) (.cons_cons (fits_opener _ rfl rfl _)
    (.cons_cons (fits_closer _ rfl rfl)
      (isChain_cons h fun d _ => fits_opener _ rfl rfl d)))

/-- Complete trees one behind the other. -/
theorem isChain_of_stops {gs : List Green} (h : ∀ g ∈ gs, g.lastKind.stops = true) :
    gs.IsChain Fits := by
  induction gs with
  | nil => exact .nil
  | cons g gs ih =>
    obtain ⟨hg, hrest⟩ := List.forall_mem_cons.mp h
    exact isChain_cons (ih hrest) fun d _ => fits_of_stop hg d

theorem lastKindAll_of_forall {P : Kind → Prop} {gs : List Green} (hne : gs ≠ [])
    (h : ∀ g ∈ gs, P g.lastKind) : P (lastKindAll gs) := by
  obtain ⟨front, g, rfl⟩ := (List.eq_nil_or_concat gs).resolve_left hne
  rw [List.concat_eq_append, lastKindAll_append]
  exact h g (by simp)

theorem lastKindAll_cons (g : Green) {gs : List Green} (h : gs ≠ []) :
    lastKindAll (g :: gs) = lastKindAll gs := by
  cases gs with
  | nil => exact absurd rfl h
  | cons next gs => rfl

end

theorem isPunctuation_of_isKeyword {kind : Kind} (h : kind.isKeyword = true) :
    kind.isPunctuation = false ∧ kind.stops = false := by
  cases kind <;> first | exact ⟨rfl, rfl⟩ | cases h

/-- A tree is written behind what is pending, and everything in it stands as it should. -/
structure Fitted (l : Layout) (g : Green) : Prop where
  lead : g.lead = "" → l.pending = ""
  fitting : g.Every Fitting

/-- What is written begins and ends as an expression does. -/
structure FittedExpr (l : Layout) (g : Green) : Prop extends Fitted l g where
  first : g.firstKind.starts = true
  last : g.lastKind.ends = true

/-- What is written ends as a statement does. -/
structure FittedStmt (l : Layout) (g : Green) : Prop extends Fitted l g where
  last : g.lastKind.stops = true

/-- Trees are written behind what is pending, and everything in them stands as it should. -/
structure FittedAll (l : Layout) (gs : List Green) : Prop where
  lead : gs ≠ [] → leadAll gs = "" → l.pending = ""
  chain : gs.IsChain Fits
  fitting : EveryIn Fitting gs

/-- Trees are complete, and everything in them stands as it should. -/
structure Completed (gs : List Green) : Prop where
  fitting : EveryIn Fitting gs
  stops : ∀ g ∈ gs, g.lastKind.stops = true

theorem Completed.append {gs hs : List Green} (h : Completed gs) (h' : Completed hs) :
    Completed (gs ++ hs) :=
  ⟨everyIn_append h.fitting h'.fitting, List.forall_mem_append.mpr ⟨h.stops, h'.stops⟩⟩

theorem Completed.cons {g : Green} {gs : List Green} {l : Layout} (h : FittedStmt l g)
    (h' : Completed gs) : Completed (g :: gs) :=
  ⟨⟨h.fitting, h'.fitting⟩, List.forall_mem_cons.mpr ⟨h.last, h'.stops⟩⟩

theorem pending_withTrivia_eq_empty {l : Layout} {text : String}
    (h : (l.withTrivia text).pending = "") : l.pending = "" ∧ text = "" :=
  String.append_eq_empty_iff.mp h

theorem pending_begun_eq_empty {l : Layout} (h : l.begun.pending = "") : l.pending = "" := by
  rw [Layout.begun] at h
  split_ifs at h
  · exact h
  · exact (pending_withTrivia_eq_empty h).1
  · exact h

theorem pending_blank_ne (l : Layout) : (l.withTrivia " ").pending ≠ "" := fun h =>
  absurd (pending_withTrivia_eq_empty h).2 (by decide)

/-- Behind a blank. -/
theorem Fitted.fits {l : Layout} {g : Green} (h : Fitted (l.withTrivia " ") g) (c : Green) :
    Fits c g :=
  fits_of_lead_ne c fun hlead => pending_blank_ne l (h.lead hlead)

/-- Where the line continues. -/
theorem Fitted.fits_inline {l : Layout} {g : Green} (h : Fitted l.inline g) (c : Green) :
    Fits c g :=
  fits_of_lead_ne c fun hlead => pending_blank_ne l (h.lead hlead)

theorem FittedAll.fits {l : Layout} {gs : List Green} (h : FittedAll (l.withTrivia " ") gs)
    (c : Green) : ∀ d ∈ gs.head?, Fits c d := by
  cases gs with
  | nil => simp
  | cons g gs =>
    rintro _ ⟨⟩
    exact fits_of_lead_ne c fun hlead => pending_blank_ne l (h.lead (List.cons_ne_nil _ _) hlead)

theorem FittedAll.singleton {l : Layout} {g : Green} (h : Fitted l g) : FittedAll l [g] :=
  ⟨fun _ => h.lead, .singleton g, h.fitting, trivial⟩

theorem fits_mark (c : Green) (l : Layout) (kind : Kind) :
    Fits c (mark (l.withTrivia " ").pending kind) :=
  fits_of_lead_ne c (pending_blank_ne l)

theorem Fitted.begun {l : Layout} {g : Green} (h : Fitted l.begun g) : Fitted l g :=
  ⟨fun hlead => pending_begun_eq_empty (h.lead hlead), h.fitting⟩

theorem FittedExpr.withLabel {l : Layout} {g : Green} (h : FittedExpr l g) (label : String) :
    FittedExpr l (g.withLabel label) := by
  cases g <;> exact ⟨⟨h.lead, h.fitting⟩, h.first, h.last⟩

theorem FittedStmt.withLabel {l : Layout} {g : Green} (h : FittedStmt l g) (label : String) :
    FittedStmt l (g.withLabel label) := by
  cases g <;> exact ⟨⟨h.lead, h.fitting⟩, h.last⟩

theorem token_fittedExpr (l : Layout) {kind : Kind} (text : String) (payload : Payload)
    (h : kind.isPunctuation = false) : FittedExpr l (.token l.pending kind text payload []) :=
  ⟨⟨id, trivial⟩, by simp [firstKind, Kind.starts, h], by simp [lastKind, Kind.ends, h]⟩

/-- What is written begins and ends as a type does. -/
structure FittedType (l : Layout) (g : Green) : Prop extends FittedExpr l g where
  incomplete : g.lastKind.stops = false

theorem literalType_fitted (l : Layout) {kind : Kind} (text : String) (value : Option String)
    (h : kind.isPunctuation = false) (hstop : kind.stops = false) :
    FittedType l ((TypeText.literal kind text value).write.run l).1 := by
  have htoken := token_fittedExpr l text (literalPayload kind value) h
  rw [TypeText.write, run_literalType]
  exact ⟨⟨⟨id, ⟨.singleton _, trivial⟩, htoken.fitting, trivial⟩, htoken.first, htoken.last⟩, hstop⟩

theorem TypeText.ofAtom_fitted (cs : List Char) (l : Layout) :
    FittedType l ((TypeText.ofAtom cs).write.run l).1 := by
  unfold TypeText.ofAtom
  dsimp only
  split_ifs
  · exact literalType_fitted l _ _ rfl rfl
  · exact literalType_fitted l _ _ rfl rfl
  · exact literalType_fitted l _ _ rfl rfl
  · exact literalType_fitted l _ _ rfl rfl
  · exact literalType_fitted l _ _ rfl rfl
  · split
    · next kind hkind =>
      have hword : kind.isKeyword = true := by
        unfold Kind.typeKeyword? at hkind
        split at hkind <;> cases hkind <;> rfl
      obtain ⟨hmark, hstop⟩ := isPunctuation_of_isKeyword hword
      exact ⟨token_fittedExpr l _ _ hmark, hstop⟩
    · exact ⟨⟨⟨id, ⟨.singleton _, trivial⟩, trivial, trivial⟩, rfl, rfl⟩, rfl⟩

/-- The parts of a composite type. -/
structure FittedParts (l : Layout) (gs : List Green) : Prop extends FittedAll l gs where
  ne : gs ≠ []
  first : (firstKindAll gs).starts = true
  last : (lastKindAll gs).ends = true
  incomplete : (lastKindAll gs).stops = false

theorem TypeText.writeParts_fitted (separator : Kind) (parts : List TypeText) (hne : parts ≠ [])
    (h : ∀ part ∈ parts, ∀ l, FittedType l (part.write.run l).1) (l : Layout) :
    FittedParts l ((TypeText.writeParts separator parts).run l).1 := by
  match parts with
  | [] => exact absurd rfl hne
  | [part] =>
    have hpart := h part (List.mem_singleton_self part) l
    exact ⟨.singleton hpart.toFitted, List.cons_ne_nil _ _, hpart.first, hpart.last,
      hpart.incomplete⟩
  | part :: next :: rest =>
    obtain ⟨hpart, hparts⟩ := List.forall_mem_cons.mp h
    have hfirst := hpart l
    have hrest := TypeText.writeParts_fitted separator (next :: rest) (List.cons_ne_nil _ _) hparts
      (((((TypeText.write part).run l).2.withTrivia " ").behind
        ((separator.text?).getD "")).withTrivia " ")
    have hlast {mark : Green} := lastKindAll_cons mark hrest.ne
    refine ⟨⟨fun _ => hfirst.lead, .cons_cons (fits_mark _ _ _) (isChain_cons hrest.chain
      (hrest.fits _)), hfirst.fitting, trivial, hrest.fitting⟩, List.cons_ne_nil _ _, hfirst.first,
      ?_, ?_⟩
    · exact hlast.symm ▸ hrest.last
    · exact hlast.symm ▸ hrest.incomplete

theorem FittedParts.fittedType {l : Layout} {gs : List Green} (h : FittedParts l gs) (kind : Kind)
    (hkind : OperandFits kind gs) (payload : Payload) : FittedType l (branch kind payload gs) :=
  ⟨⟨⟨h.lead h.ne, ⟨h.chain, hkind⟩, h.fitting⟩, h.first, h.last⟩, h.incomplete⟩

/-- A type is written so that it fits. -/
theorem writeType_fitted (text : String) (l : Layout) :
    FittedType l ((writeType text).run l).1 := by
  refine TypeText.ofText_induction (P := fun t => ∀ l, FittedType l (t.write.run l).1)
    TypeText.ofAtom_fitted (fun element h l => ?_) (fun parts hne h l => ?_)
    (fun parts hne h l => ?_) text l
  · have helement := h l
    exact ⟨⟨⟨helement.lead, ⟨.cons_cons (fits_closer _ rfl rfl) (.cons_cons (fits_leaves rfl rfl)
      (.singleton _)), trivial⟩, helement.fitting, trivial, trivial, trivial⟩, helement.first, rfl⟩,
      rfl⟩
  · exact (TypeText.writeParts_fitted .barToken parts hne h l).fittedType .unionType trivial _
  · exact (TypeText.writeParts_fitted .ampersandToken parts hne h l).fittedType .intersectionType trivial
      _

/-- The substitutions of a template. -/
theorem writeSpans_fitted (spans : List (String × String)) (l : Layout) :
    let gs := ((writeSpans spans).run l).1
    EveryIn Fitting gs ∧ ∀ g ∈ gs, g.lastKind = .templateMiddle ∨ g.lastKind = .templateTail := by
  induction spans generalizing l with
  | nil => exact ⟨trivial, List.forall_mem_nil _⟩
  | cons span rest ih =>
    obtain ⟨name, text⟩ := span
    have hspan (lead lead' tail value : String) (kind : Kind) :
        (branch .templateSpan (.templateSpan ⟨some 0, some 1⟩)
          [.token lead .identifier name (.identifier name) [],
            .token lead' kind tail (.literal value) []]).Every Fitting :=
      ⟨⟨.cons_cons (fits_leaves rfl rfl) (.singleton _), trivial⟩, trivial, trivial, trivial⟩
    cases rest with
    | nil => exact ⟨⟨hspan _ _ _ _ _, trivial⟩, List.forall_mem_singleton.mpr (.inr rfl)⟩
    | cons next rest =>
      obtain ⟨hfitting, hlast⟩ := ih ((l.behind name).behind ("\x7d" ++ text ++ "$\x7b"))
      exact ⟨⟨hspan _ _ _ _ _, hfitting⟩, List.forall_mem_cons.mpr ⟨.inl rfl, hlast⟩⟩

theorem writeParameters_fitted (names : List String) (l : Layout) :
    FittedAll l ((writeParameters names).run l).1 := by
  have hparameter (name lead : String) : (branch .parameter (.parameter ⟨some 0, none⟩)
      [.token lead .identifier name (.identifier name) []]).Every Fitting :=
    ⟨⟨.singleton _, trivial⟩, trivial, trivial⟩
  induction names generalizing l with
  | nil => exact ⟨fun hne => absurd rfl hne, .nil, trivial⟩
  | cons name rest ih =>
    cases rest with
    | nil => exact .singleton ⟨id, hparameter name _⟩
    | cons next rest =>
      have hrest := ih (((l.behind name).behind ",").withTrivia " ")
      exact ⟨fun _ => id, .cons_cons (fits_closer _ rfl rfl) (isChain_cons hrest.chain
        (hrest.fits _)), hparameter name _, trivial, hrest.fitting⟩

theorem writeParameterList_fitted (names : List String) (l : Layout) :
    ((writeParameterList names).run l).1.IsChain Fits ∧
      EveryIn Fitting ((writeParameterList names).run l).1 := by
  have h := writeParameters_fitted names (l.behind "(")
  exact ⟨isChain_enclosed h.chain _ _ rfl rfl, trivial,
    everyIn_append h.fitting ⟨trivial, trivial⟩⟩

theorem braced_fitted (isEmpty : Bool) {contents : Writer (List Green)}
    (h : ∀ l, Completed (contents.run l).1) (l : Layout) :
    ((braced isEmpty contents).run l).1.IsChain Fits ∧
      EveryIn Fitting ((braced isEmpty contents).run l).1 ∧
      firstKindAll ((braced isEmpty contents).run l).1 = .openBraceToken ∧
      lastKindAll ((braced isEmpty contents).run l).1 = .closeBraceToken ∧
      leadAll ((braced isEmpty contents).run l).1 = l.pending := by
  have hinside := h (l.behind "\x7b").deeper
  rw [run_braced]
  refine ⟨isChain_enclosed (isChain_of_stops hinside.stops) _ _ rfl rfl,
    ⟨trivial, everyIn_append hinside.fitting ⟨trivial, trivial⟩⟩, rfl, ?_, rfl⟩
  exact lastKindAll_append _ _ []

/-- A block ends both as an expression and as a statement does. -/
theorem writeBlock_fitted (isEmpty : Bool) {statements : Writer (List Green)}
    (h : ∀ l, Completed (statements.run l).1) (l : Layout) :
    FittedExpr l ((writeBlock isEmpty statements).run l).1 ∧
      FittedStmt l ((writeBlock isEmpty statements).run l).1 := by
  obtain ⟨hchain, hfitting, hfirst, hlast, hlead⟩ := braced_fitted isEmpty h l
  have hblock : Fitted l ((writeBlock isEmpty statements).run l).1 :=
    ⟨fun hempty => hlead.symm.trans hempty, ⟨hchain, trivial⟩, hfitting⟩
  exact ⟨⟨hblock, congrArg Kind.starts hfirst, congrArg Kind.ends hlast⟩,
    ⟨hblock, congrArg Kind.stops hlast⟩⟩

/-- An arrow function ends as its body does. -/
theorem arrow_fitted (names : List String) (l m : Layout) {body : Green}
    (h : FittedExpr (m.withTrivia " ") body) :
    FittedExpr l (functionNode .arrowFunction 0 ((writeParameterList names).run l).1 []
      [mark (m.withTrivia " ").pending .equalsGreaterThanToken, body]) := by
  obtain ⟨hchain, hfitting⟩ := writeParameterList_fitted names l
  have hlast := lastKindAll_append ((writeParameterList names).run l).1
    (mark (m.withTrivia " ").pending .equalsGreaterThanToken) [body]
  refine ⟨⟨id, ⟨List.isChain_append.mpr ⟨hchain, .cons_cons (h.fits _) (.singleton _), ?_⟩,
    trivial⟩, everyIn_append hfitting ⟨trivial, h.fitting, trivial⟩⟩, rfl,
    (congrArg Kind.ends hlast).trans h.last⟩
  rintro c - _ ⟨⟩
  exact fits_mark c m _

theorem function_fitted (names : List String) (lead : String) (l m : Layout) {body : Green}
    (hlead : lead = "" → l.pending = "") (h : FittedExpr (m.withTrivia " ") body) (k : Layout) :
    FittedExpr l (functionNode .functionExpression 1 ((writeParameterList names).run k).1
      [mark lead .functionKeyword] [body]) := by
  obtain ⟨hchain, hfitting⟩ := writeParameterList_fitted names k
  have hlast := lastKindAll_append (mark lead .functionKeyword :: ((writeParameterList names).run k).1)
    body []
  refine ⟨⟨hlead, ⟨isChain_concat (isChain_cons hchain ?_) fun c _ => h.fits c, trivial⟩,
    ⟨trivial, everyIn_append hfitting ⟨h.fitting, trivial⟩⟩⟩, rfl,
    (congrArg Kind.ends hlast).trans h.last⟩
  rintro _ ⟨⟩
  exact fits_closer _ rfl rfl

/-- Trees that stand behind something of a declaration. -/
structure Trailing (gs : List Green) : Prop where
  chain : gs.IsChain Fits
  fits : ∀ c, ∀ d ∈ gs.head?, Fits c d
  fitting : EveryIn Fitting gs

theorem Trailing.nil : Trailing [] := ⟨.nil, by simp, trivial⟩

theorem trailing_run_pure (l : Layout) : Trailing ((pure [] : Writer (List Green)).run l).1 := .nil

theorem Trailing.append {gs hs : List Green} (h : Trailing gs) (h' : Trailing hs) :
    Trailing (gs ++ hs) := by
  refine ⟨List.isChain_append.mpr ⟨h.chain, h'.chain, fun c _ => h'.fits c⟩, ?_,
    everyIn_append h.fitting h'.fitting⟩
  cases gs with
  | nil => exact h'.fits
  | cons g gs => exact h.fits

/-- A variable statement ends with a semicolon. -/
theorem writeVariable_fitted (isDeclare : Bool) (kind : VariableKind) (name : String)
    (definite : Bool) (typeText : Option String) {initializer : Writer (List Green)}
    (h : ∀ l, Trailing (initializer.run l).1) (l : Layout) :
    FittedStmt l ((writeVariable isDeclare kind name definite typeText initializer).run l).1 := by
  have hmarks (l : Layout) : Trailing ((writeDefinite definite).run l).1 := by
    cases definite
    · exact .nil
    · exact ⟨.singleton _, by rintro c _ ⟨⟩; exact fits_closer c rfl rfl, trivial, trivial⟩
  have hannotated (l : Layout) : Trailing ((writeDeclaredType typeText).run l).1 := by
    cases typeText with
    | none => exact .nil
    | some text =>
      have htype := writeType_fitted text ((l.behind ":").withTrivia " ")
      exact ⟨.cons_cons (htype.fits _) (.singleton _), by rintro c _ ⟨⟩; exact fits_closer c rfl rfl,
        trivial, htype.fitting, trivial⟩
  rw [writeVariable_eq]
  simp only [run_bind, run_pure, run_token, run_identifier, run_space, run_beginStatement]
  have hwords : EveryIn Fitting ((writeDeclare isDeclare).run l.begun).1 := by
    cases isDeclare <;> trivial
  refine ⟨⟨?_, ⟨?_, trivial⟩, everyIn_append hwords ⟨⟨⟨.cons_cons (fits_of_lead_ne _ ?_)
    (.singleton _), trivial⟩, trivial, ⟨⟨isChain_cons ?_ ?_, trivial⟩, trivial, ?_⟩, trivial⟩,
    trivial, trivial⟩⟩, ?_⟩
  · cases isDeclare <;> exact pending_begun_eq_empty
  · cases isDeclare
    · exact .cons_cons (fits_closer _ rfl rfl) (.singleton _)
    · exact .cons_cons (fits_of_lead_ne _ (pending_blank_ne _))
        (.cons_cons (fits_closer _ rfl rfl) (.singleton _))
  · exact pending_blank_ne _
  · exact (((hmarks _).append (hannotated _)).append (h _)).chain
  · exact (((hmarks _).append (hannotated _)).append (h _)).fits _
  · exact (((hmarks _).append (hannotated _)).append (h _)).fitting
  · exact congrArg Kind.stops (lastKindAll_append _ _ [_])

theorem prefix_kind {kind : Kind} (h : (kind.isKeyword || prefixMarks.contains kind) = true) :
    kind.starts = true ∧ (kind.isKeyword = false → kind.opens = true) := by
  rw [Bool.or_eq_true] at h
  rcases h with h | h
  · obtain ⟨hmark, -⟩ := isPunctuation_of_isKeyword h
    exact ⟨by rw [Kind.starts, hmark]; rfl, fun hnot => absurd h (by simp [hnot])⟩
  · have hall : ∀ k ∈ prefixMarks, k.starts = true ∧ k.opens = true := by decide
    obtain ⟨hstarts, hopens⟩ := hall kind (List.contains_iff_mem.mp h)
    exact ⟨hstarts, fun _ => hopens⟩

theorem postfix_kind {kind : Kind}
    (h : (kind == .plusPlusToken || kind == .minusMinusToken) = true) :
    kind.closes = true ∧ kind.ends = true := by
  rw [Bool.or_eq_true, beq_iff_eq, beq_iff_eq] at h
  rcases h with rfl | rfl <;> exact ⟨rfl, rfl⟩

mutual

/-- An expression is written so that it fits. -/
theorem Expr.write_fitted (e : Expr) (h : e.every Expr.isConventional = true) (l : Layout) :
    FittedExpr l (e.write.run l).1 := by
  cases e with
  | keyword kind => exact token_fittedExpr l _ _ (isPunctuation_of_isKeyword h).1
  | substitution head spans =>
    obtain ⟨hfitting, hlast⟩ := writeSpans_fitted spans (l.behind ("\x60" ++ head ++ "$\x7b"))
    have hstops : ∀ g ∈ ((writeSpans spans).run (l.behind ("\x60" ++ head ++ "$\x7b"))).1,
        g.lastKind.stops = true := fun g hg => by
      rcases hlast g hg with hkind | hkind <;> rw [hkind] <;> rfl
    refine ⟨⟨id, ⟨isChain_cons (isChain_of_stops hstops) fun d _ => fits_opener _ rfl rfl d,
      trivial⟩, trivial, hfitting⟩, rfl, ?_⟩
    refine lastKindAll_of_forall (P := fun k => k.ends = true) (List.cons_ne_nil _ _)
      (List.forall_mem_cons.mpr ⟨rfl, fun g hg => ?_⟩)
    rcases hlast g hg with hkind | hkind <;> rw [hkind] <;> rfl
  | paren e =>
    simp only [Expr.every, Bool.and_eq_true] at h
    have he := Expr.write_fitted e h.2 (l.behind "(")
    exact ⟨⟨id, ⟨isChain_enclosed (.singleton _) _ _ rfl rfl, trivial⟩, trivial, he.fitting,
      trivial, trivial⟩, rfl, rfl⟩
  | binary left operator right =>
    simp only [Expr.every, Bool.and_eq_true] at h
    have hleft := Expr.write_fitted left h.1.2 l
    have hright := Expr.write_fitted right h.2
      ((((left.write.run l).2.withTrivia " ").behind ((operator.text?).getD "")).withTrivia " ")
    exact ⟨⟨hleft.lead, ⟨.cons_cons (fits_mark _ _ _) (.cons_cons (hright.fits _) (.singleton _)),
      trivial⟩, hleft.fitting, trivial, hright.fitting, trivial⟩, hleft.first, hright.last⟩
  | prefixed operator e =>
    simp only [Expr.every, Bool.and_eq_true] at h
    obtain ⟨hstarts, hopens⟩ := prefix_kind h.1
    rw [run_prefixed]
    have hkind (gs : List Green) : OperandFits
        (if operator = .typeOfKeyword then .typeOfExpression else .prefixUnaryExpression) gs := by
      split <;> trivial
    cases hkeyword : operator.isKeyword with
    | false =>
      have he := Expr.write_fitted e h.2 (l.behind ((operator.text?).getD ""))
      exact ⟨⟨id, ⟨.cons_cons (fits_opener (mark _ operator) rfl (hopens hkeyword) _)
        (.singleton _), hkind _⟩, trivial, he.fitting, trivial⟩, hstarts, he.last⟩
    | true =>
      have he := Expr.write_fitted e h.2 ((l.behind ((operator.text?).getD "")).withTrivia " ")
      exact ⟨⟨id, ⟨.cons_cons (he.fits _) (.singleton _), hkind _⟩, trivial, he.fitting, trivial⟩,
        hstarts, he.last⟩
  | postfixed e operator =>
    simp only [Expr.every, Bool.and_eq_true] at h
    have he := Expr.write_fitted e h.2 l
    obtain ⟨hcloses, hends⟩ := postfix_kind h.1
    exact ⟨⟨he.lead, ⟨.cons_cons (fits_closer _ rfl hcloses) (.singleton _), trivial⟩, he.fitting,
      trivial, trivial⟩, he.first, hends⟩
  | nonNull e =>
    simp only [Expr.every, Bool.and_eq_true] at h
    have he := Expr.write_fitted e h.2 l
    refine ⟨⟨he.lead, ⟨.cons_cons (fits_closer _ rfl rfl) (.singleton _), ?_⟩, he.fitting, trivial,
      trivial⟩, he.first, rfl⟩
    rintro _ ⟨⟩
    exact he.last
  | property e optional name =>
    simp only [Expr.every, Bool.and_eq_true] at h
    have he := Expr.write_fitted e h.2 l
    have hcloses : (if optional then Kind.questionDotToken else .dotToken).closes = true := by
      cases optional <;> rfl
    refine ⟨⟨he.lead, ⟨.cons_cons (fits_closer _ rfl hcloses)
      (.cons_cons (fits_leaves rfl rfl) (.singleton _)), ?_, ?_⟩, he.fitting, trivial, trivial,
      trivial⟩, he.first, rfl⟩
    · rintro _ ⟨⟩
      exact he.last
    · rintro _ ⟨⟩
      rfl
  | element e optional argument =>
    simp only [Expr.every, Bool.and_eq_true] at h
    have he := Expr.write_fitted e h.1.2 l
    have hoperand (gs : List Green) : OperandFits .elementAccessExpression
        ((e.write.run l).1 :: gs) := by
      rintro _ ⟨⟩
      exact he.last
    cases optional
    · have hargument := Expr.write_fitted argument h.2 ((e.write.run l).2.behind "[")
      exact ⟨⟨he.lead, ⟨.cons_cons (fits_closer _ rfl rfl)
        (isChain_enclosed (.singleton _) _ _ rfl rfl), hoperand _⟩, he.fitting, trivial,
        hargument.fitting, trivial, trivial⟩, he.first, rfl⟩
    · have hargument := Expr.write_fitted argument h.2 (((e.write.run l).2.behind "?.").behind "[")
      exact ⟨⟨he.lead, ⟨.cons_cons (fits_closer _ rfl rfl) (.cons_cons (fits_closer _ rfl rfl)
        (isChain_enclosed (.singleton _) _ _ rfl rfl)), hoperand _⟩, he.fitting, trivial, trivial,
        hargument.fitting, trivial, trivial⟩, he.first, rfl⟩
  | call callee optional arguments =>
    simp only [Expr.every, Bool.and_eq_true] at h
    have he := Expr.write_fitted callee h.1.2 l
    have hoperand (gs : List Green) : OperandFits .callExpression
        ((callee.write.run l).1 :: gs) := by
      rintro _ ⟨⟩
      exact he.last
    cases optional
    · have hitems := Expr.writeList_fitted arguments h.2 ((callee.write.run l).2.behind "(")
      exact ⟨⟨he.lead, ⟨.cons_cons (fits_closer _ rfl rfl)
        (isChain_enclosed hitems.chain _ _ rfl rfl), hoperand _⟩, he.fitting, trivial,
        everyIn_append hitems.fitting ⟨trivial, trivial⟩⟩, he.first,
        congrArg Kind.ends (lastKindAll_append (_ :: _) _ [])⟩
    · have hitems := Expr.writeList_fitted arguments h.2
        (((callee.write.run l).2.behind "?.").behind "(")
      exact ⟨⟨he.lead, ⟨.cons_cons (fits_closer _ rfl rfl) (.cons_cons (fits_closer _ rfl rfl)
        (isChain_enclosed hitems.chain _ _ rfl rfl)), hoperand _⟩, he.fitting, trivial, trivial,
        everyIn_append hitems.fitting ⟨trivial, trivial⟩⟩, he.first,
        congrArg Kind.ends (lastKindAll_append (_ :: _) _ [])⟩
  | conditional condition whenTrue whenFalse =>
    simp only [Expr.every, Bool.and_eq_true] at h
    have hc := Expr.write_fitted condition h.1.1.2 l
    have ht := Expr.write_fitted whenTrue h.1.2
      ((((condition.write.run l).2.withTrivia " ").behind "?").withTrivia " ")
    have hf := Expr.write_fitted whenFalse h.2
      ((((whenTrue.write.run ((((condition.write.run l).2.withTrivia " ").behind "?").withTrivia
        " ")).2.withTrivia " ").behind ":").withTrivia " ")
    exact ⟨⟨hc.lead, ⟨.cons_cons (fits_mark _ _ _) (.cons_cons (ht.fits _) (.cons_cons
      (fits_mark _ _ _) (.cons_cons (hf.fits _) (.singleton _)))), trivial⟩, hc.fitting, trivial,
      ht.fitting, trivial, hf.fitting, trivial⟩, hc.first, hf.last⟩
  | asType e typeText =>
    simp only [Expr.every, Bool.and_eq_true] at h
    have he := Expr.write_fitted e h.2 l
    have htype := writeType_fitted typeText
      ((((e.write.run l).2.withTrivia " ").behind "as").withTrivia " ")
    refine ⟨⟨he.lead, ⟨.cons_cons (fits_mark _ _ _) (.cons_cons (htype.fits _) (.singleton _)),
      ?_, ?_⟩, he.fitting, trivial, htype.fitting, trivial⟩, he.first, htype.last⟩
    · rintro _ ⟨⟩
      exact he.last
    · rintro _ ⟨⟩
      exact htype.incomplete
  | satisfiesType e typeText =>
    simp only [Expr.every, Bool.and_eq_true] at h
    have he := Expr.write_fitted e h.2 l
    have htype := writeType_fitted typeText
      ((((e.write.run l).2.withTrivia " ").behind "satisfies").withTrivia " ")
    exact ⟨⟨he.lead, ⟨.cons_cons (fits_mark _ _ _) (.cons_cons (htype.fits _) (.singleton _)),
      trivial⟩, he.fitting, trivial, htype.fitting, trivial⟩, he.first, htype.last⟩
  | typeAssertion typeText e =>
    simp only [Expr.every, Bool.and_eq_true] at h
    have htype := writeType_fitted typeText (l.behind "<")
    have he := Expr.write_fitted e h.2 (((writeType typeText).run (l.behind "<")).2.behind ">")
    refine ⟨⟨id, ⟨.cons_cons (fits_opener _ rfl rfl _) (.cons_cons (fits_closer _ rfl rfl)
      (.cons_cons (fits_opener _ rfl rfl _) (.singleton _))), ?_⟩, trivial, htype.fitting, trivial,
      he.fitting, trivial⟩, rfl, he.last⟩
    rintro _ ⟨⟩
    exact he.first
  | arrow parameters body =>
    simp only [Expr.every, Bool.and_eq_true] at h
    exact arrow_fitted parameters l _ (Expr.write_fitted body h.2 _)
  | arrowBlock parameters body =>
    simp only [Expr.every, Bool.and_eq_true] at h
    exact arrow_fitted parameters l _
      (writeBlock_fitted body.isEmpty (Item.writeList_completed body h.2) _).1
  | function parameters body =>
    simp only [Expr.every, Bool.and_eq_true] at h
    exact function_fitted parameters _ l _ id
      (writeBlock_fitted body.isEmpty (Item.writeList_completed body h.2) _).1 _
  | array items =>
    simp only [Expr.every, Bool.and_eq_true] at h
    have hitems := Expr.writeList_fitted items h.2 (l.behind "[")
    exact ⟨⟨id, ⟨isChain_enclosed hitems.chain _ _ rfl rfl, trivial⟩, trivial,
      everyIn_append hitems.fitting ⟨trivial, trivial⟩⟩, rfl,
      congrArg Kind.ends (lastKindAll_append (_ :: _) _ [])⟩
  | emptyObject =>
    exact ⟨⟨id, ⟨.cons_cons (fits_leaves rfl rfl) (.singleton _), trivial⟩, trivial, trivial,
      trivial⟩, rfl, rfl⟩
  | commentBefore text e =>
    simp only [Expr.every, Bool.and_eq_true] at h
    have he := Expr.write_fitted e h.2 (l.begun.withTrivia text)
    rw [Expr.write, run_bind, run_comment]
    exact ⟨⟨fun hlead => pending_begun_eq_empty (pending_withTrivia_eq_empty (he.lead hlead)).1,
      he.fitting⟩, he.first, he.last⟩
  | commentAfter e text =>
    simp only [Expr.every, Bool.and_eq_true] at h
    exact Expr.write_fitted e h.2 l
  | emptyCall callee optional text =>
    simp only [Expr.every, Bool.and_eq_true] at h
    have he := Expr.write_fitted callee h.2 l
    have hoperand (gs : List Green) : OperandFits .callExpression
        ((callee.write.run l).1 :: gs) := by
      rintro _ ⟨⟩
      exact he.last
    cases optional
    · exact ⟨⟨he.lead, ⟨.cons_cons (fits_closer _ rfl rfl)
        (.cons_cons (fits_opener _ rfl rfl _) (.singleton _)), hoperand _⟩, he.fitting, trivial,
        trivial, trivial⟩, he.first, rfl⟩
    · exact ⟨⟨he.lead, ⟨.cons_cons (fits_closer _ rfl rfl) (.cons_cons (fits_closer _ rfl rfl)
        (.cons_cons (fits_opener _ rfl rfl _) (.singleton _))), hoperand _⟩, he.fitting, trivial,
        trivial, trivial, trivial⟩, he.first, rfl⟩
  | emptyArray text =>
    exact ⟨⟨id, ⟨.cons_cons (fits_opener _ rfl rfl _) (.singleton _), trivial⟩, trivial, trivial,
      trivial⟩, rfl, rfl⟩
  | typeNode text => exact (writeType_fitted text l).toFittedExpr
  | labeled label e =>
    simp only [Expr.every, Bool.and_eq_true] at h
    exact (Expr.write_fitted e h.2 l).withLabel label
  | _ => exact token_fittedExpr l _ _ rfl

theorem Expr.writeList_fitted (es : List Expr) (h : Expr.everyIn Expr.isConventional es = true)
    (l : Layout) : FittedAll l ((Expr.writeList es).run l).1 := by
  match es with
  | [] => exact ⟨fun hne => absurd rfl hne, .nil, trivial⟩
  | [e] =>
    rw [Expr.everyIn, Bool.and_eq_true] at h
    exact .singleton (Expr.write_fitted e h.1 l).toFitted
  | e :: next :: rest =>
    rw [Expr.everyIn, Bool.and_eq_true] at h
    have he := Expr.write_fitted e h.1 l
    have hrest := Expr.writeList_fitted (next :: rest) h.2
      (((e.write.run l).2.behind ",").withTrivia " ")
    exact ⟨fun _ => he.lead, .cons_cons (fits_closer _ rfl rfl) (isChain_cons hrest.chain
      (hrest.fits _)), he.fitting, trivial, hrest.fitting⟩

/-- A statement is written so that it fits. -/
theorem Stmt.write_fitted (s : Stmt) (h : s.every Expr.isConventional = true) (l : Layout) :
    FittedStmt l (s.write.run l).1 := by
  match s with
  | .expression e =>
    have he := Expr.write_fitted e h l.begun
    simp only [Stmt.write, run_bind, run_beginStatement]
    exact ⟨⟨he.begun.lead, ⟨.cons_cons (fits_closer _ rfl rfl) (.singleton _), trivial⟩,
      he.fitting, trivial, trivial⟩, rfl⟩
  | .variable kind name typeText => exact writeVariable_fitted _ _ _ _ _ trailing_run_pure l
  | .initialized kind name typeText initializer =>
    refine writeVariable_fitted _ _ _ _ _ (fun l => ?_) l
    have hvalue := Expr.write_fitted initializer h (((l.withTrivia " ").behind "=").withTrivia " ")
    exact ⟨.cons_cons (hvalue.fits _) (.singleton _), by rintro c _ ⟨⟩; exact fits_mark c l _,
      trivial, hvalue.fitting, trivial⟩
  | .declared kind name typeText => exact writeVariable_fitted _ _ _ _ _ trailing_run_pure l
  | .definite name typeText => exact writeVariable_fitted _ _ _ _ _ trailing_run_pure l
  | .block body =>
    have hblock := (writeBlock_fitted body.isEmpty (Item.writeList_completed body h) l.begun).2
    simp only [Stmt.write, run_bind, run_beginStatement]
    exact ⟨hblock.begun, hblock.last⟩
  | .ifThen condition consequent =>
    simp only [Stmt.every, Bool.and_eq_true] at h
    simp only [Stmt.write, run_bind, run_beginStatement]
    have hc := Expr.write_fitted condition h.1 (l.begun.head "if")
    have hs := Stmt.write_fitted consequent h.2
      ((condition.write.run (l.begun.head "if")).2.behind ")").inline
    exact ⟨⟨pending_begun_eq_empty, ⟨isChain_head (.singleton _) _ _ _ _ _, trivial⟩, trivial,
      trivial, hc.fitting, trivial, hs.fitting, trivial⟩, hs.last⟩
  | .ifElse condition consequent alternative =>
    simp only [Stmt.every, Bool.and_eq_true] at h
    simp only [Stmt.write, run_bind, run_beginStatement]
    have hc := Expr.write_fitted condition h.1.1 (l.begun.head "if")
    have hs := Stmt.write_fitted consequent h.1.2
      ((condition.write.run (l.begun.head "if")).2.behind ")").inline
    have ha := Stmt.write_fitted alternative h.2
      (((((consequent.write.run ((condition.write.run (l.begun.head "if")).2.behind
        ")").inline).2.continuing false).withTrivia " ").behind "else").inline)
    exact ⟨⟨pending_begun_eq_empty, ⟨isChain_head (.cons_cons (fits_of_stop hs.last _)
      (.cons_cons (ha.fits_inline _) (.singleton _))) _ _ _ _ _, trivial⟩, trivial, trivial, hc.fitting,
      trivial, hs.fitting, trivial, ha.fitting, trivial⟩, ha.last⟩
  | .whileLoop condition body =>
    simp only [Stmt.every, Bool.and_eq_true] at h
    simp only [Stmt.write, run_bind, run_beginStatement]
    have hc := Expr.write_fitted condition h.1 (l.begun.head "while")
    have hs := Stmt.write_fitted body h.2
      ((condition.write.run (l.begun.head "while")).2.behind ")").inline
    exact ⟨⟨pending_begun_eq_empty, ⟨isChain_head (.singleton _) _ _ _ _ _, trivial⟩, trivial,
      trivial, hc.fitting, trivial, hs.fitting, trivial⟩, hs.last⟩
  | .doLoop body condition =>
    simp only [Stmt.every, Bool.and_eq_true] at h
    simp only [Stmt.write, run_bind, run_beginStatement]
    have hs := Stmt.write_fitted body h.1 (l.begun.behind "do").inline
    have hc := Expr.write_fitted condition h.2 ((((body.write.run
      (l.begun.behind "do").inline).2.continuing false).withTrivia " ").head "while")
    exact ⟨⟨pending_begun_eq_empty, ⟨.cons_cons (hs.fits_inline _) (.cons_cons (fits_of_stop hs.last _)
      (isChain_head (.singleton _) _ _ _ _ _)), trivial⟩, trivial, hs.fitting, trivial, trivial,
      hc.fitting, trivial, trivial, trivial⟩, rfl⟩
  | .forever body =>
    simp only [Stmt.write, run_bind, run_beginStatement]
    have hs := Stmt.write_fitted body h
      ((((l.begun.head "for").behind ";").behind ";").behind ")").inline
    exact ⟨⟨pending_begun_eq_empty, ⟨.cons_cons (fits_closer _ rfl rfl) (.cons_cons
      (fits_closer _ rfl rfl) (.cons_cons (fits_closer _ rfl rfl) (.cons_cons
      (fits_closer _ rfl rfl) (.cons_cons (fits_opener _ rfl rfl _) (.singleton _))))), trivial⟩,
      trivial, trivial, trivial, trivial, trivial, hs.fitting, trivial⟩, hs.last⟩
  | .forLoop condition body =>
    simp only [Stmt.every, Bool.and_eq_true] at h
    simp only [Stmt.write, run_bind, run_beginStatement]
    have hc := Expr.write_fitted condition h.1 (((l.begun.head "for").behind ";").withTrivia " ")
    have hs := Stmt.write_fitted body h.2 (((condition.write.run (((l.begun.head "for").behind
      ";").withTrivia " ")).2.behind ";").behind ")").inline
    exact ⟨⟨pending_begun_eq_empty, ⟨.cons_cons (fits_closer _ rfl rfl) (.cons_cons
      (fits_closer _ rfl rfl) (.cons_cons (fits_opener _ rfl rfl _) (.cons_cons
      (fits_closer _ rfl rfl) (.cons_cons (fits_closer _ rfl rfl) (.cons_cons
      (fits_opener _ rfl rfl _) (.singleton _)))))), trivial⟩, trivial, trivial, trivial,
      hc.fitting, trivial, trivial, hs.fitting, trivial⟩, hs.last⟩
  | .switch e clauses =>
    simp only [Stmt.every, Bool.and_eq_true] at h
    simp only [Stmt.write, run_bind, run_beginStatement]
    have he := Expr.write_fitted e h.1 (l.begun.head "switch")
    obtain ⟨hchain, hfitting, -, hlast, -⟩ := braced_fitted clauses.isEmpty
      (Clause.writeList_completed clauses h.2)
      (((e.write.run (l.begun.head "switch")).2.behind ")").withTrivia " ")
    exact ⟨⟨pending_begun_eq_empty, ⟨isChain_head (.singleton _) _ _ _ _ _, trivial⟩, trivial,
      trivial, he.fitting, trivial, ⟨⟨hchain, trivial⟩, hfitting⟩, trivial⟩,
      congrArg Kind.stops hlast⟩
  | .breakOut =>
    simp only [Stmt.write, run_bind, run_beginStatement]
    exact ⟨⟨pending_begun_eq_empty, ⟨.cons_cons (fits_closer _ rfl rfl) (.singleton _), trivial⟩,
      trivial, trivial, trivial⟩, rfl⟩
  | .returned e =>
    simp only [Stmt.write, run_bind, run_beginStatement]
    have he := Expr.write_fitted e h ((l.begun.behind "return").withTrivia " ")
    exact ⟨⟨pending_begun_eq_empty, ⟨.cons_cons (he.fits _) (.cons_cons (fits_closer _ rfl rfl)
      (.singleton _)), trivial⟩, trivial, he.fitting, trivial, trivial⟩, rfl⟩
  | .thrown e =>
    simp only [Stmt.write, run_bind, run_beginStatement]
    have he := Expr.write_fitted e h ((l.begun.behind "throw").withTrivia " ")
    exact ⟨⟨pending_begun_eq_empty, ⟨.cons_cons (he.fits _) (.cons_cons (fits_closer _ rfl rfl)
      (.singleton _)), trivial⟩, trivial, he.fitting, trivial, trivial⟩, rfl⟩
  | .commentBefore text s =>
    have hs := Stmt.write_fitted s h (l.begun.withTrivia text)
    rw [Stmt.write, run_bind, run_comment]
    exact ⟨⟨fun hlead => pending_begun_eq_empty (pending_withTrivia_eq_empty (hs.lead hlead)).1,
      hs.fitting⟩, hs.last⟩
  | .commentAfter s text => exact Stmt.write_fitted s h l
  | .labeled label s => exact (Stmt.write_fitted s h l).withLabel label

theorem Item.writeList_completed (items : List Item)
    (h : Item.everyIn Expr.isConventional items = true) (l : Layout) :
    Completed ((Item.writeList items).run l).1 := by
  match items with
  | [] => exact ⟨trivial, List.forall_mem_nil _⟩
  | .comment text :: rest => exact Item.writeList_completed rest h _
  | .statement s :: rest =>
    rw [Item.everyIn, Bool.and_eq_true] at h
    exact .cons (Stmt.write_fitted s h.1 l) (Item.writeList_completed rest h.2 _)

theorem Clause.writeList_completed (clauses : List Clause)
    (h : Clause.everyIn Expr.isConventional clauses = true) (l : Layout) :
    Completed ((Clause.writeList clauses).run l).1 := by
  match clauses with
  | [] => exact ⟨trivial, List.forall_mem_nil _⟩
  | c :: rest =>
    rw [Clause.everyIn, Bool.and_eq_true] at h
    exact (Clause.write_completed c h.1 l).append (Clause.writeList_completed rest h.2 _)

theorem Clause.write_completed (c : Clause) (h : c.every Expr.isConventional = true)
    (l : Layout) : Completed (c.write.run l).1 := by
  have hcolon {gs : List Green} (hgs : Completed gs) (lead : String) :
      (mark lead .colonToken :: gs).IsChain Fits ∧
        (lastKindAll (mark lead .colonToken :: gs)).stops = true :=
    ⟨isChain_cons (isChain_of_stops hgs.stops) fun d _ => fits_opener _ rfl rfl d,
      lastKindAll_of_forall (P := fun k => k.stops = true) (List.cons_ne_nil _ _)
        (List.forall_mem_cons.mpr ⟨rfl, hgs.stops⟩)⟩
  match c with
  | .comment text => exact ⟨trivial, List.forall_mem_nil _⟩
  | .caseOf e body =>
    rw [Clause.every, Bool.and_eq_true] at h
    simp only [Clause.write, run_bind, run_beginStatement]
    have he := Expr.write_fitted e h.1 ((l.begun.behind "case").withTrivia " ")
    have hbody := Item.writeList_completed body h.2 (((e.write.run
      ((l.begun.behind "case").withTrivia " ")).2.behind ":").deeper)
    obtain ⟨hchain, hlast⟩ := hcolon hbody
      (e.write.run ((l.begun.behind "case").withTrivia " ")).2.pending
    exact ⟨⟨⟨⟨.cons_cons (he.fits _) (.cons_cons (fits_closer _ rfl rfl) hchain), trivial⟩, trivial,
      he.fitting, trivial, hbody.fitting⟩, trivial⟩, List.forall_mem_singleton.mpr hlast⟩
  | .default body =>
    simp only [Clause.write, run_bind, run_beginStatement]
    have hbody := Item.writeList_completed body h (((l.begun.behind "default").behind ":").deeper)
    obtain ⟨hchain, hlast⟩ := hcolon hbody ""
    exact ⟨⟨⟨⟨.cons_cons (fits_closer _ rfl rfl) hchain, trivial⟩, trivial, trivial,
      hbody.fitting⟩, trivial⟩, List.forall_mem_singleton.mpr hlast⟩
  | .labeled label c =>
    have hc := Clause.write_completed c h l
    refine ⟨everyIn_iff.mpr (List.forall_mem_map.mpr fun g hg => ?_),
      List.forall_mem_map.mpr fun g hg => ?_⟩
    · have hfitting := everyIn_iff.mp hc.fitting g hg
      cases g <;> exact hfitting
    · have hstops := hc.stops g hg
      cases g <;> exact hstops

end

/-- Everything in the whole tree of a program stands as it should. -/
theorem whole_fitting {p : TypeLint.Program} (h : Conventional p) : (whole p).Every Fitting := by
  have hitems := Item.writeList_completed p h .start
  exact ⟨⟨isChain_concat (isChain_of_stops hitems.stops) fun c _ => fits_closer c rfl rfl, trivial⟩,
    everyIn_append hitems.fitting ⟨trivial, trivial⟩⟩

theorem lastKind_whole (p : TypeLint.Program) : (whole p).lastKind = .endOfFileToken :=
  lastKindAll_append _ _ []

end TypeLint.Program
