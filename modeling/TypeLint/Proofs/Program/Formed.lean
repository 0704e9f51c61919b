import TypeLint.Proofs.Program.Every
import TypeLint.Proofs.Program.TypeForms

namespace TypeLint.Program

open Syntax Writer Green

theorem everyIn_append_iff {P : Green → Prop} {gs hs : List Green} :
    EveryIn P (gs ++ hs) ↔ EveryIn P gs ∧ EveryIn P hs := by
  simp only [everyIn_iff, List.mem_append, or_imp, forall_and]

theorem everyIn_append {P : Green → Prop} {gs hs : List Green} (hgs : EveryIn P gs)
    (hhs : EveryIn P hs) : EveryIn P (gs ++ hs) :=
  everyIn_append_iff.mpr ⟨hgs, hhs⟩

theorem everyIn_singleton {P : Green → Prop} {g : Green} (h : g.Every P) : EveryIn P [g] :=
  ⟨h, trivial⟩

theorem run_writeQuestionDot (optional : Bool) (l : Layout) :
    (writeQuestionDot optional).run l =
      (questionDots l.pending optional, if optional then l.behind "?." else l) := by
  cases optional <;> rfl

theorem functionNode_arrow (opening closing token body : Green) (parameters : List Green) :
    functionNode .arrowFunction 0 (opening :: (parameters ++ [closing])) [] [token, body] =
      branch .arrowFunction
        (.functionLike ⟨elementPlaces 1 parameters, some (parameters.length + 3)⟩)
        (opening :: (parameters ++ [closing, token, body])) := by
  simp [functionNode]

theorem functionNode_function (word opening closing body : Green) (parameters : List Green) :
    functionNode .functionExpression 1 (opening :: (parameters ++ [closing])) [word] [body] =
      branch .functionExpression
        (.functionLike ⟨elementPlaces 2 parameters, some (parameters.length + 3)⟩)
        (word :: opening :: (parameters ++ [closing, body])) := by
  simp [functionNode]

/-- The kinds that a program may give as keywords and operators: those with a fixed spelling, and
    perhaps more. -/
structure Marks where
  takes : Kind → Bool
  takes_of_isFixed : ∀ kind, kind.isFixed = true → takes kind = true

/-- Only the kinds of tokens. -/
def Marks.tokens : Marks := ⟨Kind.isToken, fun _ h => Kind.isToken_of_isFixed h⟩

/-- All kinds. -/
def Marks.all : Marks := ⟨fun _ => true, fun _ _ => rfl⟩

/-- A tree that may stand outside of types: every node has one of the forms. -/
structure Shaped (m : Marks) (g : Green) : Prop where
  quoted : IsQuoted g
  shapes : g.Every (HasShape m.takes)

/-- Trees that may stand outside of types. -/
def ShapedAll (m : Marks) : List Green → Prop
  | [] => True
  | g :: gs => Shaped m g ∧ ShapedAll m gs

variable {m : Marks}

theorem shapedAll_iff {gs : List Green} :
    ShapedAll m gs ↔ ∀ g ∈ gs, Shaped m g := by
  induction gs with
  | nil => simp [ShapedAll]
  | cons g gs ih => simp [ShapedAll, ih]

theorem shapedAll_append {gs hs : List Green} (hgs : ShapedAll m gs)
    (hhs : ShapedAll m hs) : ShapedAll m (gs ++ hs) := by
  rw [shapedAll_iff] at hgs hhs ⊢
  exact List.forall_mem_append.mpr ⟨hgs, hhs⟩

theorem shapedAll_singleton {g : Green} (h : Shaped m g) : ShapedAll m [g] := ⟨h, trivial⟩

theorem Form.shaped {kind : Kind} {flags : Nat} {payload : Payload} {children : List Green}
    {labels : List String} (h : Form kind flags payload children)
    (hchildren : ShapedAll m children) :
    Shaped m (.node kind flags payload children labels) := by
  rw [shapedAll_iff] at hchildren
  exact ⟨nofun, ⟨h, .inr fun c hc => (hchildren c hc).quoted⟩,
    everyIn_iff.mpr fun c hc => (hchildren c hc).shapes⟩

theorem withLabel_shaped {g : Green} (label : String) (h : Shaped m g) :
    Shaped m (g.withLabel label) := by
  obtain ⟨hquoted, hshapes⟩ := h
  cases g with
  | token lead kind text payload labels =>
    refine ⟨?_, hshapes⟩
    rintro _ _ _ _ ⟨⟩
    exact hquoted _ _ _ _ rfl
  | node kind flags payload children labels => exact ⟨nofun, hshapes⟩

theorem TokenForm.shaped {lead text : String} {kind : Kind} {payload : Payload}
    {labels : List String} (h : TokenForm m.takes kind text payload)
    (hquoted : kind = .stringLiteral → ∀ value, payload = .literal value →
      text = quoteString value) :
    Shaped m (.token lead kind text payload labels) := by
  refine ⟨?_, h⟩
  rintro _ _ value _ ⟨⟩
  exact hquoted rfl value rfl

theorem mark_shaped (lead : String) {kind : Kind} (h : m.takes kind = true) :
    Shaped m (mark lead kind) :=
  TokenForm.shaped (.fixed kind h) nofun

theorem token_shaped (lead : String) {kind : Kind} (h : kind.isFixed = true) :
    Shaped m (mark lead kind) :=
  mark_shaped lead (m.takes_of_isFixed kind h)

theorem identifier_shaped (lead name : String) (labels : List String) :
    Shaped m (.token lead .identifier name (.identifier name) labels) :=
  TokenForm.shaped (.identifier name) nofun

theorem enclosed_shaped (lead text value : String) (labels : List String) {kind : Kind}
    (hkind : kind ∈ enclosedKinds)
    (hquoted : kind = .stringLiteral → text = quoteString value) :
    Shaped m (.token lead kind text (.literal value) labels) :=
  TokenForm.shaped (.enclosed kind text value hkind) fun hstring _ heq =>
    Payload.literal.inj heq ▸ hquoted hstring

theorem writeType_typeForm (text : String) (l : Layout) :
    ((writeType text).run l).1.Every IsTypeForm :=
  TypeText.write_typeForm _ (TypeText.ofText_proper text) l

theorem writeType_isType (text : String) (l : Layout) : IsType ((writeType text).run l).1 :=
  (writeType_typeForm text l).imp fun _ h => h.2

theorem TokenForm.mono {marks marks' : Kind → Bool} {kind : Kind} {text : String}
    {payload : Payload} (hmarks : ∀ kind, marks kind = true → marks' kind = true)
    (h : TokenForm marks kind text payload) : TokenForm marks' kind text payload := by
  cases h with
  | fixed kind h => exact .fixed kind (hmarks kind h)
  | identifier => exact .identifier _
  | number kind text h => exact .number kind text h
  | template text => exact .template text
  | enclosed kind text value h => exact .enclosed kind text value h

theorem HasShape.mono {marks marks' : Kind → Bool} {g : Green}
    (hmarks : ∀ kind, marks kind = true → marks' kind = true) (h : HasShape marks g) :
    HasShape marks' g := by
  cases g with
  | token lead kind text payload labels => exact TokenForm.mono hmarks h
  | node kind flags payload children labels => exact h

theorem writeType_shaped (text : String) (l : Layout) : Shaped m ((writeType text).run l).1 :=
  ⟨TypeText.write_quoted _ l, (writeType_typeForm text l).imp fun _ h =>
    h.1.mono m.takes_of_isFixed⟩

theorem questionDots_shaped (lead : String) (optional : Bool) :
    ShapedAll m (questionDots lead optional) := by
  cases optional
  · trivial
  · exact shapedAll_singleton (token_shaped lead rfl)

theorem writeSpans_shaped (spans : List (String × String)) (l : Layout) :
    ShapedAll m ((writeSpans spans).run l).1 := by
  induction spans generalizing l with
  | nil => trivial
  | cons span rest ih =>
    obtain ⟨name, text⟩ := span
    cases rest with
    | nil =>
      exact ⟨Form.shaped (.templateSpan _ _) ⟨identifier_shaped _ _ _,
        enclosed_shaped _ _ _ _ (by decide) nofun, trivial⟩, trivial⟩
    | cons next rest =>
      exact ⟨Form.shaped (.templateSpan _ _) ⟨identifier_shaped _ _ _,
        enclosed_shaped _ _ _ _ (by decide) nofun, trivial⟩, ih _⟩

theorem writeParameters_shaped (names : List String) (l : Layout) :
    ShapedAll m ((writeParameters names).run l).1 := by
  induction names generalizing l with
  | nil => trivial
  | cons name rest ih =>
    cases rest with
    | nil => exact ⟨Form.shaped (.parameter _) ⟨identifier_shaped _ _ _, trivial⟩, trivial⟩
    | cons next rest =>
      exact ⟨Form.shaped (.parameter _) ⟨identifier_shaped _ _ _, trivial⟩, token_shaped _ rfl,
        ih _⟩

theorem arrow_shaped (names : List String) (l : Layout) {token body : Green}
    (htoken : Shaped m token) (hbody : Shaped m body) :
    Shaped m (functionNode .arrowFunction 0 ((writeParameterList names).run l).1 []
      [token, body]) := by
  refine (functionNode_arrow _ _ token body _).symm ▸
    Form.shaped (.arrow _ _ _ _ _) ⟨token_shaped _ rfl,
      shapedAll_append (writeParameters_shaped names _)
        ⟨token_shaped _ rfl, htoken, hbody, trivial⟩⟩

theorem function_shaped (names : List String) (l : Layout) {word body : Green}
    (hword : Shaped m word) (hbody : Shaped m body) :
    Shaped m (functionNode .functionExpression 1 ((writeParameterList names).run l).1 [word]
      [body]) := by
  refine (functionNode_function word _ _ body _).symm ▸ Form.shaped (.function _ _ _ _ _) ⟨hword,
    token_shaped _ rfl, shapedAll_append (writeParameters_shaped names _)
      ⟨token_shaped _ rfl, hbody, trivial⟩⟩

theorem braced_shaped (isEmpty : Bool) (kind : Kind) (h : kind = .block ∨ kind = .caseBlock)
    {contents : Writer (List Green)} (hcontents : ∀ l, ShapedAll m (contents.run l).1)
    (l : Layout) :
    let children := ((braced isEmpty contents).run l).1
    Shaped m (branch kind (.block (places 1 (children.length - 2))) children) := by
  intro children
  have hform : ∀ (items : List Green) (lead lead' : String), ShapedAll m items →
      Shaped m (branch kind
        (.block (places 1 ((mark lead .openBraceToken :: items ++
          [mark lead' .closeBraceToken]).length - 2)))
        (mark lead .openBraceToken :: items ++ [mark lead' .closeBraceToken])) := by
    intro items lead lead' hitems
    refine Form.shaped ?_ ⟨token_shaped _ rfl,
      shapedAll_append hitems (shapedAll_singleton (token_shaped _ rfl))⟩
    have hblock := Form.block kind h (mark lead .openBraceToken) (mark lead' .closeBraceToken) items
    simpa using hblock
  simp only [children, run_braced]
  exact hform _ _ _ (hcontents _)

theorem writeBlock_shaped (isEmpty : Bool) {statements : Writer (List Green)}
    (h : ∀ l, ShapedAll m (statements.run l).1) (l : Layout) :
    Shaped m ((writeBlock isEmpty statements).run l).1 :=
  braced_shaped isEmpty .block (.inl rfl) h l

theorem variableNode_shaped (isDeclare : Bool) (kind : VariableKind) (definite : Bool)
    {declareWord : List Green} {keyword ident : Green} {marks annotation value : List Green}
    {semicolon : Green} (hdeclare : ShapedAll m declareWord) (hkeyword : Shaped m keyword)
    (hident : Shaped m ident) (hname : ident.kind = .identifier) (hmarks : ShapedAll m marks)
    (hdeclared : ShapedAll m annotation)
    (hcolon : annotation ≠ [] → 1 < annotation.length) (hvalue : ShapedAll m value)
    (hsemicolon : Shaped m semicolon) :
    Shaped m (variableNode isDeclare kind definite declareWord keyword ident marks annotation value
      semicolon) := by
  refine Form.shaped (.variableStatement _ _ _ _) (shapedAll_append hdeclare
    ⟨Form.shaped (.variableList _ _ _) ⟨hkeyword, Form.shaped ?_ ⟨hident, ?_⟩, trivial⟩,
      hsemicolon, trivial⟩)
  · refine .variableDeclaration _ _ _ _ _ ?_ ?_ hname
    · intro i hi
      split at hi
      · cases hi
      · next hne =>
        have hlength := hcolon (by simpa using hne)
        cases hi
        simp only [List.length_append]
        omega
    · intro i hi
      split at hi
      · cases hi
      · cases hi
        exact Nat.lt_succ_self _
  · exact shapedAll_append (shapedAll_append hmarks hdeclared) hvalue

/-- A variable statement is formed if its initial value is. -/
theorem writeVariable_shaped (isDeclare : Bool) (kind : VariableKind) (name : String)
    (definite : Bool) (typeText : Option String) {initializer : Writer (List Green)}
    (h : ∀ l, ShapedAll m (initializer.run l).1) (l : Layout) :
    Shaped m ((writeVariable isDeclare kind name definite typeText initializer).run l).1 := by
  have hdeclare (l : Layout) : ShapedAll m ((writeDeclare isDeclare).run l).1 := by
    cases isDeclare
    · trivial
    · exact shapedAll_singleton (token_shaped _ rfl)
  have hkeyword (lead : String) : Shaped m (mark lead kind.keyword) :=
    token_shaped lead (by cases kind <;> rfl)
  have hmarks (l : Layout) : ShapedAll m ((writeDefinite definite).run l).1 := by
    cases definite
    · trivial
    · exact shapedAll_singleton (token_shaped _ rfl)
  have hdeclared (l : Layout) : ShapedAll m ((writeDeclaredType typeText).run l).1 ∧
      (((writeDeclaredType typeText).run l).1 ≠ [] →
        1 < ((writeDeclaredType typeText).run l).1.length) := by
    cases typeText with
    | none => exact ⟨trivial, fun hne => absurd rfl hne⟩
    | some text =>
      exact ⟨⟨token_shaped _ rfl, writeType_shaped text _, trivial⟩, fun _ => Nat.lt_succ_self _⟩
  rw [writeVariable_eq]
  simp only [run_bind, run_pure, run_token, run_identifier, run_space, run_beginStatement]
  exact variableNode_shaped isDeclare kind definite (hdeclare _) (hkeyword _)
    (identifier_shaped _ _ _) rfl (hmarks _) (hdeclared _).1 (hdeclared _).2 (h _)
    (token_shaped _ rfl)

theorem run_pure_shaped (l : Layout) : ShapedAll m ((pure [] : Writer (List Green)).run l).1 :=
  trivial

mutual

/-- An expression whose keywords and operators are tokens is written as a formed tree. -/
theorem Expr.write_shaped (e : Expr) (h : e.every (Expr.usesKinds m.takes) = true) (l : Layout) :
    Shaped m (e.write.run l).1 := by
  cases e with
  | identifier name => exact identifier_shaped _ _ _
  | string value => exact enclosed_shaped _ _ _ _ (by decide) fun _ => rfl
  | number text => exact TokenForm.shaped (.number _ _ (.inl rfl)) nofun
  | bigint text => exact TokenForm.shaped (.number _ _ (.inr rfl)) nofun
  | template text => exact TokenForm.shaped (.template _) nofun
  | substitution head spans =>
    exact Form.shaped (.template _ _)
      ⟨enclosed_shaped _ _ _ _ (by decide) nofun, writeSpans_shaped spans _⟩
  | keyword kind => exact mark_shaped _ h
  | paren e =>
    simp only [Expr.every, Bool.and_eq_true] at h
    exact Form.shaped (.paren _ _ _) ⟨token_shaped _ rfl, Expr.write_shaped e h.2 _,
      token_shaped _ rfl, trivial⟩
  | binary left operator right =>
    simp only [Expr.every, Bool.and_eq_true] at h
    exact Form.shaped (.binary _ _ _ _) ⟨Expr.write_shaped left h.1.2 _, mark_shaped _ h.1.1,
      Expr.write_shaped right h.2 _, trivial⟩
  | prefixed operator e =>
    simp only [Expr.every, Bool.and_eq_true] at h
    rw [run_prefixed]
    exact Form.shaped (.prefixed _ (by split <;> simp) _ _ _) ⟨mark_shaped _ h.1,
      Expr.write_shaped e h.2 _, trivial⟩
  | postfixed e operator =>
    simp only [Expr.every, Bool.and_eq_true] at h
    exact Form.shaped (.postfixed _ _ _) ⟨Expr.write_shaped e h.2 _, mark_shaped _ h.1, trivial⟩
  | nonNull e =>
    simp only [Expr.every, Bool.and_eq_true] at h
    exact Form.shaped (.nonNull _ _) ⟨Expr.write_shaped e h.2 _, token_shaped _ rfl, trivial⟩
  | property e optional name =>
    simp only [Expr.every, Bool.and_eq_true] at h
    have hdot : (if optional then Kind.questionDotToken else .dotToken).isFixed = true := by
      cases optional <;> rfl
    exact Form.shaped (.property _ _ _ _ ⟨_, _, _, rfl⟩) ⟨Expr.write_shaped e h.2 _,
      token_shaped _ hdot, identifier_shaped _ _ _, trivial⟩
  | element e optional argument =>
    simp only [Expr.every, Bool.and_eq_true] at h
    simp only [Expr.write, run_bind, run_pure, run_token, run_writeQuestionDot]
    exact Form.shaped (.element _ _ _ _ _ _) ⟨Expr.write_shaped e h.1.2 _,
      shapedAll_append (questionDots_shaped _ _) ⟨token_shaped _ rfl,
        Expr.write_shaped argument h.2 _, token_shaped _ rfl, trivial⟩⟩
  | call callee optional arguments =>
    simp only [Expr.every, Bool.and_eq_true] at h
    simp only [Expr.write, run_bind, run_pure, run_token, run_writeQuestionDot]
    exact Form.shaped (.call _ _ _ _ _ _) ⟨Expr.write_shaped callee h.1.2 _,
      shapedAll_append (shapedAll_append (questionDots_shaped _ _) ⟨token_shaped _ rfl,
        Expr.writeList_shaped arguments h.2 _⟩) (shapedAll_singleton (token_shaped _ rfl))⟩
  | conditional condition whenTrue whenFalse =>
    simp only [Expr.every, Bool.and_eq_true] at h
    exact Form.shaped (.conditional _ _ _ _ _) ⟨Expr.write_shaped condition h.1.1.2 _,
      token_shaped _ rfl, Expr.write_shaped whenTrue h.1.2 _, token_shaped _ rfl,
      Expr.write_shaped whenFalse h.2 _, trivial⟩
  | asType e typeText =>
    simp only [Expr.every, Bool.and_eq_true] at h
    exact Form.shaped (.asType _ _ _ (writeType_isType typeText _)) ⟨Expr.write_shaped e h.2 _,
      token_shaped _ rfl, writeType_shaped typeText _, trivial⟩
  | satisfiesType e typeText =>
    simp only [Expr.every, Bool.and_eq_true] at h
    exact Form.shaped (.satisfiesType _ _ _) ⟨Expr.write_shaped e h.2 _, token_shaped _ rfl,
      writeType_shaped typeText _, trivial⟩
  | typeAssertion typeText e =>
    simp only [Expr.every, Bool.and_eq_true] at h
    exact Form.shaped (.typeAssertion _ _ _ _ (writeType_isType typeText _)) ⟨token_shaped _ rfl,
      writeType_shaped typeText _, token_shaped _ rfl, Expr.write_shaped e h.2 _, trivial⟩
  | arrow parameters body =>
    simp only [Expr.every, Bool.and_eq_true] at h
    exact arrow_shaped parameters _ (token_shaped _ rfl) (Expr.write_shaped body h.2 _)
  | arrowBlock parameters body =>
    simp only [Expr.every, Bool.and_eq_true] at h
    exact arrow_shaped parameters _ (token_shaped _ rfl)
      (writeBlock_shaped _ (Item.writeList_shaped body h.2) _)
  | function parameters body =>
    simp only [Expr.every, Bool.and_eq_true] at h
    exact function_shaped parameters _ (token_shaped _ rfl)
      (writeBlock_shaped _ (Item.writeList_shaped body h.2) _)
  | array items =>
    simp only [Expr.every, Bool.and_eq_true] at h
    exact Form.shaped (.array _ _ _) ⟨token_shaped _ rfl,
      shapedAll_append (Expr.writeList_shaped items h.2 _)
        (shapedAll_singleton (token_shaped _ rfl))⟩
  | emptyObject =>
    exact Form.shaped (.emptyObject _ _) ⟨token_shaped _ rfl, token_shaped _ rfl, trivial⟩
  | commentBefore text e =>
    simp only [Expr.every, Bool.and_eq_true] at h
    exact Expr.write_shaped e h.2 _
  | commentAfter e text =>
    simp only [Expr.every, Bool.and_eq_true] at h
    exact Expr.write_shaped e h.2 _
  | emptyCall callee optional text =>
    simp only [Expr.every, Bool.and_eq_true] at h
    simp only [Expr.write, run_bind, run_pure, run_token, run_comment, run_writeQuestionDot]
    rw [List.append_cons]
    exact Form.shaped (.call _ _ [] _ _ _) ⟨Expr.write_shaped callee h.2 _,
      shapedAll_append (shapedAll_append (questionDots_shaped _ _)
        (shapedAll_singleton (token_shaped _ rfl))) (shapedAll_singleton (token_shaped _ rfl))⟩
  | emptyArray text =>
    exact Form.shaped (.array _ _ []) ⟨token_shaped _ rfl, token_shaped _ rfl, trivial⟩
  | typeNode text => exact writeType_shaped text _
  | labeled label e =>
    simp only [Expr.every, Bool.and_eq_true] at h
    exact withLabel_shaped label (Expr.write_shaped e h.2 _)

theorem Expr.writeList_shaped (es : List Expr) (h : Expr.everyIn (Expr.usesKinds m.takes) es = true)
    (l : Layout) : ShapedAll m ((Expr.writeList es).run l).1 := by
  match es with
  | [] => trivial
  | [e] =>
    simp only [Expr.everyIn, Bool.and_eq_true] at h
    exact shapedAll_singleton (Expr.write_shaped e h.1 _)
  | e :: next :: rest =>
    rw [Expr.everyIn, Bool.and_eq_true] at h
    exact ⟨Expr.write_shaped e h.1 _, token_shaped _ rfl,
      Expr.writeList_shaped (next :: rest) h.2 _⟩

/-- A statement is written as a formed tree. -/
theorem Stmt.write_shaped (s : Stmt) (h : s.every (Expr.usesKinds m.takes) = true) (l : Layout) :
    Shaped m (s.write.run l).1 := by
  match s with
  | .expression e =>
    exact Form.shaped (.expressionStatement _ _)
      ⟨Expr.write_shaped e h _, token_shaped _ rfl, trivial⟩
  | .variable kind name typeText => exact writeVariable_shaped _ _ _ _ _ run_pure_shaped _
  | .initialized kind name typeText initializer =>
    refine writeVariable_shaped _ _ _ _ _ (fun l => ?_) _
    exact ⟨token_shaped _ rfl, Expr.write_shaped initializer h _, trivial⟩
  | .declared kind name typeText => exact writeVariable_shaped _ _ _ _ _ run_pure_shaped _
  | .definite name typeText => exact writeVariable_shaped _ _ _ _ _ run_pure_shaped _
  | .block body => exact writeBlock_shaped _ (Item.writeList_shaped body h) _
  | .ifThen condition consequent =>
    simp only [Stmt.every, Bool.and_eq_true] at h
    exact Form.shaped (.ifThen _ _ _ _ _) ⟨token_shaped _ rfl, token_shaped _ rfl,
      Expr.write_shaped condition h.1 _, token_shaped _ rfl, Stmt.write_shaped consequent h.2 _,
      trivial⟩
  | .ifElse condition consequent alternative =>
    simp only [Stmt.every, Bool.and_eq_true] at h
    exact Form.shaped (.ifElse _ _ _ _ _ _ _) ⟨token_shaped _ rfl, token_shaped _ rfl,
      Expr.write_shaped condition h.1.1 _, token_shaped _ rfl,
      Stmt.write_shaped consequent h.1.2 _, token_shaped _ rfl,
      Stmt.write_shaped alternative h.2 _, trivial⟩
  | .whileLoop condition body =>
    simp only [Stmt.every, Bool.and_eq_true] at h
    exact Form.shaped (.whileLoop _ _ _ _ _) ⟨token_shaped _ rfl, token_shaped _ rfl,
      Expr.write_shaped condition h.1 _, token_shaped _ rfl, Stmt.write_shaped body h.2 _, trivial⟩
  | .doLoop body condition =>
    simp only [Stmt.every, Bool.and_eq_true] at h
    exact Form.shaped (.doLoop _ _ _ _ _ _ _) ⟨token_shaped _ rfl, Stmt.write_shaped body h.1 _,
      token_shaped _ rfl, token_shaped _ rfl, Expr.write_shaped condition h.2 _, token_shaped _ rfl,
      token_shaped _ rfl, trivial⟩
  | .forever body =>
    exact Form.shaped (.forever _ _ _ _ _ _) ⟨token_shaped _ rfl, token_shaped _ rfl,
      token_shaped _ rfl, token_shaped _ rfl, token_shaped _ rfl, Stmt.write_shaped body h _,
      trivial⟩
  | .forLoop condition body =>
    simp only [Stmt.every, Bool.and_eq_true] at h
    exact Form.shaped (.forLoop _ _ _ _ _ _ _) ⟨token_shaped _ rfl, token_shaped _ rfl,
      token_shaped _ rfl, Expr.write_shaped condition h.1 _, token_shaped _ rfl, token_shaped _ rfl,
      Stmt.write_shaped body h.2 _, trivial⟩
  | .switch e clauses =>
    simp only [Stmt.every, Bool.and_eq_true] at h
    exact Form.shaped (.switch _ _ _ _ _ ⟨rfl, rfl⟩) ⟨token_shaped _ rfl, token_shaped _ rfl,
      Expr.write_shaped e h.1 _, token_shaped _ rfl,
      braced_shaped _ .caseBlock (.inr rfl) (Clause.writeList_shaped clauses h.2) _, trivial⟩
  | .breakOut => exact Form.shaped (.breakOut _ _) ⟨token_shaped _ rfl, token_shaped _ rfl, trivial⟩
  | .returned e =>
    exact Form.shaped (.jump _ (.inl rfl) _ _ _) ⟨token_shaped _ rfl, Expr.write_shaped e h _,
      token_shaped _ rfl, trivial⟩
  | .thrown e =>
    exact Form.shaped (.jump _ (.inr rfl) _ _ _) ⟨token_shaped _ rfl, Expr.write_shaped e h _,
      token_shaped _ rfl, trivial⟩
  | .commentBefore text s => exact Stmt.write_shaped s h _
  | .commentAfter s text => exact Stmt.write_shaped s h _
  | .labeled label s => exact withLabel_shaped label (Stmt.write_shaped s h _)

theorem Item.writeList_shaped (items : List Item)
    (h : Item.everyIn (Expr.usesKinds m.takes) items = true) (l : Layout) :
    ShapedAll m ((Item.writeList items).run l).1 := by
  match items with
  | [] => trivial
  | .comment text :: rest => exact Item.writeList_shaped rest h _
  | .statement s :: rest =>
    simp only [Item.everyIn, Bool.and_eq_true] at h
    exact ⟨Stmt.write_shaped s h.1 _, Item.writeList_shaped rest h.2 _⟩

theorem Clause.writeList_shaped (clauses : List Clause)
    (h : Clause.everyIn (Expr.usesKinds m.takes) clauses = true) (l : Layout) :
    ShapedAll m ((Clause.writeList clauses).run l).1 := by
  match clauses with
  | [] => trivial
  | c :: rest =>
    simp only [Clause.everyIn, Bool.and_eq_true] at h
    exact shapedAll_append (Clause.write_shaped c h.1 _) (Clause.writeList_shaped rest h.2 _)

theorem Clause.write_shaped (c : Clause) (h : c.every (Expr.usesKinds m.takes) = true)
    (l : Layout) : ShapedAll m (c.write.run l).1 := by
  cases c with
  | comment text => trivial
  | caseOf e body =>
    simp only [Clause.every, Bool.and_eq_true] at h
    exact shapedAll_singleton (Form.shaped (.caseClause _ _ _ _) ⟨token_shaped _ rfl,
      Expr.write_shaped e h.1 _, token_shaped _ rfl, Item.writeList_shaped body h.2 _⟩)
  | default body =>
    exact shapedAll_singleton (Form.shaped (.defaultClause _ _ _) ⟨token_shaped _ rfl,
      token_shaped _ rfl, Item.writeList_shaped body h _⟩)
  | labeled label c =>
    refine shapedAll_iff.mpr fun g hg => ?_
    obtain ⟨inner, hinner, rfl⟩ := List.mem_map.mp hg
    exact withLabel_shaped label (shapedAll_iff.mp (Clause.write_shaped c h l) inner hinner)

end

/-- The whole tree of a program has the forms of its keywords and operators. -/
theorem closed_shaped {p : TypeLint.Program}
    (h : Item.everyIn (Expr.usesKinds m.takes) p = true) (hend : m.takes .endOfFileToken = true)
    (l : Layout) : Shaped m (closed (lay p).1 l) :=
  Form.shaped (.sourceFile _ _) (shapedAll_append (Item.writeList_shaped p h _)
    (shapedAll_singleton (mark_shaped _ hend)))

theorem usesKinds_isToken : Expr.usesKinds Kind.isToken = Expr.usesTokenKinds :=
  funext fun e => by cases e <;> rfl

/-- The whole tree of a program whose keywords and operators are tokens is formed. -/
theorem closed_formed {p : TypeLint.Program} (h : Disciplined p) (l : Layout) :
    Formed (closed (lay p).1 l) := by
  have hshaped : Shaped .tokens (closed (lay p).1 l) :=
    closed_shaped (by rwa [Marks.tokens, usesKinds_isToken]) rfl l
  exact hshaped.shapes.imp fun _ => HasShape.hasForm

end TypeLint.Program
