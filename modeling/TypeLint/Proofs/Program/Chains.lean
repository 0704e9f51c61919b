import TypeLint.Proofs.Program.Removal
import TypeLint.Proofs.Program.Sizes

namespace TypeLint.Program

open Syntax Writer Text

/-- The kind of an assertion in front of what it is about, or behind it. -/
def assertionKind (inFront : Bool) : Kind :=
  if inFront then .typeAssertionExpression else .asExpression

/-- An expression with an assertion in front of it or behind it. -/
def Expr.assertTo (inFront : Bool) (typeText : String) (e : Expr) : Expr :=
  if inFront then .typeAssertion typeText e else .asType e typeText

/-- A name with a number of assertions to a type. -/
def assertedName (inFront : Bool) (name typeText : String) : Nat → Expr
  | 0 => .identifier name
  | n + 1 => (assertedName inFront name typeText n).assertTo inFront typeText

/-- `declare const name: T;`, and the name with a number of assertions to `T`. -/
def chain (inFront : Bool) (name typeText : String) (n : Nat) : TypeLint.Program :=
  [.statement (.declared .const name typeText),
    .statement (.expression (assertedName inFront name typeText n))]

variable {inFront : Bool} {name typeText : String} {n : Nat}

theorem Expr.stripped_assertTo (e : Expr) : (e.assertTo inFront typeText).stripped = e := by
  cases inFront <;> rfl

/-- A condition that holds of names and of assertions holds everywhere in a chain. -/
theorem everyIn_chain {q : Expr → Bool} (hname : q (.identifier name) = true)
    (hassertion : ∀ e : Expr, q (e.assertTo inFront typeText) = true) (n : Nat) :
    Item.everyIn q (chain inFront name typeText n) = true := by
  have hevery : (assertedName inFront name typeText n).every q = true := by
    induction n with
    | zero => exact hname
    | succ n ih =>
      have hlayer := hassertion (assertedName inFront name typeText n)
      rw [assertedName]
      cases inFront <;> exact Bool.and_eq_true_iff.mpr ⟨hlayer, ih⟩
  simp only [chain, Item.everyIn, Stmt.every, hevery, Bool.and_self]

theorem disciplined_chain (inFront : Bool) (name typeText : String) (n : Nat) :
    Disciplined (chain inFront name typeText n) :=
  everyIn_chain rfl (fun _ => by cases inFront <;> rfl) n

theorem commentFree_chain (inFront : Bool) (name typeText : String) (n : Nat) :
    CommentFree (chain inFront name typeText n) :=
  everyIn_chain rfl (fun _ => by cases inFront <;> rfl) n

/-- The spot of a name with a number of assertions to a type. -/
def IsAsserted (inFront : Bool) (name typeText : String) (n : Nat) (s : Spot) : Prop :=
  ∃ l, s.green = ((assertedName inFront name typeText n).write.run l).1

/-- The spot of a type that is written as a text. -/
def IsTypeSpot (typeText : String) (s : Spot) : Prop :=
  ∃ l, s.green = ((writeType typeText).run l).1

/-- The kinds of the nodes that assert a type of what they are about. -/
def assertionKinds : List Kind := [.asExpression, .typeAssertionExpression]

/-- The assertions at a spot and below it. -/
def assertions (s : Spot) : List Spot :=
  s.all.filter fun x => assertionKinds.contains x.green.kind

/-- Of what stands below a spot, all but one child is tokens and types. -/
def Wraps (s inner : Spot) : Prop :=
  ∃ before after, s.children = before ++ inner :: after ∧ ∀ c ∈ before ++ after, IsType c.green

/-- An assertion over a chain, with the spots of what it is about and of its type. -/
structure Layer (inFront : Bool) (name typeText : String) (n : Nat) (s operand type : Spot) :
    Prop where
  kind : s.green.kind = assertionKind inFront
  asserted : IsAsserted inFront name typeText n operand
  written : IsTypeSpot typeText type
  assertion : s.node.assertion? = some ⟨operand.ref, type.ref⟩
  wraps : Wraps s operand
  type_mem : type ∈ s.children
  rewrite : ∀ change, (assertedName inFront name typeText (n + 1)).rewrite change s.first =
    change s.number (((assertedName inFront name typeText n).rewrite change operand.first).assertTo
      inFront typeText)

theorem isType_mark (lead : String) {kind : Kind} (h : kind.isToken = true) :
    IsType (mark lead kind) := by
  change isTypePart kind = true
  rw [isTypePart, h, Bool.true_or]

/-- The outermost assertion of a chain. -/
theorem IsAsserted.exists_layer {s : Spot} (h : IsAsserted inFront name typeText (n + 1) s) :
    ∃ operand type, Layer inFront name typeText n s operand type := by
  obtain ⟨l, hgreen⟩ := h
  obtain ⟨first, offset, parent, green⟩ := s
  cases inFront with
  | false =>
    let e := assertedName false name typeText n
    let before := (e.write.run l).2.withTrivia " "
    let behind := (before.behind "as").withTrivia " "
    let inner := (e.write.run l).1
    let word := mark before.pending .asKeyword
    let type := ((writeType typeText).run behind).1
    obtain rfl : green = branch .asExpression (.assertion ⟨some 0, some 2⟩) [inner, word, type] :=
      hgreen
    let s : Spot := ⟨first, offset, parent,
      branch .asExpression (.assertion ⟨some 0, some 2⟩) [inner, word, type]⟩
    refine ⟨⟨first, offset, s.ref, inner⟩, ⟨first + inner.size + word.size,
      offset + byteLength inner.text + byteLength word.text, s.ref, type⟩, rfl, ⟨l, rfl⟩,
      ⟨behind, rfl⟩, rfl, ⟨[], _, rfl, ?_⟩,
      List.mem_cons_of_mem _ (List.mem_cons_of_mem _ List.mem_cons_self), fun change => ?_⟩
    · simp only [List.nil_append, Spot.row_cons, Spot.row_nil, List.forall_mem_cons]
      exact ⟨isType_mark _ rfl, writeType_isType typeText behind, List.forall_mem_nil _⟩
    · have hnumber : first + e.size + 1 + typeSize typeText = s.number := by
        simp only [s, Spot.number, branch, Green.sizeBelow, Green.sizeAll_cons, Green.sizeAll_nil,
          inner, type, word, Expr.size_write, size_writeType, size_mark]
        omega
      exact congrArg (change · _) hnumber
  | true =>
    let e := assertedName true name typeText n
    let opening := mark l.pending .lessThanToken
    let type := ((writeType typeText).run (l.behind "<")).1
    let before := ((writeType typeText).run (l.behind "<")).2
    let closing := mark before.pending .greaterThanToken
    let inner := (e.write.run (before.behind ">")).1
    obtain rfl : green = branch .typeAssertionExpression (.assertion ⟨some 3, some 1⟩)
        [opening, type, closing, inner] := hgreen
    let s : Spot := ⟨first, offset, parent, branch .typeAssertionExpression
      (.assertion ⟨some 3, some 1⟩) [opening, type, closing, inner]⟩
    let middle : Spot :=
      ⟨first + opening.size, offset + byteLength opening.text, s.ref, type⟩
    let last : Spot := ⟨middle.first + type.size + closing.size,
      middle.offset + byteLength type.text + byteLength closing.text, s.ref, inner⟩
    refine ⟨last, middle, rfl, ⟨_, rfl⟩, ⟨_, rfl⟩, rfl, ⟨[_, middle, _], [], rfl, ?_⟩,
      List.mem_cons_of_mem _ List.mem_cons_self, fun change => ?_⟩
    · simp only [List.append_nil, List.forall_mem_cons]
      exact ⟨isType_mark _ rfl, writeType_isType typeText _, isType_mark _ rfl,
        List.forall_mem_nil _⟩
    · have hnumber : first + 1 + typeSize typeText + 1 + e.size = s.number := by
        simp only [s, Spot.number, branch, Green.sizeBelow, Green.sizeAll_cons, Green.sizeAll_nil,
          inner, type, opening, closing, Expr.size_write, size_writeType, size_mark]
        omega
      have hfirst : first + 1 + typeSize typeText + 1 = last.first := by
        simp only [last, middle, opening, closing, type, size_mark, size_writeType]
      change change (first + 1 + typeSize typeText + 1 + e.size)
        (.typeAssertion typeText (e.rewrite change (first + 1 + typeSize typeText + 1))) = _
      rw [hnumber, hfirst]
      rfl

/-- Below a spot and in front of it come the assertions below its children. -/
theorem assertions_eq (s : Spot) :
    assertions s = s.children.flatMap assertions ++
      if assertionKinds.contains s.green.kind then [s] else [] := by
  rw [assertions, Spot.all_eq, List.filter_append, List.filter_flatMap, List.filter_singleton]
  cases assertionKinds.contains s.green.kind <;> rfl

/-- There are no assertions in a type. -/
theorem assertions_of_isType {s : Spot} (h : IsType s.green) : assertions s = [] := by
  refine List.filter_eq_nil_iff.mpr fun x hx hassertion => ?_
  have htype : isTypePart x.green.kind = true := (h.of_mem_all hx).self
  simp only [assertionKinds, List.contains_iff_mem, List.mem_cons, List.not_mem_nil, or_false]
    at hassertion
  rcases hassertion with hkind | hkind <;> rw [hkind] at htype <;> cases htype

theorem flatMap_assertions_of_isType {cs : List Spot} (h : ∀ c ∈ cs, IsType c.green) :
    cs.flatMap assertions = [] :=
  List.flatMap_eq_nil_iff.mpr fun c hc => assertions_of_isType (h c hc)

theorem Wraps.assertions_eq {s inner : Spot} (h : Wraps s inner) :
    assertions s = assertions inner ++
      if assertionKinds.contains s.green.kind then [s] else [] := by
  obtain ⟨before, after, hchildren, haround⟩ := h
  rw [List.forall_mem_append] at haround
  rw [Program.assertions_eq, hchildren, List.flatMap_append, List.flatMap_cons,
    flatMap_assertions_of_isType haround.1, flatMap_assertions_of_isType haround.2,
    List.nil_append, List.append_nil]

theorem Wraps.mem_children {s inner : Spot} (h : Wraps s inner) : inner ∈ s.children := by
  obtain ⟨before, after, hchildren, -⟩ := h
  exact hchildren ▸ List.mem_append_right _ List.mem_cons_self

theorem Wraps.mem_all {s inner x : Spot} (h : Wraps s inner) (hx : x ∈ s.all) :
    IsType x.green ∨ x ∈ inner.all ∨ x = s := by
  obtain ⟨before, after, hchildren, haround⟩ := h
  rcases Spot.mem_all_iff.mp hx with ⟨c, hc, hx⟩ | rfl
  · rw [hchildren, List.mem_append, List.mem_cons, or_left_comm, ← List.mem_append] at hc
    rcases hc with rfl | hc
    · exact .inr (.inl hx)
    · exact .inl ((haround c hc).of_mem_all hx)
  · exact .inr (.inr rfl)

theorem Layer.assertions_eq {s operand type : Spot}
    (h : Layer inFront name typeText n s operand type) : assertions s = assertions operand ++ [s] := by
  rw [h.wraps.assertions_eq, h.kind]
  cases inFront <;> rfl

theorem assertions_identifier {s : Spot} (h : IsAsserted inFront name typeText 0 s) :
    assertions s = [] := by
  obtain ⟨l, hgreen⟩ := h
  exact assertions_of_isType (by rw [hgreen]; exact rfl)

/-- Under all assertions stands the name. -/
theorem IsAsserted.identifier?_eq {s : Spot} (h : IsAsserted inFront name typeText 0 s) :
    s.node.identifier? = some name := by
  obtain ⟨l, hgreen⟩ := h
  obtain ⟨first, offset, parent, green⟩ := s
  obtain rfl : green = .token l.pending .identifier name (.identifier name) [] := hgreen
  rfl

theorem length_assertions {s : Spot} (h : IsAsserted inFront name typeText n s) :
    (assertions s).length = n := by
  induction n generalizing s with
  | zero => rw [assertions_identifier h, List.length_nil]
  | succ n ih =>
    obtain ⟨operand, type, hlayer⟩ := h.exists_layer
    rw [hlayer.assertions_eq, List.length_append, ih hlayer.asserted, List.length_singleton]

/-- Every assertion of a chain is a layer of it. -/
theorem exists_layer_of_mem {s x : Spot} (h : IsAsserted inFront name typeText n s)
    (hx : x ∈ assertions s) : ∃ k operand type, Layer inFront name typeText k x operand type := by
  induction n generalizing s with
  | zero =>
    rw [assertions_identifier h] at hx
    cases hx
  | succ n ih =>
    obtain ⟨operand, type, hlayer⟩ := h.exists_layer
    rw [hlayer.assertions_eq] at hx
    rcases List.mem_append.mp hx with hx | hx
    · exact ih hlayer.asserted hx
    · exact ⟨n, operand, type, List.mem_singleton.mp hx ▸ hlayer⟩

/-- In a chain there are assertions, and else only tokens and types. -/
theorem IsAsserted.kind_of_mem {s x : Spot} (h : IsAsserted inFront name typeText n s)
    (hx : x ∈ s.all) : isTypePart x.green.kind = true ∨ x.green.kind = assertionKind inFront := by
  induction n generalizing s with
  | zero =>
    obtain ⟨l, hgreen⟩ := h
    have htype : IsType s.green := by rw [hgreen]; exact rfl
    exact .inl (htype.of_mem_all hx).self
  | succ n ih =>
    obtain ⟨operand, type, hlayer⟩ := h.exists_layer
    rcases hlayer.wraps.mem_all hx with htype | hx | rfl
    · exact .inl htype.self
    · exact ih hlayer.asserted hx
    · exact .inr hlayer.kind

/-- Of a chain without some of its assertions the others are left. -/
theorem rewrite_assertedName (marked : Nat → Bool) {s : Spot}
    (h : IsAsserted inFront name typeText n s) :
    (assertedName inFront name typeText n).rewrite
        (fun n e => if marked n then e.stripped else e) s.first =
      assertedName inFront name typeText
        ((assertions s).filter fun x => !marked x.number).length := by
  induction n generalizing s with
  | zero =>
    rw [assertions_identifier h]
    rfl
  | succ n ih =>
    obtain ⟨operand, type, hlayer⟩ := h.exists_layer
    rw [hlayer.rewrite, ih hlayer.asserted, hlayer.assertions_eq, List.filter_append,
      List.length_append, List.filter_singleton, Expr.stripped_assertTo]
    cases marked s.number <;> rfl

/-- Where the type of a declared constant is written. -/
def annotationStart (name : String) : Layout :=
  ((((((Layout.start.behind "declare").withTrivia " ").behind "const").withTrivia " ").behind
    name).behind ":").withTrivia " "

/-- The tree of the declaration of a constant. -/
def declarationTree (name typeText : String) : Green :=
  let type := (writeType typeText).run (annotationStart name)
  branch .variableStatement (.variableStatement ⟨true, some 1⟩)
    [mark "" .declareKeyword,
      branch .variableDeclarationList (.variableList ⟨.const, [some 1]⟩)
        [mark " " .constKeyword,
          branch .variableDeclaration (.variableDeclaration ⟨some 0, false, some 2, none⟩)
            [.token " " .identifier name (.identifier name) [], mark "" .colonToken, type.1]],
      mark type.2.pending .semicolonToken]

/-- Where the chain behind the declaration is written. -/
def chainStart (name typeText : String) : Layout :=
  (((writeType typeText).run (annotationStart name)).2.behind ";").begun

/-- The tree of the statement of a chain, and where the writing leaves off. -/
def statementRun (inFront : Bool) (name typeText : String) (n : Nat) : Green × Layout :=
  let inner := (assertedName inFront name typeText n).write.run (chainStart name typeText)
  (branch .expressionStatement (.wrapped (some 0))
    [inner.1, mark inner.2.pending .semicolonToken], inner.2.behind ";")

theorem lay_chain (inFront : Bool) (name typeText : String) (n : Nat) :
    lay (chain inFront name typeText n) =
      ([declarationTree name typeText, (statementRun inFront name typeText n).1],
        (statementRun inFront name typeText n).2) := by
  simp only [lay, chain, Item.writeList, run_bind, Stmt.write, run_beginStatement, run_token,
    run_pure]
  rfl

theorem exists_whole_chain (inFront : Bool) (name typeText : String) (n : Nat) :
    ∃ eof, whole (chain inFront name typeText n) = branch .sourceFile (.block (places 0 2))
      [declarationTree name typeText, (statementRun inFront name typeText n).1, eof] ∧
      IsType eof := by
  rw [whole, lay_chain]
  exact ⟨_, rfl, rfl⟩

/-- The spots of the file of a chain, from its statements down to the declaration and the chain. -/
structure ChainFrame (inFront : Bool) (name typeText : String) (n : Nat)
    (statement list declaration behind asserted last : Spot) : Prop where
  root_children : (wholeSpot (chain inFront name typeText n)).children = [statement, behind, last]
  root_kind : (wholeSpot (chain inFront name typeText n)).green.kind = .sourceFile
  statement_wraps : Wraps statement list
  statement_kind : statement.green.kind = .variableStatement
  list_wraps : Wraps list declaration
  list_kind : list.green.kind = .variableDeclarationList
  declaration_children : ∀ c ∈ declaration.children, IsType c.green
  declaration_kind : declaration.green.kind = .variableDeclaration
  behind_wraps : Wraps behind asserted
  behind_kind : behind.green.kind = .expressionStatement
  chained : IsAsserted inFront name typeText n asserted
  last_isType : IsType last.green

namespace ChainFrame

variable {statement list declaration behind asserted last : Spot}
  (h : ChainFrame inFront name typeText n statement list declaration behind asserted last)

include h

theorem declaration_mem : declaration ∈ (wholeSpot (chain inFront name typeText n)).all := by
  refine Spot.children_subset_all (Spot.children_subset_all (Spot.children_subset_all
    (Spot.self_mem_all _) ?_) h.statement_wraps.mem_children) h.list_wraps.mem_children
  exact h.root_children ▸ List.mem_cons_self

theorem asserted_mem : asserted ∈ (wholeSpot (chain inFront name typeText n)).all := by
  refine Spot.children_subset_all (Spot.children_subset_all (Spot.self_mem_all _) ?_)
    h.behind_wraps.mem_children
  exact h.root_children ▸ List.mem_cons_of_mem _ List.mem_cons_self

theorem assertions_eq :
    assertions (wholeSpot (chain inFront name typeText n)) = assertions asserted := by
  have hfirst : assertions statement = [] := by
    rw [h.statement_wraps.assertions_eq, h.list_wraps.assertions_eq, Program.assertions_eq declaration,
      flatMap_assertions_of_isType h.declaration_children, h.statement_kind, h.list_kind,
      h.declaration_kind]
    rfl
  have hsecond : assertions behind = assertions asserted := by
    rw [h.behind_wraps.assertions_eq, h.behind_kind]
    exact List.append_nil _
  rw [Program.assertions_eq, h.root_children, h.root_kind, List.flatMap_cons, List.flatMap_cons,
    List.flatMap_singleton, hfirst, hsecond, assertions_of_isType h.last_isType, List.nil_append,
    List.append_nil]
  exact List.append_nil _

theorem eq_declaration {x : Spot} (hx : x ∈ (wholeSpot (chain inFront name typeText n)).all)
    (hkind : x.green.kind = .variableDeclaration) : x = declaration := by
  have hpart {s : Spot} (hs : IsType s.green) (hx : x ∈ s.all) : False := by
    have hself : isTypePart x.green.kind = true := (hs.of_mem_all hx).self
    rw [hkind] at hself
    cases hself
  have hinner {s inner : Spot} {kind : Kind} (hs : Wraps s inner) (hskind : s.green.kind = kind)
      (hne : kind ≠ .variableDeclaration) (hx : x ∈ s.all) : x ∈ inner.all := by
    rcases hs.mem_all hx with htype | hx | rfl
    · exact (hpart htype x.self_mem_all).elim
    · exact hx
    · exact (hne (hskind.symm.trans hkind)).elim
  rcases Spot.mem_all_iff.mp hx with ⟨c, hc, hx⟩ | rfl
  · rw [h.root_children, List.mem_cons, List.mem_cons, List.mem_singleton] at hc
    rcases hc with rfl | rfl | rfl
    · have hlist := hinner h.statement_wraps h.statement_kind (by rintro ⟨⟩) hx
      rcases Spot.mem_all_iff.mp (hinner h.list_wraps h.list_kind (by rintro ⟨⟩) hlist) with
        ⟨c, hc, hx⟩ | rfl
      · exact (hpart (h.declaration_children c hc) hx).elim
      · rfl
    · have hchain := hinner h.behind_wraps h.behind_kind (by rintro ⟨⟩) hx
      rcases h.chained.kind_of_mem hchain with htype | hassertion
      · rw [hkind] at htype
        cases htype
      · rw [hkind] at hassertion
        cases inFront <;> cases hassertion
    · exact (hpart h.last_isType hx).elim
  · cases h.root_kind.symm.trans hkind

end ChainFrame

/-- The parts of the file of a chain. -/
structure ChainParts (inFront : Bool) (name typeText : String) (n : Nat)
    (declaration ident annotation asserted : Spot) : Prop where
  frame : ∃ statement list behind last,
    ChainFrame inFront name typeText n statement list declaration behind asserted last
  children : ∃ colon, declaration.children = [ident, colon, annotation]
  declared : declaration.node.variableDeclaration? =
    some ⟨ident.ref, false, annotation.ref, none⟩
  named : ident.node.identifier? = some name
  written : IsTypeSpot typeText annotation
  before : declaration.number < asserted.first
  first : asserted.first = (Stmt.declared .const name typeText).size

namespace ChainParts

variable {declaration ident annotation asserted : Spot}
  (h : ChainParts inFront name typeText n declaration ident annotation asserted)

include h

theorem declaration_mem : declaration ∈ (wholeSpot (chain inFront name typeText n)).all := by
  obtain ⟨statement, list, behind, last, hframe⟩ := h.frame
  exact hframe.declaration_mem

theorem asserted_mem : asserted ∈ (wholeSpot (chain inFront name typeText n)).all := by
  obtain ⟨statement, list, behind, last, hframe⟩ := h.frame
  exact hframe.asserted_mem

theorem ident_mem : ident ∈ (wholeSpot (chain inFront name typeText n)).all := by
  obtain ⟨colon, hchildren⟩ := h.children
  exact Spot.children_subset_all h.declaration_mem (hchildren ▸ List.mem_cons_self)

theorem annotation_mem : annotation ∈ (wholeSpot (chain inFront name typeText n)).all := by
  obtain ⟨colon, hchildren⟩ := h.children
  refine Spot.children_subset_all h.declaration_mem ?_
  rw [hchildren]
  exact List.mem_cons_of_mem _ (List.mem_cons_of_mem _ List.mem_cons_self)

end ChainParts

theorem exists_chainParts (inFront : Bool) (name typeText : String) (n : Nat) :
    ∃ declaration ident annotation asserted,
      ChainParts inFront name typeText n declaration ident annotation asserted := by
  obtain ⟨eof, hwhole, heof⟩ := exists_whole_chain inFront name typeText n
  let root := wholeSpot (chain inFront name typeText n)
  let type := (writeType typeText).run (annotationStart name)
  let declarationGreen := branch .variableDeclaration
    (.variableDeclaration ⟨some 0, false, some 2, none⟩)
    [.token " " .identifier name (.identifier name) [], mark "" .colonToken, type.1]
  let statement : Spot := ⟨0, 0, root.ref, declarationTree name typeText⟩
  let list : Spot := ⟨1, 7, statement.ref, branch .variableDeclarationList
    (.variableList ⟨.const, [some 1]⟩) [mark " " .constKeyword, declarationGreen]⟩
  let declaration : Spot := ⟨2, 13, list.ref, declarationGreen⟩
  let behind : Spot := ⟨0 + (declarationTree name typeText).size,
    0 + byteLength (declarationTree name typeText).text, root.ref,
    (statementRun inFront name typeText n).1⟩
  let asserted : Spot := ⟨behind.first, behind.offset, behind.ref,
    ((assertedName inFront name typeText n).write.run (chainStart name typeText)).1⟩
  have hstatement : Wraps statement list := by
    refine ⟨[_], [_], rfl, ?_⟩
    simp only [List.singleton_append, List.forall_mem_cons]
    exact ⟨isType_mark _ rfl, isType_mark _ rfl, List.forall_mem_nil _⟩
  have hlist : Wraps list declaration := by
    refine ⟨[_], [], rfl, ?_⟩
    simp only [List.singleton_append, List.forall_mem_cons]
    exact ⟨isType_mark _ rfl, List.forall_mem_nil _⟩
  have hdeclaration : ∀ c ∈ declaration.children, IsType c.green := by
    simp only [declaration, declarationGreen, Spot.children, branch, Spot.row_cons, Spot.row_nil,
      List.forall_mem_cons]
    exact ⟨rfl, isType_mark _ rfl, writeType_isType typeText _, List.forall_mem_nil _⟩
  have hbehind : Wraps behind asserted := by
    refine ⟨[], [_], rfl, ?_⟩
    simp only [List.nil_append, List.forall_mem_cons]
    exact ⟨isType_mark _ rfl, List.forall_mem_nil _⟩
  have hbefore : 2 + declarationGreen.sizeBelow < 0 + (declarationTree name typeText).size := by
    simp only [declarationTree, declarationGreen, branch, Green.sizeBelow, Green.size_node,
      Green.sizeAll_cons, Green.sizeAll_nil, size_mark, type]
    omega
  refine ⟨declaration, _, _, asserted, ⟨statement, list, behind, _,
    (Spot.children_of_node hwhole).trans rfl, congrArg Green.kind hwhole, hstatement, rfl, hlist, rfl,
    hdeclaration, rfl, hbehind, rfl, ⟨_, rfl⟩, heof⟩, ⟨_, rfl⟩, rfl, rfl, ⟨_, rfl⟩, hbefore,
    (Nat.zero_add _).trans rfl⟩

theorem length_assertions_chain :
    (assertions (wholeSpot (chain inFront name typeText n))).length = n := by
  obtain ⟨declaration, ident, annotation, asserted, hparts⟩ :=
    exists_chainParts inFront name typeText n
  obtain ⟨statement, list, behind, last, hframe⟩ := hparts.frame
  rw [hframe.assertions_eq, length_assertions hframe.chained]

/-- Of the file of a chain without some of its assertions a shorter chain is left. -/
theorem without_chain {xs : List Spot} (hxs : xs.Nodup)
    (hsub : xs ⊆ assertions (wholeSpot (chain inFront name typeText n))) :
    without (xs.map Spot.number).contains (chain inFront name typeText n) =
      chain inFront name typeText (n - xs.length) := by
  obtain ⟨declaration, ident, annotation, asserted, hparts⟩ :=
    exists_chainParts inFront name typeText n
  obtain ⟨statement, list, behind, last, hframe⟩ := hparts.frame
  let all := assertions (wholeSpot (chain inFront name typeText n))
  have hnumbers : (all.map Spot.number).Nodup :=
    (wholeSpot _).nodup_map_number_all.sublist (List.filter_sublist.map _)
  have htaken := (Spot.filter_number_perm hnumbers hxs hsub).length_eq
  have hlength : all.length = n := length_assertions_chain
  have hsplit := all.length_eq_length_filter_add fun x => (xs.map Spot.number).contains x.number
  have hleft : (all.filter fun x => !(xs.map Spot.number).contains x.number).length =
      n - xs.length := by omega
  have hrewrite := rewrite_assertedName (xs.map Spot.number).contains hframe.chained
  rw [hparts.first, ← hframe.assertions_eq, hleft] at hrewrite
  simp only [without, changed, chain, Item.rewriteIn, Stmt.rewrite, Nat.zero_add, hrewrite]

end TypeLint.Program
