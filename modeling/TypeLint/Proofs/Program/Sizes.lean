import TypeLint.Proofs.Program.Change
import TypeLint.Proofs.Program.Formed

namespace TypeLint.Program

open Syntax Writer Green

theorem size_withLabel (g : Green) (label : String) : (g.withLabel label).size = g.size := by
  cases g <;> rfl

theorem sizeAll_map_withLabel (gs : List Green) (label : String) :
    sizeAll (gs.map (Green.withLabel label)) = sizeAll gs := by
  induction gs with
  | nil => rfl
  | cons g gs ih => simp only [List.map_cons, sizeAll_cons, size_withLabel, ih]

theorem size_token (lead : String) (kind : Kind) (text : String) (payload : Payload)
    (labels : List String) : (Green.token lead kind text payload labels).size = 1 := rfl

theorem size_mark (lead : String) (kind : Kind) : (mark lead kind).size = 1 := rfl

theorem sizeAll_questionDots (lead : String) (optional : Bool) :
    sizeAll (questionDots lead optional) = questionDotSize optional := by
  cases optional <;> rfl

/-- The number of nodes that a type that has been read is written as. -/
def TypeText.size (t : TypeText) : Nat := (t.write.run .start).1.size

/-- The number of nodes that the parts of a composite type are written as. -/
def TypeText.sizeIn (separator : Kind) (parts : List TypeText) : Nat :=
  sizeAll ((TypeText.writeParts separator parts).run .start).1

mutual

theorem TypeText.size_write (t : TypeText) (l : Layout) : (t.write.run l).1.size = t.size := by
  unfold TypeText.size
  cases t with
  | keyword kind text => rfl
  | literal kind text value =>
    simp only [TypeText.write, run_literalType, branch, size_node, sizeAll_cons, size_token]
  | name text => rfl
  | array element =>
    simp only [TypeText.write, run_bind, run_pure, run_token, branch, size_node, sizeAll_cons,
      size_mark, TypeText.size_write element]
  | union parts =>
    simp only [TypeText.write, run_bind, run_pure, branch, size_node,
      TypeText.sizeAll_writeParts _ parts]
  | intersection parts =>
    simp only [TypeText.write, run_bind, run_pure, branch, size_node,
      TypeText.sizeAll_writeParts _ parts]

theorem TypeText.sizeAll_writeParts (separator : Kind) (parts : List TypeText) (l : Layout) :
    sizeAll ((TypeText.writeParts separator parts).run l).1 =
      TypeText.sizeIn separator parts := by
  unfold TypeText.sizeIn
  match parts with
  | [] => rfl
  | [part] =>
    simp only [TypeText.writeParts, run_bind, run_pure, sizeAll_cons, TypeText.size_write part]
  | part :: next :: rest =>
    simp only [TypeText.writeParts, run_bind, run_pure, run_token, run_space, sizeAll_cons,
      size_mark, TypeText.size_write part, TypeText.sizeAll_writeParts separator (next :: rest)]

end

theorem size_writeType (text : String) (l : Layout) :
    ((writeType text).run l).1.size = typeSize text :=
  (TypeText.size_write _ _).trans (TypeText.size_write _ _).symm

theorem sizeAll_writeDeclaredType (typeText : Option String) (l : Layout) :
    sizeAll ((writeDeclaredType typeText).run l).1 = annotationSize typeText := by
  unfold annotationSize
  cases typeText with
  | none => rfl
  | some text =>
    simp only [writeDeclaredType, run_bind, run_pure, run_token, run_space, sizeAll_cons, size_mark,
      size_writeType]

theorem sizeAll_writeParameters (names : List String) (l l' : Layout) :
    sizeAll ((writeParameters names).run l).1 = sizeAll ((writeParameters names).run l').1 := by
  induction names generalizing l l' with
  | nil => rfl
  | cons name rest ih =>
    cases rest with
    | nil => rfl
    | cons next rest =>
      exact congrArg (2 + ·) (congrArg (1 + ·) (ih _ _))

theorem sizeAll_writeParameterList (names : List String) (l : Layout) :
    sizeAll ((writeParameterList names).run l).1 = parametersSize names := by
  unfold parametersSize
  simp only [writeParameterList, run_bind, run_pure, run_token, sizeAll_cons, List.cons_append,
    sizeAll_append, size_mark, sizeAll_nil]
  rw [sizeAll_writeParameters names _ (Layout.start.behind "(")]
  rfl

theorem sizeAll_writeSpans (spans : List (String × String)) (l l' : Layout) :
    sizeAll ((writeSpans spans).run l).1 = sizeAll ((writeSpans spans).run l').1 := by
  induction spans generalizing l l' with
  | nil => rfl
  | cons span rest ih =>
    obtain ⟨name, text⟩ := span
    cases rest with
    | nil => rfl
    | cons next rest => exact congrArg (3 + ·) (ih _ _)

theorem size_functionNode (kind : Kind) (offset : Nat) (parameters before after : List Green) :
    (functionNode kind offset parameters before after).size =
      sizeAll before + sizeAll parameters + sizeAll after + 1 := by
  simp only [functionNode, branch, size_node, sizeAll_append]

theorem size_chainNode (kind : Kind) (optional : Bool) (receiver : Green) (payload : Payload)
    (rest : List Green) :
    (chainNode kind optional receiver payload rest).size = receiver.size + sizeAll rest + 1 := by
  simp only [chainNode, size_node, sizeAll_cons]

theorem size_braced (isEmpty : Bool) {contents : Writer (List Green)} {count : Nat}
    (h : ∀ l, sizeAll (contents.run l).1 = count) (l : Layout) :
    sizeAll ((braced isEmpty contents).run l).1 = count + 2 := by
  simp only [run_braced, List.cons_append, sizeAll_cons, sizeAll_append, size_mark, sizeAll_nil, h]
  omega

theorem size_writeBlock (isEmpty : Bool) {statements : Writer (List Green)} {count : Nat}
    (h : ∀ l, sizeAll (statements.run l).1 = count) (l : Layout) :
    ((writeBlock isEmpty statements).run l).1.size = count + 3 := by
  simp only [writeBlock, run_bind, run_pure, branch, size_node, size_braced isEmpty h]

theorem sizeAll_writeDeclare (isDeclare : Bool) (l : Layout) :
    sizeAll ((writeDeclare isDeclare).run l).1 = if isDeclare then 1 else 0 := by
  cases isDeclare <;> rfl

theorem sizeAll_writeDefinite (definite : Bool) (l : Layout) :
    sizeAll ((writeDefinite definite).run l).1 = if definite then 1 else 0 := by
  cases definite <;> rfl

theorem size_writeVariable {isDeclare : Bool} {kind : VariableKind} {name : String}
    {definite : Bool} {typeText : Option String} {initializer : Writer (List Green)} (count : Nat)
    (h : ∀ l, sizeAll (initializer.run l).1 = count) (l l' : Layout) :
    ((writeVariable isDeclare kind name definite typeText initializer).run l).1.size =
      ((writeVariable isDeclare kind name definite typeText initializer).run l').1.size := by
  simp only [writeVariable_eq, run_bind, run_pure, run_token, run_space, run_beginStatement,
    run_identifier, variableNode, branch, size_node, sizeAll_cons, sizeAll_append, size_mark,
    size_token, sizeAll_writeDeclare, sizeAll_writeDefinite, sizeAll_writeDeclaredType, h]

mutual

theorem Expr.size_write (e : Expr) (l : Layout) : (e.write.run l).1.size = e.size := by
  unfold Expr.size
  cases e with
  | substitution head spans =>
    simp only [Expr.write, run_bind, run_pure, run_literal, branch, size_node, sizeAll_cons,
      size_token]
    rw [sizeAll_writeSpans spans _ (Layout.start.behind ("\x60" ++ head ++ "$\x7b"))]
  | paren e =>
    simp only [Expr.write, run_bind, run_pure, run_token, branch, size_node, sizeAll_cons,
      size_mark, Expr.size_write e]
  | binary left operator right =>
    simp only [Expr.write, run_bind, run_pure, run_token, run_space, branch, size_node,
      sizeAll_cons, size_mark, Expr.size_write left, Expr.size_write right]
  | prefixed operator e =>
    simp only [run_prefixed, branch, size_node, sizeAll_cons, size_mark, Expr.size_write e]
  | postfixed e operator =>
    simp only [Expr.write, run_bind, run_pure, run_token, branch, size_node, sizeAll_cons,
      size_mark, Expr.size_write e]
  | nonNull e =>
    simp only [Expr.write, run_bind, run_pure, run_token, size_chainNode, sizeAll_cons,
      size_mark, Expr.size_write e]
  | property e optional name =>
    simp only [Expr.write, run_bind, run_pure, run_token, run_identifier, size_chainNode,
      sizeAll_cons, size_mark, size_token, Expr.size_write e]
  | element e optional argument =>
    simp only [Expr.write, run_bind, run_pure, run_token, run_writeQuestionDot, size_chainNode,
      sizeAll_append, sizeAll_questionDots, sizeAll_cons, size_mark, Expr.size_write e,
      Expr.size_write argument]
  | call callee optional arguments =>
    simp only [Expr.write, run_bind, run_pure, run_token, run_writeQuestionDot, size_chainNode,
      sizeAll_append, sizeAll_questionDots, sizeAll_cons, size_mark, Expr.size_write callee,
      Expr.sizeAll_writeList arguments]
  | conditional condition whenTrue whenFalse =>
    simp only [Expr.write, run_bind, run_pure, run_token, run_space, branch, size_node,
      sizeAll_cons, size_mark, Expr.size_write condition, Expr.size_write whenTrue,
      Expr.size_write whenFalse]
  | asType e typeText =>
    simp only [Expr.write, writeAssertion, run_bind, run_pure, run_token, run_space, branch,
      size_node, sizeAll_cons, size_mark, Expr.size_write e, size_writeType]
  | satisfiesType e typeText =>
    simp only [Expr.write, writeAssertion, run_bind, run_pure, run_token, run_space, branch,
      size_node, sizeAll_cons, size_mark, Expr.size_write e, size_writeType]
  | typeAssertion typeText e =>
    simp only [Expr.write, run_bind, run_pure, run_token, branch, size_node, sizeAll_cons,
      size_mark, Expr.size_write e, size_writeType]
  | arrow parameters body =>
    simp only [Expr.write, run_bind, run_pure, run_token, run_space, size_functionNode,
      sizeAll_cons, size_mark, sizeAll_writeParameterList, Expr.size_write body]
  | arrowBlock parameters body =>
    have hbody := size_writeBlock body.isEmpty (Item.sizeAll_writeList body)
    simp only [Expr.write, run_bind, run_pure, run_token, run_space, size_functionNode,
      sizeAll_cons, size_mark, sizeAll_writeParameterList, hbody]
  | function parameters body =>
    have hbody := size_writeBlock body.isEmpty (Item.sizeAll_writeList body)
    simp only [Expr.write, run_bind, run_pure, run_token, run_space, size_functionNode,
      sizeAll_cons, size_mark, sizeAll_writeParameterList, hbody]
  | array items =>
    simp only [Expr.write, run_bind, run_pure, run_token, branch, size_node, sizeAll_cons,
      sizeAll_append, List.cons_append, size_mark, Expr.sizeAll_writeList items]
  | commentBefore text e =>
    simp only [Expr.write, run_bind, run_comment, Expr.size_write e]
  | commentAfter e text =>
    simp only [Expr.write, run_bind, run_pure, run_comment, Expr.size_write e]
  | emptyCall callee optional text =>
    simp only [Expr.write, run_bind, run_pure, run_token, run_comment, run_writeQuestionDot,
      size_chainNode, sizeAll_append, sizeAll_questionDots, sizeAll_cons, size_mark,
      Expr.size_write callee]
  | typeNode text => simp only [Expr.write, size_writeType]
  | labeled label e =>
    simp only [Expr.write, run_bind, run_pure, size_withLabel, Expr.size_write e]
  | _ => rfl

theorem Expr.sizeAll_writeList (es : List Expr) (l : Layout) :
    sizeAll ((Expr.writeList es).run l).1 = Expr.sizeIn es := by
  unfold Expr.sizeIn
  match es with
  | [] => rfl
  | [e] =>
    simp only [Expr.writeList, run_bind, run_pure, sizeAll_cons, Expr.size_write e]
  | e :: next :: rest =>
    simp only [Expr.writeList, run_bind, run_pure, run_comma, sizeAll_cons, size_mark,
      Expr.size_write e, Expr.sizeAll_writeList (next :: rest)]

theorem Stmt.size_write (s : Stmt) (l : Layout) : (s.write.run l).1.size = s.size := by
  unfold Stmt.size
  match s with
  | .expression e =>
    simp only [Stmt.write, run_bind, run_pure, run_token, run_beginStatement, branch, size_node,
      sizeAll_cons, size_mark, Expr.size_write e]
  | .variable kind name typeText =>
    exact size_writeVariable _ (fun _ => rfl) _ _
  | .initialized kind name typeText initializer =>
    refine size_writeVariable (1 + (initializer.size + 0)) (fun l => ?_) _ _
    simp only [run_bind, run_pure, run_token, run_space, sizeAll_cons, size_mark,
      Expr.size_write initializer, sizeAll_nil]
  | .declared kind name typeText =>
    exact size_writeVariable _ (fun _ => rfl) _ _
  | .definite name typeText =>
    exact size_writeVariable _ (fun _ => rfl) _ _
  | .block body =>
    simp only [Stmt.write, run_bind, run_beginStatement,
      size_writeBlock body.isEmpty (Item.sizeAll_writeList body)]
  | .ifThen condition consequent =>
    simp only [Stmt.write, run_bind, run_pure, run_token, run_space, run_beginStatement,
      run_inlined, branch, size_node, sizeAll_cons, size_mark, Expr.size_write condition,
      Stmt.size_write consequent]
  | .ifElse condition consequent alternative =>
    simp only [Stmt.write, run_bind, run_pure, run_token, run_space, run_beginStatement,
      run_inlined, branch, size_node, sizeAll_cons, size_mark, Expr.size_write condition,
      Stmt.size_write consequent, Stmt.size_write alternative]
  | .whileLoop condition body =>
    simp only [Stmt.write, run_bind, run_pure, run_token, run_space, run_beginStatement,
      run_inlined, branch, size_node, sizeAll_cons, size_mark, Expr.size_write condition,
      Stmt.size_write body]
  | .doLoop body condition =>
    simp only [Stmt.write, run_bind, run_pure, run_token, run_space, run_beginStatement,
      run_inlined, branch, size_node, sizeAll_cons, size_mark, Expr.size_write condition,
      Stmt.size_write body]
  | .forever body =>
    simp only [Stmt.write, run_bind, run_pure, run_token, run_space, run_beginStatement,
      run_inlined, branch, size_node, sizeAll_cons, size_mark, Stmt.size_write body]
  | .forLoop condition body =>
    simp only [Stmt.write, run_bind, run_pure, run_token, run_space, run_beginStatement,
      run_inlined, branch, size_node, sizeAll_cons, size_mark, Expr.size_write condition,
      Stmt.size_write body]
  | .switch e clauses =>
    simp only [Stmt.write, run_bind, run_pure, run_token, run_space, run_beginStatement,
      branch, size_node, sizeAll_cons, size_mark, Expr.size_write e,
      size_braced clauses.isEmpty (Clause.sizeAll_writeList clauses)]
  | .breakOut => rfl
  | .returned e =>
    simp only [Stmt.write, run_bind, run_pure, run_token, run_space, run_beginStatement, branch,
      size_node, sizeAll_cons, size_mark, Expr.size_write e]
  | .thrown e =>
    simp only [Stmt.write, run_bind, run_pure, run_token, run_space, run_beginStatement, branch,
      size_node, sizeAll_cons, size_mark, Expr.size_write e]
  | .commentBefore text s =>
    simp only [Stmt.write, run_bind, run_comment, Stmt.size_write s]
  | .commentAfter s text =>
    simp only [Stmt.write, run_bind, run_pure, run_comment, Stmt.size_write s]
  | .labeled label s =>
    simp only [Stmt.write, run_bind, run_pure, size_withLabel, Stmt.size_write s]

theorem Item.sizeAll_writeList (items : List Item) (l : Layout) :
    sizeAll ((Item.writeList items).run l).1 = Item.sizeIn items := by
  unfold Item.sizeIn
  match items with
  | [] => rfl
  | .comment text :: rest =>
    simp only [Item.writeList, run_bind, run_comment, Item.sizeAll_writeList rest]
  | .statement s :: rest =>
    simp only [Item.writeList, run_bind, run_pure, sizeAll_cons, Stmt.size_write s,
      Item.sizeAll_writeList rest]

theorem Clause.sizeAll_writeList (clauses : List Clause) (l : Layout) :
    sizeAll ((Clause.writeList clauses).run l).1 = Clause.sizeIn clauses := by
  unfold Clause.sizeIn
  match clauses with
  | [] => rfl
  | c :: rest =>
    simp only [Clause.writeList, run_bind, run_pure, sizeAll_append, Clause.sizeAll_write c,
      Clause.sizeAll_writeList rest]

theorem Clause.sizeAll_write (c : Clause) (l : Layout) :
    sizeAll (c.write.run l).1 = c.size := by
  unfold Clause.size
  match c with
  | .comment text => rfl
  | .caseOf e body =>
    simp only [Clause.write, run_bind, run_pure, run_token, run_space, run_beginStatement,
      run_indented, branch, size_node, sizeAll_cons, size_mark, sizeAll_nil, Expr.size_write e,
      Item.sizeAll_writeList body]
  | .default body =>
    simp only [Clause.write, run_bind, run_pure, run_token, run_beginStatement, run_indented,
      branch, size_node, sizeAll_cons, size_mark, sizeAll_nil, Item.sizeAll_writeList body]
  | .labeled label c =>
    simp only [Clause.write, run_bind, run_pure, sizeAll_map_withLabel, Clause.sizeAll_write c]

end

section

variable (e callee left right argument : Expr) (arguments : List Expr) (typeText : String)

theorem Expr.size_binary (operator : Kind) :
    (Expr.binary left operator right).size = left.size + 1 + right.size + 1 := by
  rw [← Expr.size_write _ .start]
  simp only [Expr.write, run_bind, run_pure, run_token, run_space, branch, size_node, sizeAll_cons,
    sizeAll_nil, size_mark, Expr.size_write]
  omega

theorem Expr.size_nonNull : (Expr.nonNull e).size = e.size + 2 := by
  rw [← Expr.size_write _ .start]
  simp only [Expr.write, run_bind, run_pure, run_token, size_chainNode, sizeAll_cons, sizeAll_nil,
    size_mark, Expr.size_write]

theorem Expr.size_property (optional : Bool) (name : String) :
    (Expr.property e optional name).size = e.size + 3 := by
  rw [← Expr.size_write _ .start]
  simp only [Expr.write, run_bind, run_pure, run_token, run_identifier, size_chainNode,
    sizeAll_cons, sizeAll_nil, size_mark, size_token, Expr.size_write]

theorem Expr.size_element (optional : Bool) :
    (Expr.element e optional argument).size =
      e.size + questionDotSize optional + 1 + argument.size + 2 := by
  rw [← Expr.size_write _ .start]
  simp only [Expr.write, run_bind, run_pure, run_token, run_writeQuestionDot, size_chainNode,
    sizeAll_append, sizeAll_questionDots, sizeAll_cons, sizeAll_nil, size_mark, Expr.size_write]
  omega

theorem Expr.size_call (optional : Bool) :
    (Expr.call callee optional arguments).size =
      callee.size + questionDotSize optional + 1 + Expr.sizeIn arguments + 2 := by
  rw [← Expr.size_write _ .start]
  simp only [Expr.write, run_bind, run_pure, run_token, run_writeQuestionDot, size_chainNode,
    sizeAll_append, sizeAll_questionDots, sizeAll_cons, sizeAll_nil, size_mark, Expr.size_write,
    Expr.sizeAll_writeList]
  omega

theorem Expr.size_asType : (Expr.asType e typeText).size = e.size + 1 + typeSize typeText + 1 := by
  rw [← Expr.size_write _ .start]
  simp only [Expr.write, writeAssertion, run_bind, run_pure, run_token, run_space, branch,
    size_node, sizeAll_cons, sizeAll_nil, size_mark, Expr.size_write, size_writeType]
  omega

theorem Expr.size_typeAssertion :
    (Expr.typeAssertion typeText e).size = 1 + typeSize typeText + 1 + e.size + 1 := by
  rw [← Expr.size_write _ .start]
  simp only [Expr.write, run_bind, run_pure, run_token, branch, size_node, sizeAll_cons,
    sizeAll_nil, size_mark, Expr.size_write, size_writeType]
  omega

end

end TypeLint.Program
