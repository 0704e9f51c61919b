import TypeLint.Proofs.Program.Cuts
import TypeLint.Proofs.Rules.Removals

namespace TypeLint.Rules

open Syntax Program Text Green Lexeme

/-- The fixes of a report cut lexemes out of a file. -/
def CutsOut (f : SourceFile) (report : Report) : Prop :=
  ∀ fix ∈ report.fixes, ∃ c : Cut f.lexemes, fix.edits = [c.edit f.fileName] ∧ c.Seamed

/-- The last token behind some others and a tree is that of the tree. -/
theorem kind_of_mem_getLast? {g : Green} (h : g.Every Solid) {before : List Lexeme} :
    ∀ a ∈ (before ++ g.lexemes).getLast?, a.kind = g.lastKind := by
  obtain ⟨front, a, hlexemes, hkind⟩ := exists_lexemes_eq_concat g h
  rw [hlexemes, ← List.append_assoc, List.getLast?_concat]
  rintro _ ⟨⟩
  exact hkind

/-- The lexeme that leads others, with the trivia that is put in front of it. -/
theorem exists_of_mem_head?_led {trivia : String} {as : List Lexeme} :
    ∀ b ∈ (led trivia as).head?, ∃ b' ∈ as.head?, b.lead = trivia ++ b'.lead ∧ b.kind = b'.kind := by
  cases as with
  | nil => simp [led]
  | cons a as =>
    rintro _ ⟨⟩
    exact ⟨a, rfl, rfl, rfl⟩

theorem isToken_of_isRewritable {kind : Kind} (h : Syntax.isRewritable kind = true) :
    kind.isToken = false := by
  unfold Syntax.isRewritable at h
  split at h <;> first | rfl | cases h

section

variable {p : TypeLint.Program} {f : SourceFile} {x : Spot} (hp : Disciplined p)
  (hc : Conventional p) (hf : Shown p f) (hx : x ∈ (wholeSpot p).all)

include hp hc hx in
/-- A node that something may be taken out of has one of the shapes for it, its children fit, and
    it stands between lexemes. -/
theorem exists_site {kind : Kind} (hkind : x.green.kind = kind)
    (hrewritable : Syntax.isRewritable kind = true) :
    ∃ flags payload gs labels before behind, x.green = .node kind flags payload gs labels ∧
      Shape kind payload gs ∧ OperandFits kind gs ∧ EveryIn Solid gs ∧
        Surrounds (wholeSpot p) x before behind := by
  subst hkind
  have hformed : Formed (wholeSpot p).green := closed_formed hp _
  have hfitting : (wholeSpot p).green.Every Fitting := whole_fitting hc
  obtain ⟨before, behind, hsurrounds⟩ := exists_surrounds hformed hfitting hx
  obtain ⟨flags, payload, gs, labels, hgreen⟩ :=
    (hasForm_of_mem_wholeSpot hp hx).exists_node (isToken_of_isRewritable hrewritable)
  have hform := (hformed.of_mem_all hx).self
  have hoperand := (hfitting.of_mem_all hx).self
  have hsolid := solid_of_formed (hformed.of_mem_all hx)
  rw [hgreen] at hform hoperand hsolid
  exact ⟨flags, payload, gs, labels, before, behind, hgreen, Form.shape hform hrewritable,
    hoperand.2, hsolid.2, hsurrounds⟩

include hp hf in
/-- Children that are cut out of a node, and the edit that does it. -/
theorem exists_cut {before behind : List Lexeme} (hsurrounds : Surrounds (wholeSpot p) x before behind)
    {kind : Kind} {flags : Nat} {payload : Payload} (front : List Green) (head : Green)
    (others after : List Green) {labels : List String}
    (hx : x.green = .node kind flags payload (front ++ (head :: others ++ after)) labels)
    (hsolid : head.Every Solid) (kept dropped : String) (hlead : head.lead = kept ++ dropped)
    (pointed : Bool) (hne : lexemesAll after ++ behind ≠ []) :
    ∃ c : Cut f.lexemes, c.front = before ++ lexemesAll front ∧ c.kept = kept ∧
      c.behind = lexemesAll after ++ behind ∧ c.pointed = pointed ∧
      c.edit f.fileName = Spot.cutEdit f.fileName x.offset front (head :: others) kept
        (if pointed then "." else "") := by
  obtain ⟨first, rest, hfirst, hfirstLead, -⟩ := exists_lexemes_eq_cons head hsolid
  have hlexemes : f.lexemes = before ++ lexemesAll front ++
      (first :: (rest ++ lexemesAll others) ++ (lexemesAll after ++ behind)) := by
    rw [hf.lexemes_eq hp]
    refine hsurrounds.lexemes.trans ?_
    rw [hx, lexemes, lexemesAll_append, List.cons_append, lexemesAll, lexemesAll_append, hfirst]
    simp only [List.append_assoc, List.cons_append]
  refine ⟨⟨_, first, rest ++ lexemesAll others, _, kept, dropped, pointed, hlexemes,
    hfirstLead.trans hlead, hne⟩, rfl, rfl, rfl, rfl, ?_⟩
  have hcut : first :: (rest ++ lexemesAll others) = lexemesAll (head :: others) := by
    rw [lexemesAll, hfirst, List.cons_append]
  have hoffset : x.offset = byteLength (spelled before) := by
    rw [hsurrounds.offset]
    exact Nat.zero_add _
  rw [Cut.edit, Spot.cutEdit, hcut, spelled_append, spelled_lexemesAll, spelled_lexemesAll,
    byteLength_append, hoffset]

omit hp hc hf hx in
/-- Behind the operand of a step or assertion stands what may stand behind an expression. -/
theorem seamed_of_operand {c : Cut f.lexemes} {before : List Lexeme} {operand : Green}
    (hfront : c.front = before ++ lexemesAll [operand]) (hsolid : operand.Every Solid)
    (hends : operand.lastKind.ends = true)
    (hcloses : ∀ b ∈ (if c.pointed then point :: c.behind else c.behind).head?,
      b.lead = "" → b.kind.closes = true)
    (hnamed : c.pointed = true → ∀ name ∈ c.behind.head?, name.kind = .identifier) : c.Seamed := by
  refine ⟨fun a ha b hb hlead => .inl ⟨?_, ?_⟩, hnamed⟩
  · rw [hfront, lexemesAll_singleton] at ha
    rw [kind_of_mem_getLast? hsolid a ha, hends]
  · obtain ⟨b', hb', hlead', hkind⟩ := exists_of_mem_head?_led b hb
    rw [hkind]
    exact hcloses b' hb' (String.append_eq_empty_iff.mp (hlead'.symm.trans hlead)).2

omit hp hc hf hx in
theorem behind_ne_nil {before behind : List Lexeme} (h : Surrounds (wholeSpot p) x before behind)
    (hstops : x.green.lastKind.stops = false) : behind ≠ [] := by
  intro hnil
  have hlast : x.green.lastKind = .endOfFileToken := (h.last hnil).trans (lastKind_whole p)
  rw [hlast] at hstops
  cases hstops

include hp hf in
/-- What stands behind the operand of an assertion is cut out up to its end. -/
theorem exists_cut_of_suffix {before behind : List Lexeme}
    (hsurrounds : Surrounds (wholeSpot p) x before behind) {kind : Kind} {flags : Nat}
    {payload : Payload} {operand head : Green} {others : List Green} {labels : List String}
    (hgreen : x.green = .node kind flags payload (operand :: head :: others) labels)
    (hsolid : EveryIn Solid (operand :: head :: others)) (hends : operand.lastKind.ends = true)
    (hstops : x.green.lastKind.stops = false) {kept dropped : String}
    (hlead : head.lead = kept ++ dropped) :
    ∃ c : Cut f.lexemes, c.edit f.fileName =
      Spot.cutEdit f.fileName x.offset [operand] (head :: others) kept "" ∧ c.Seamed := by
  have hleaf : x.green.isLeaf = false := by rw [hgreen]; rfl
  obtain ⟨c, hfront, -, hbehind, hpointed, hcut⟩ := exists_cut hp hf hsurrounds [operand] head
    others [] (by rw [hgreen, List.append_nil]; rfl) hsolid.2.1 kept dropped hlead false
    (behind_ne_nil hsurrounds hstops)
  refine ⟨c, hcut, seamed_of_operand hfront hsolid.1 hends ?_ ?_⟩
  · rw [hpointed, hbehind]
    exact hsurrounds.closes hleaf hstops
  · rw [hpointed]
    rintro ⟨⟩

include hp hc hf hx

/-- The exclamation mark of a non-null assertion is cut out. -/
theorem nonNull_cutsOut (hkind : x.green.kind = .nonNullExpression) {messageId description : String}
    {reports : List Report}
    (hreports : ExtraNonNullAssertion.reports f x.ref messageId description = .ok reports) :
    ∀ report ∈ reports, CutsOut f report := by
  obtain ⟨flags, payload, gs, labels, before, behind, hgreen, hshape, hoperand, hsolid,
    hsurrounds⟩ := exists_site hp hc hx hkind rfl
  cases hshape with
  | nonNull inner lead =>
    obtain ⟨c, hcut, hseamed⟩ := exists_cut_of_suffix hp hf hsurrounds hgreen hsolid
      (hoperand inner rfl) (by rw [hgreen]; rfl) (String.append_empty (s := lead)).symm
    obtain rfl := Except.ok.inj ((nonNull_reports_eq hf hx hgreen _ _).symm.trans hreports)
    exact List.forall_mem_singleton.mpr (List.forall_mem_singleton.mpr
      ⟨c, congrArg (fun e => [e]) hcut.symm, hseamed⟩)

/-- What follows the operand of a type assertion is cut out, without the comments in front of the
    keyword. -/
theorem asType_cutsOut (hkind : x.green.kind = .asExpression) {a : Assertion}
    (ha : x.node.assertion? = some a) {edit : TextEdit}
    (hedit : TypeAssertion.removal f x.ref .asExpression a = .ok edit) :
    CutsOut f (TypeAssertion.report f x.ref edit) := by
  obtain ⟨flags, payload, gs, labels, before, behind, hgreen, hshape, hoperand, hsolid,
    hsurrounds⟩ := exists_site hp hc hx hkind rfl
  cases hshape with
  | asType inner type lead htype =>
    obtain ⟨kept, dropped, hlead, -, hremoval⟩ := exists_removal_asType hf hx hgreen ha
    obtain ⟨c, hcut, hseamed⟩ := exists_cut_of_suffix hp hf hsurrounds hgreen hsolid
      (hoperand.1 inner rfl) (by rw [hgreen]; exact hoperand.2 type rfl) hlead
    obtain rfl := Except.ok.inj (hremoval.symm.trans hedit)
    exact List.forall_mem_singleton.mpr ⟨c, congrArg (fun e => [e]) hcut.symm, hseamed⟩

/-- The brackets of a type assertion are cut out with the type, and the trivia in front of them
    stays. -/
theorem typeAssertion_cutsOut (hkind : x.green.kind = .typeAssertionExpression) {a : Assertion}
    (ha : x.node.assertion? = some a) {edit : TextEdit}
    (hedit : TypeAssertion.removal f x.ref .typeAssertionExpression a = .ok edit) :
    CutsOut f (TypeAssertion.report f x.ref edit) := by
  obtain ⟨flags, payload, gs, labels, before, behind, hgreen, hshape, hoperand, hsolid,
    hsurrounds⟩ := exists_site hp hc hx hkind rfl
  obtain ⟨e, he, hremoval⟩ := removal_typeAssertion hp hf hx hgreen ha
  obtain rfl : e = edit := Except.ok.inj (he.symm.trans hedit)
  cases hshape with
  | typeAssertion type inner lead lead' htype =>
    obtain ⟨first, rest, hinner, -, hfirst⟩ := exists_lexemes_eq_cons inner hsolid.2.2.2.1
    have hafter : lexemesAll [inner] ++ behind = first :: (rest ++ behind) := by
      rw [lexemesAll_singleton, hinner, List.cons_append]
    obtain ⟨c, hfront, hkept, hbehind, hpointed, hcut⟩ := exists_cut hp hf hsurrounds []
      (mark lead .lessThanToken) [type, mark lead' .greaterThanToken] [inner] hgreen trivial lead ""
      String.append_empty.symm false (hafter ▸ List.cons_ne_nil _ _)
    rw [hafter] at hbehind
    have hseamed : c.Seamed := by
      refine ⟨fun a ha b hb hlead => .inr ?_, by rw [hpointed]; rintro ⟨⟩⟩
      rw [hfront, lexemesAll, List.append_nil] at ha
      rw [Cut.rest, hpointed, hbehind, hkept] at hb
      cases hb
      have hempty : x.green.lead = "" := by
        rw [hgreen]
        exact (String.append_eq_empty_iff.mp hlead).1
      refine ⟨hsurrounds.opens (by rw [hgreen]; rfl) hempty a ha, ?_⟩
      exact (congrArg Kind.starts hfirst).trans (hoperand inner rfl)
    rw [hgreen] at hremoval
    refine List.forall_mem_singleton.mpr ⟨c, ?_, hseamed⟩
    rw [hcut]
    exact congrArg (fun e => [e]) (Option.some.inj hremoval).symm

omit hc in
/-- The `?.` behind a receiver is cut out, or a point is put in its place. -/
theorem questionDot_cut {before behind : List Lexeme}
    (hsurrounds : Surrounds (wholeSpot p) x before behind) {kind : Kind} {flags : Nat}
    {payload : Payload} {inner : Green} {lead : String} {after : List Green} {labels : List String}
    (hgreen : x.green =
      .node kind flags payload (inner :: mark lead .questionDotToken :: after) labels)
    (hsolid : EveryIn Solid (inner :: mark lead .questionDotToken :: after))
    (hends : inner.lastKind.ends = true) (hne : after ≠ []) (pointed : Bool)
    (hnext : if pointed then firstKindAll after = .identifier
      else (firstKindAll after).closes = true) {token : NodeRef}
    (htoken : f.tree.tokenAfter? (Spot.mk x.first x.offset x.ref inner).ref
      (fun n => n.kind == .questionDotToken) = some token) :
    ∃ c : Cut f.lexemes, f.replace token (if pointed then "." else "") = c.edit f.fileName ∧
      c.Seamed := by
  obtain ⟨next, others, hafter, -, hkind⟩ := exists_lexemesAll_eq_cons after hsolid.2.2 hne
  obtain ⟨c, hfront, -, hbehind, hpointed, hcut⟩ := exists_cut hp hf hsurrounds [inner]
    (mark lead .questionDotToken) [] after hgreen trivial lead "" String.append_empty.symm pointed
    (by rw [hafter]; exact List.cons_ne_nil _ _)
  obtain ⟨hfound, hedit⟩ := questionDot_found hf hx (if pointed then "." else "") hgreen rfl
  obtain rfl := Option.some.inj (hfound.symm.trans htoken)
  refine ⟨c, (hcut.trans hedit).symm, seamed_of_operand hfront hsolid.1 hends ?_ ?_⟩
  · rw [hbehind, hafter, hpointed]
    cases pointed with
    | false =>
      rintro _ ⟨⟩ -
      exact (congrArg Kind.closes hkind).trans hnext
    | true =>
      rintro _ ⟨⟩ -
      rfl
  · rw [hbehind, hafter, hpointed]
    rintro rfl _ ⟨⟩
    exact hkind.trans hnext

/-- The `?.` of an optional step is cut out, and in a property access a point is put in its
    place. -/
theorem optionalChain_cutsOut
    (hkind : x.green.kind ∈ [Kind.propertyAccessExpression, .elementAccessExpression,
      .callExpression]) {receiver token : NodeRef}
    (hlink : MemberNullability.chainLink? f.tree x.ref = some (receiver, true))
    (htoken : f.tree.tokenAfter? receiver (fun n => n.kind == .questionDotToken) = some token) :
    CutsOut f (OptionalChain.report f x.ref token) := by
  have hstep : OptionalChain.plainStep (f.tree.kind? x.ref) =
      if x.green.kind = .propertyAccessExpression then "." else "" := by
    rw [hf.shows.kind?_eq hx, OptionalChain.plainStep]
    exact if_congr Option.some_inj rfl rfl
  have hreport (pointed : Bool)
      (hplain : OptionalChain.plainStep (f.tree.kind? x.ref) = if pointed then "." else "")
      (hcut : ∃ c : Cut f.lexemes,
        f.replace token (if pointed then "." else "") = c.edit f.fileName ∧ c.Seamed) :
      CutsOut f (OptionalChain.report f x.ref token) := by
    obtain ⟨c, hedit, hseamed⟩ := hcut
    refine List.forall_mem_singleton.mpr ⟨c, ?_, hseamed⟩
    rw [← hedit, ← hplain]
  have hrewritable : Syntax.isRewritable x.green.kind = true := by
    have hall : ∀ kind ∈ [Kind.propertyAccessExpression, .elementAccessExpression,
        .callExpression], Syntax.isRewritable kind = true := by decide
    exact hall _ hkind
  obtain ⟨flags, payload, gs, labels, before, behind, hgreen, hshape, hoperand, hsolid,
    hsurrounds⟩ := exists_site hp hc hx rfl hrewritable
  rw [MemberNullability.chainLink?, hf.shows.get?_eq hx] at hlink
  obtain ⟨first, offset, parent, green⟩ := x
  dsimp only at hgreen hshape hoperand hkind hstep
  generalize green.kind = kind at hgreen hshape hoperand hkind hstep
  subst hgreen
  cases hshape with
  | property inner name optional lead =>
    cases optional <;> cases hlink
    exact hreport true hstep (questionDot_cut hp hf hx hsurrounds rfl hsolid
      (hoperand.1 inner rfl) (List.cons_ne_nil _ _) true (hoperand.2 name rfl) htoken)
  | element inner argument closing optional lead lead' =>
    cases optional <;> cases hlink
    exact hreport false hstep (questionDot_cut hp hf hx hsurrounds rfl hsolid
      (hoperand inner rfl) (List.cons_ne_nil _ _) false rfl htoken)
  | call inner closing items optional lead lead' =>
    cases optional <;> cases hlink
    exact hreport false hstep (questionDot_cut hp hf hx hsurrounds rfl hsolid
      (hoperand inner rfl) (List.cons_ne_nil _ _) false rfl htoken)
  | _ => simp at hkind

end

end TypeLint.Rules
