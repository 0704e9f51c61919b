import TypeLint.Proofs.Program.MemberChains
import TypeLint.Proofs.Program.Operands
import TypeLint.Proofs.Syntax.TokenTexts

namespace TypeLint.Program

open Syntax Writer Green

/-- The contents of a name or a literal. -/
def value? (n : Node) : Option String := n.identifier?.or n.literal?

/-- The node is the leaf of a chain. -/
def Leaf.IsAt (n : Node) : Leaf → Prop
  | .word kind _ => n.kind = kind
  | .valued kind _ value => n.kind = kind ∧ value? n = some value

/-- The node above belongs to a type. -/
def InType (t : Tree) (r : NodeRef) : Prop :=
  ∃ kind, t.kind? (t.parent r) = some kind ∧ isTypePart kind = true

/-- The node is a chain of member accesses. A string literal of a type has to be spelled as one of
    an expression is. -/
inductive Reads (f : SourceFile) : NodeRef → Chain → Prop
  | leaf {r : NodeRef} {n : Node} {l : Leaf} (hn : f.tree.get? r = some n) (h : l.IsAt n)
    (hspelled : InType f.tree r → n.kind = .stringLiteral → f.nodeText r = l.token.2) :
    Reads f r (.leaf l)
  | property {r : NodeRef} {n : Node} {a : Access} {receiver : Chain}
    (hn : f.tree.get? r = some n) (hkind : n.kind = .propertyAccessExpression)
    (ha : n.access? = some a) (hreceiver : Reads f a.expression receiver) :
    Reads f r (.property receiver a.questionDot.isSome
      ((f.tree.identifierText? a.nameOrArgument).getD ""))
  | element {r : NodeRef} {n : Node} {a : Access} {receiver index : Chain}
    (hn : f.tree.get? r = some n) (hkind : n.kind = .elementAccessExpression)
    (ha : n.access? = some a) (hreceiver : Reads f a.expression receiver)
    (hindex : Reads f a.nameOrArgument index) :
    Reads f r (.element receiver a.questionDot.isSome index)

variable {p : TypeLint.Program} {f : SourceFile} {x y : Spot} {r : NodeRef} {n : Node} {a : Access}

theorem payload?_of_access? (h : n.access? = some a) : n.payload? = some (.access a) := by
  rw [Node.access?] at h
  split at h
  · next hpayload => rw [hpayload, Option.some.inj h]
  · cases h

/-- A property access: a receiver, a dot and a name. -/
structure IsProperty (x : Spot) (a : Access) (receiver dot name : Spot) : Prop where
  node : x.green.isLeaf = false
  children : x.children = [receiver, dot, name]
  expression : a.expression = receiver.ref
  nameOrArgument : a.nameOrArgument = name.ref
  dot : ∃ lead, dot.green =
    mark lead (if a.questionDot.isSome then .questionDotToken else .dotToken)
  name : IsName name.green

/-- An element access: a receiver, perhaps `?.`, and an index in brackets. -/
structure IsElement (x : Spot) (a : Access) (receiver : Spot) (question : List Spot)
    (opening index closing : Spot) : Prop where
  node : x.green.isLeaf = false
  children : x.children = receiver :: (question ++ [opening, index, closing])
  expression : a.expression = receiver.ref
  nameOrArgument : a.nameOrArgument = index.ref
  question : ∃ lead, question.map Spot.green = questionDots lead a.questionDot.isSome
  opening : ∃ lead, opening.green = mark lead .openBracketToken
  closing : ∃ lead, closing.green = mark lead .closeBracketToken

namespace Shown

theorem exists_property (hf : Shown p f) (hn : f.tree.get? r = some n)
    (hkind : n.kind = .propertyAccessExpression) (ha : n.access? = some a) :
    ∃ x ∈ (wholeSpot p).all, r = x.ref ∧ ∃ receiver dot name, IsProperty x a receiver dot name := by
  obtain ⟨x, hx, rfl, rfl, flags, links, gs, labels, hgreen, hform, hlinks⟩ :=
    hf.exists_form hn (payload?_of_access? ha) rfl
  rw [hkind] at hgreen hform
  refine ⟨x, hx, rfl, ?_⟩
  cases hform with
  | compositeType kind h | prefixed kind h | block kind h | jump kind h =>
    rcases h with h | h <;> cases h
  | property receiver name optional lead hname =>
    rw [Spot.children_of_node hgreen] at hlinks
    cases optional
    · cases hlinks
      exact ⟨_, _, _, by rw [hgreen]; rfl, Spot.children_of_node hgreen, rfl, rfl, ⟨lead, rfl⟩,
        hname⟩
    · cases hlinks
      exact ⟨_, _, _, by rw [hgreen]; rfl, Spot.children_of_node hgreen, rfl, rfl, ⟨lead, rfl⟩,
        hname⟩

theorem exists_element (hf : Shown p f) (hn : f.tree.get? r = some n)
    (hkind : n.kind = .elementAccessExpression) (ha : n.access? = some a) :
    ∃ x ∈ (wholeSpot p).all, r = x.ref ∧
      ∃ receiver question opening index closing,
        IsElement x a receiver question opening index closing := by
  obtain ⟨x, hx, rfl, rfl, flags, links, gs, labels, hgreen, hform, hlinks⟩ :=
    hf.exists_form hn (payload?_of_access? ha) rfl
  rw [hkind] at hgreen hform
  refine ⟨x, hx, rfl, ?_⟩
  cases hform with
  | compositeType kind h | prefixed kind h | block kind h | jump kind h =>
    rcases h with h | h <;> cases h
  | element receiver argument optional lead lead' lead'' =>
    rw [Spot.children_of_node hgreen] at hlinks
    cases optional
    · cases hlinks
      exact ⟨_, [], _, _, _, by rw [hgreen]; rfl, Spot.children_of_node hgreen, rfl, rfl,
        ⟨lead, rfl⟩, ⟨lead', rfl⟩, ⟨lead'', rfl⟩⟩
    · cases hlinks
      exact ⟨_, [_], _, _, _, by rw [hgreen]; rfl, Spot.children_of_node hgreen, rfl, rfl,
        ⟨lead, rfl⟩, ⟨lead', rfl⟩, ⟨lead'', rfl⟩⟩

theorem tokenTexts_eq (hf : Shown p f) (hx : x ∈ (wholeSpot p).all) :
    f.tokenTexts x.ref = x.tokens.map fun y => f.tokenText y.ref := by
  rw [SourceFile.tokenTexts, hf.shows.tokens_eq hx, List.map_map]
  rfl

/-- The only token of a token is the token itself. -/
theorem tokenTexts_of_leaf (hf : Shown p f) (hx : x ∈ (wholeSpot p).all)
    (hleaf : x.green.isLeaf = true) (htoken : x.green.kind.isToken = true) :
    f.tokenTexts x.ref = [(some x.green.kind, x.green.body)] := by
  rw [hf.tokenTexts_eq hx, Spot.tokens_eq (htoken.trans hleaf.symm), if_pos hleaf,
    List.map_singleton, SourceFile.tokenText, hf.shows.kind?_eq hx, hf.nodeText_eq hx]

theorem tokenTexts_of_mark (hf : Shown p f) (hx : x ∈ (wholeSpot p).all) {lead : String}
    {kind : Kind} (hgreen : x.green = mark lead kind) (htoken : kind.isToken = true) :
    f.tokenTexts x.ref = [markText kind] := by
  rw [hf.tokenTexts_of_leaf hx (by rw [hgreen]; rfl) (by rw [hgreen]; exact htoken), hgreen]
  rfl

/-- The tokens of a node are those of its children one after the other. -/
theorem tokenTexts_of_node (hf : Shown p f) (hx : x ∈ (wholeSpot p).all)
    (hleaf : x.green.isLeaf = false) :
    f.tokenTexts x.ref = x.children.flatMap fun c => f.tokenTexts c.ref := by
  have hfits : x.green.KindFits :=
    ((hasShape_of_mem_all hx).isToken_eq_false hleaf).trans hleaf.symm
  rw [hf.tokenTexts_eq hx, Spot.tokens_eq hfits, if_neg (by simp [hleaf]), List.map_flatMap]
  exact List.flatMap_congr fun c hc => (hf.tokenTexts_eq (Spot.children_subset_all hx hc)).symm

/-- Outside of types a string literal is spelled in single quotes. -/
theorem spelled_or_inType (hf : Shown p f) (hx : x ∈ (wholeSpot p).all) {lead text value : String}
    {labels : List String}
    (hgreen : x.green = .token lead .stringLiteral text (.literal value) labels) :
    text = quoteString value ∨ InType f.tree x.ref := by
  rcases Spot.exists_parent_of_mem_all hx with rfl | ⟨y, hy, hchild⟩
  · cases hgreen
  · obtain ⟨flags, links, gs, labels', hnode, -⟩ := exists_form_of_mem_children hy hchild
    have hshape := hasShape_of_mem_all hy
    rw [hnode] at hshape
    rcases hshape.2 with htype | hquoted
    · refine .inr ⟨y.green.kind, ?_, htype⟩
      rw [hf.shows.parent_eq hx, Spot.parent_of_mem_children hchild, hf.shows.kind?_eq hy]
    · refine .inl (hquoted x.green ?_ lead text value labels hgreen)
      have hmem := List.mem_map_of_mem (f := Spot.green) hchild
      rwa [Spot.children_of_node hnode, Spot.map_green_row] at hmem

end Shown

theorem mem_isToken {kind : Kind} (h : kind ∈ wordKinds ++ valuedKinds) : kind.isToken = true := by
  revert h
  cases kind <;> decide

theorem isSome_text? {kind : Kind} (h : kind ∈ wordKinds) : kind.text?.isSome = true := by
  revert h
  cases kind <;> decide

theorem eq_stringLiteral {kind : Kind} (h : kind ∈ enclosedKinds) (hvalued : kind ∈ valuedKinds) :
    kind = .stringLiteral := by
  revert h hvalued
  cases kind <;> decide

theorem Leaf.IsAt.kind_eq {l : Leaf} (h : l.IsAt n) : n.kind = l.kind := by
  cases l with
  | word kind hkind => exact h
  | valued kind hkind value => exact h.1

/-- A leaf is written with its token. -/
theorem Leaf.IsAt.token_eq (hf : Shown p f) (hx : x ∈ (wholeSpot p).all) {l : Leaf}
    (h : l.IsAt x.node)
    (hspelled : InType f.tree x.ref → x.green.kind = .stringLiteral →
      f.nodeText x.ref = l.token.2) :
    x.green.isLeaf = true ∧ (some x.green.kind, x.green.body) = l.token := by
  have hshape := hasShape_of_mem_all hx
  have hkind : x.green.kind = l.kind := h.kind_eq
  cases hgreen : x.green with
  | node kind flags links gs labels =>
    have htoken := hshape.isToken_eq_false (by rw [hgreen]; rfl)
    rw [hkind, mem_isToken l.kind_mem] at htoken
    cases htoken
  | token lead kind text payload labels =>
    rw [hgreen] at hshape hkind
    obtain rfl : kind = l.kind := hkind
    refine ⟨rfl, Prod.ext_iff.mpr ⟨l.token_fst.symm, ?_⟩⟩
    cases l with
    | word kind hword =>
      obtain ⟨word, htext⟩ := Option.isSome_iff_exists.mp (isSome_text? hword)
      have hspelling : text = word := hshape.text_eq htext
      exact hspelling.trans (by simp [Leaf.token, markText, htext])
    | valued kind hvalued value =>
      have hvalue : value? x.node = some value := h.2
      rw [Spot.node, hgreen] at hvalue
      cases hshape with
      | fixed kind hmark => cases hvalue
      | identifier name => exact Option.some.inj hvalue
      | number kind text hnumber =>
        rcases hnumber with rfl | rfl <;> exact Option.some.inj hvalue
      | template text =>
        obtain rfl : text = value := Option.some.inj hvalue
        rfl
      | enclosed kind text contents henclosed =>
        obtain rfl : kind = .stringLiteral := eq_stringLiteral henclosed hvalued
        obtain rfl : contents = value := Option.some.inj hvalue
        rcases hf.spelled_or_inType hx hgreen with hquoted | htype
        · exact hquoted
        · have hspelling := hspelled htype (by rw [hgreen]; rfl)
          rw [hf.nodeText_eq hx, hgreen] at hspelling
          exact hspelling

namespace Reads

variable {c d : Chain} {s : NodeRef}

/-- The name of a property access is a leaf itself. -/
theorem of_isName (hf : Shown p f) {name : Spot} (hname : name ∈ (wholeSpot p).all)
    (h : IsName name.green) : ∃ text, f.tree.identifierText? name.ref = some text ∧
      Reads f name.ref (.leaf (.name text)) := by
  obtain ⟨lead, text, labels, hgreen⟩ := h
  have hkind : name.node.kind = .identifier := by rw [Spot.node, hgreen]; rfl
  have htext : name.node.identifier? = some text := by rw [Spot.node, hgreen]; rfl
  refine ⟨text, ?_, .leaf (hf.shows.get?_eq hname) ⟨hkind, ?_⟩ fun _ hstring => ?_⟩
  · rw [Tree.identifierText?, hf.shows.get?_eq hname, Option.bind_some, htext]
  · rw [value?, htext, Option.some_or]
  · rw [hkind] at hstring
    cases hstring

theorem tokenTexts_leaf (hf : Shown p f) {l : Leaf} (h : Reads f r (.leaf l)) :
    f.tokenTexts r = [l.token] := by
  obtain ⟨hn, hl, hspelled⟩ := h
  obtain ⟨x, hx, rfl, rfl⟩ := hf.shows.exists_of_get? hn
  obtain ⟨hleaf, htoken⟩ := hl.token_eq hf hx hspelled
  have hkind : x.green.kind = l.kind := hl.kind_eq
  rw [hf.tokenTexts_of_leaf hx hleaf (hkind ▸ mem_isToken l.kind_mem), htoken]

/-- A chain of a file is written with its tokens. -/
theorem tokenTexts_eq (hf : Shown p f) (h : Reads f r c) :
    f.tokenTexts r = c.backwards.reverse := by
  induction h with
  | @leaf r n l hn h hspelled => exact tokenTexts_leaf hf (.leaf hn h hspelled)
  | @property r n a receiver hn hkind ha hreceiver ih =>
    obtain ⟨x, hx, rfl, first, dot, name, hx'⟩ := hf.exists_property hn hkind ha
    have hall : ∀ c ∈ [first, dot, name], c ∈ (wholeSpot p).all := fun c hc =>
      Spot.children_subset_all hx (hx'.children ▸ hc)
    obtain ⟨lead, hdot⟩ := hx'.dot
    obtain ⟨text, htext, hname⟩ := of_isName hf (hall name (by simp)) hx'.name
    rw [hx'.expression] at ih
    rw [hf.tokenTexts_of_node hx hx'.node, hx'.children, hx'.nameOrArgument, htext]
    simp only [List.flatMap_cons, List.flatMap_nil, List.append_nil, ih, tokenTexts_leaf hf hname,
      Leaf.token_name, hf.tokenTexts_of_mark (hall dot (by simp)) hdot (by split <;> rfl)]
    simp [Chain.backwards, dotText]
  | @element r n a receiver index hn hkind ha hreceiver hindex ihreceiver ihindex =>
    obtain ⟨x, hx, rfl, first, question, opening, inner, closing, hx'⟩ :=
      hf.exists_element hn hkind ha
    have hall : ∀ c ∈ first :: (question ++ [opening, inner, closing]), c ∈ (wholeSpot p).all :=
      fun c hc => Spot.children_subset_all hx (hx'.children ▸ hc)
    obtain ⟨lead, hopening⟩ := hx'.opening
    obtain ⟨lead', hclosing⟩ := hx'.closing
    have hquestion : (question.flatMap fun c => f.tokenTexts c.ref) =
        questionText a.questionDot.isSome := by
      obtain ⟨lead'', hquestion⟩ := hx'.question
      revert hquestion
      cases a.questionDot.isSome
      · intro hquestion
        rw [List.map_eq_nil_iff.mp hquestion]
        rfl
      · intro hquestion
        obtain ⟨q, rfl, hq⟩ := List.map_eq_singleton_iff.mp hquestion
        rw [List.flatMap_singleton, hf.tokenTexts_of_mark (hall q (by simp)) hq rfl]
        rfl
    have hreverse (optional : Bool) : (questionText optional).reverse = questionText optional := by
      cases optional <;> rfl
    rw [hx'.expression] at ihreceiver
    rw [hx'.nameOrArgument] at ihindex
    rw [hf.tokenTexts_of_node hx hx'.node, hx'.children]
    simp only [List.flatMap_cons, List.flatMap_append, List.flatMap_nil, List.append_nil,
      ihreceiver, ihindex, hquestion, hf.tokenTexts_of_mark (hall opening (by simp)) hopening rfl,
      hf.tokenTexts_of_mark (hall closing (by simp)) hclosing rfl]
    simp [Chain.backwards, hreverse]

/-- Two chains of a file have equal tokens exactly if they are the same chain. -/
theorem tokensEqual_iff (hf : Shown p f) (hr : Reads f r c) (hs : Reads f s d) :
    f.tokensEqual r s = true ↔ c = d := by
  rw [SourceFile.tokensEqual_iff, hr.tokenTexts_eq hf, hs.tokenTexts_eq hf, List.reverse_inj,
    Chain.backwards_injective.eq_iff]

end Reads

end TypeLint.Program
