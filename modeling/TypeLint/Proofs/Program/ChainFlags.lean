import TypeLint.Proofs.Program.Operands

namespace TypeLint.Syntax

/-- The expression that a link of a chain is a step from, and its `?.` token if there is one. -/
def Node.link? (n : Node) : Option (NodeRef × NodeRef) :=
  match n.kind with
  | .propertyAccessExpression | .elementAccessExpression =>
    n.access?.map fun a => (a.expression, a.questionDot)
  | .callExpression => n.call?.map fun c => (c.expression, c.questionDot)
  | .nonNullExpression => n.nonNull?.map fun e => (e, none)
  | _ => none

theorem Node.link?_of_isChainKind {n : Node} (h : Green.isChainKind n.kind = false) :
    n.link? = none := by
  rw [Node.link?]
  split
  all_goals first | rfl | (next hkind => rw [hkind] at h; cases h)

theorem Node.link?_of_isPlain {n : Node} (h : n.payload.isPlain = true) : n.link? = none := by
  have hplain {payload : Payload} (hpayload : n.payload? = some payload) :
      payload.isPlain = true := (Program.of_payload? hpayload).1 ▸ h
  have haccess : n.access? = none := by
    rw [Node.access?]
    split
    · next hpayload => cases hplain hpayload
    · rfl
  have hcall : n.call? = none := by
    rw [Node.call?]
    split
    · next hpayload => cases hplain hpayload
    · rfl
  have hnonNull : n.nonNull? = none := by
    rw [Node.nonNull?, Node.wrapped?]
    split
    · next hpayload => cases hplain hpayload
    · rfl
  rw [Node.link?, haccess, hcall, hnonNull]
  split <;> rfl

namespace Tree

variable {t : Tree} {r : NodeRef}

/-- The node is a link of a chain and a step from the receiver. -/
def StepsFrom (t : Tree) (r receiver : NodeRef) : Prop :=
  ∃ n question, t.get? r = some n ∧ n.link? = some (receiver, question)

/-- The node is a link of a chain with a `?.` token. -/
def IsOptionalStep (t : Tree) (r : NodeRef) : Prop :=
  ∃ n receiver question, t.get? r = some n ∧ n.link? = some (receiver, some question)

/-- A link with a `?.` token is reached from the node, which may be that link itself, by going from
    links to what they are steps from. -/
def InOptionalChain (t : Tree) (r : NodeRef) : Prop :=
  ∃ m, Relation.ReflTransGen t.StepsFrom r m ∧ t.IsOptionalStep m

/-- A node that is no link is in no optional chain. -/
theorem not_inOptionalChain {n : Node} (hn : t.get? r = some n) (hlink : n.link? = none) :
    ¬ t.InOptionalChain r := by
  have hnot {pair : NodeRef × NodeRef} : ¬ ∃ n, t.get? r = some n ∧ n.link? = some pair := by
    rintro ⟨n', hn', hlink'⟩
    obtain rfl := Option.some.inj (hn.symm.trans hn')
    cases hlink.symm.trans hlink'
  rintro ⟨m, hsteps, hoptional⟩
  rcases hsteps.cases_head with rfl | ⟨receiver, ⟨n', question, hstep⟩, -⟩
  · obtain ⟨n', receiver, question, hstep⟩ := hoptional
    exact hnot ⟨n', hstep⟩
  · exact hnot ⟨n', hstep⟩

/-- A link is in an optional chain for its own `?.` token or with what it is a step from. -/
theorem inOptionalChain_iff {n : Node} {receiver question : NodeRef} (hn : t.get? r = some n)
    (hlink : n.link? = some (receiver, question)) :
    t.InOptionalChain r ↔ question.isSome = true ∨ t.InOptionalChain receiver := by
  have hsame {pair : NodeRef × NodeRef} (h : ∃ n, t.get? r = some n ∧ n.link? = some pair) :
      pair = (receiver, question) := by
    obtain ⟨n', hn', hlink'⟩ := h
    obtain rfl := Option.some.inj (hn.symm.trans hn')
    exact Option.some.inj (hlink'.symm.trans hlink)
  constructor
  · rintro ⟨m, hsteps, hoptional⟩
    rcases hsteps.cases_head with rfl | ⟨receiver', ⟨n', question', hstep⟩, hrest⟩
    · obtain ⟨n', receiver', question', hstep⟩ := hoptional
      cases hsame ⟨n', hstep⟩
      exact .inl rfl
    · cases hsame ⟨n', hstep⟩
      exact .inr ⟨m, hrest, hoptional⟩
  · rintro (hsome | ⟨m, hrest, hoptional⟩)
    · obtain ⟨token, rfl⟩ := Option.isSome_iff_exists.mp hsome
      exact ⟨r, .refl, n, receiver, token, hn, hlink⟩
    · exact ⟨m, .head ⟨n, question, hn, hlink⟩ hrest, hoptional⟩

end Tree

end TypeLint.Syntax

namespace TypeLint.Program

open Syntax Writer Green

variable {p : TypeLint.Program} {f : SourceFile} {x : Spot}

/-- The spot of a link, with the spots of what it is a step from and of the token behind that, which
    is its `?.` token if the link is an optional step. -/
structure IsLink (x receiver next : Spot) (optional : Bool) : Prop where
  children : ∃ rest, x.children = receiver :: next :: rest
  kind : isChainKind x.green.kind = true
  flags : x.green.flags = chainFlags optional receiver.green
  question : (next.green.kind == .questionDotToken) = optional
  link : x.node.link? = some (receiver.ref, if optional then next.ref else none)

/-- A node of the kind of a link is one. -/
theorem exists_isLink_of_form {kind : Kind} {flags : Nat} {links : Payload} {gs : List Green}
    {labels : List String} (hgreen : x.green = .node kind flags links gs labels)
    (hform : Form kind flags links gs) (hkind : isChainKind kind = true) :
    ∃ receiver next optional, IsLink x receiver next optional := by
  have hchildren := Spot.children_of_node hgreen
  have hchain : isChainKind x.green.kind = true := by rwa [hgreen]
  have hflags : x.green.flags = flags := by rw [hgreen, Green.flags]
  cases hform with
  | nonNull =>
    exact ⟨_, _, _, ⟨_, hchildren⟩, hchain, hflags, rfl, by rw [Spot.node, hchildren, hgreen]; rfl⟩
  | property receiver name optional | element receiver argument optional
  | call receiver closing items optional =>
    cases optional <;>
      exact ⟨_, _, _, ⟨_, hchildren⟩, hchain, hflags, rfl,
        by rw [Spot.node, hchildren, hgreen]; rfl⟩
  | compositeType kind h | prefixed kind h | block kind h | jump kind h =>
    rcases h with rfl | rfl <;> cases hkind
  | _ => cases hkind

/-- Any other node has no flags. -/
theorem flags_of_form {kind : Kind} {flags : Nat} {links : Payload} {gs : List Green}
    (hform : Form kind flags links gs) (hkind : isChainKind kind = false) : flags = 0 := by
  cases hform with
  | nonNull | property | element | call => cases hkind
  | _ => rfl

/-- A spot is a link, or it is none and has no flags. If it has the kind of a link all the same, it
    is a token that the program gives this kind. -/
theorem isLink_or (hx : x ∈ (wholeSpot p).all) :
    (∃ receiver next optional, IsLink x receiver next optional) ∨
      x.node.link? = none ∧ x.green.flags = 0 ∧
        (isChainKind x.green.kind = true → x.children = []) := by
  have hshape := hasShape_of_mem_all hx
  cases hgreen : x.green with
  | token lead kind text payload labels =>
    rw [hgreen] at hshape
    refine .inr ⟨Node.link?_of_isPlain ?_, rfl, fun _ => by rw [Spot.children, hgreen]⟩
    rw [Spot.node, hgreen]
    exact TokenForm.isPlain hshape
  | node kind flags payload children labels =>
    rw [hgreen] at hshape
    cases hkind : isChainKind kind with
    | true => exact .inl (exists_isLink_of_form hgreen hshape.1 hkind)
    | false =>
      refine .inr ⟨Node.link?_of_isChainKind ?_, flags_of_form hshape.1 hkind, ?_⟩
      · rwa [Spot.node, hgreen]
      · rw [Green.kind, hkind]
        exact nofun

theorem isOptionalChain_node (x : Spot) : x.node.isOptionalChain = (x.green.flags % 2 == 1) := rfl

theorem chainFlags_eq (optional : Bool) (receiver : Green) :
    (chainFlags optional receiver % 2 == 1) = (optional || receiver.isChainLink) := by
  rw [chainFlags]
  cases optional || receiver.isChainLink <;> rfl

/-- Only links have the flag, so that every node with the flag hands it on. -/
theorem isChainLink_eq (hx : x ∈ (wholeSpot p).all) :
    x.green.isChainLink = x.node.isOptionalChain := by
  rw [Green.isChainLink, isOptionalChain_node]
  rcases isLink_or hx with ⟨receiver, next, optional, h⟩ | ⟨-, hflags, -⟩
  · rw [h.kind, Bool.and_true]
  · rw [hflags]
    rfl

namespace Shown

/-- A spot has the flag exactly if it is in an optional chain. -/
theorem isOptionalChain_iff (hf : Shown p f) (hx : x ∈ (wholeSpot p).all) :
    x.node.isOptionalChain = true ↔ f.tree.InOptionalChain x.ref := by
  induction x using Spot.inductionOnChildren with
  | step x ih =>
    have hget := hf.shows.get?_eq hx
    rcases isLink_or hx with ⟨receiver, next, optional, h⟩ | ⟨hnone, hflags, -⟩
    · obtain ⟨rest, hchildren⟩ := h.children
      have hmem : receiver ∈ x.children := by
        rw [hchildren]
        exact List.mem_cons_self
      have hreceiver := Spot.children_subset_all hx hmem
      have hquestion : (if optional then next.ref else none).isSome = optional := by
        cases optional <;> rfl
      rw [Tree.inOptionalChain_iff hget h.link, ← ih receiver hmem hreceiver,
        ← isChainLink_eq hreceiver, isOptionalChain_node, h.flags, chainFlags_eq, hquestion,
        Bool.or_eq_true]
    · rw [isOptionalChain_node, hflags]
      exact iff_of_false (by decide) (Tree.not_inOptionalChain hget hnone)

end Shown

/-- A node carries the flag of optional chains exactly if a link with a `?.` token is reached from
    it by going from links to what they are steps from. Every node over children that has the kind
    of a link is one. Behind what it is a step from it has a `?.` token exactly if it is a step with
    such a token, and that is the token. -/
structure FlagsChains (t : Tree) : Prop where
  flags : ∀ r n, t.get? r = some n → (n.isOptionalChain = true ↔ t.InOptionalChain r)
  links : ∀ r n, t.get? r = some n → isChainKind n.kind = true → n.children ≠ [] →
    n.link?.isSome = true
  questions : ∀ r n receiver question, t.get? r = some n → n.link? = some (receiver, question) →
    ∃ next rest, n.children = receiver :: next :: rest ∧
      question = if t.kind? next = some .questionDotToken then next else none

/-- The flags of chains are exact in a file that is built from a program. -/
theorem build_flagsChains {fileName : String} {b : Built} (hb : build fileName p = .ok b) :
    FlagsChains b.file.tree := by
  obtain ⟨shown, -⟩ := shown_of_build hb
  refine ⟨fun r n hn => ?_, fun r n hn hkind hchildren => ?_, fun r n receiver question hn hlink => ?_⟩
  · obtain ⟨x, hx, rfl, rfl⟩ := shown.shows.exists_of_get? hn
    exact shown.isOptionalChain_iff hx
  · obtain ⟨x, hx, rfl, rfl⟩ := shown.shows.exists_of_get? hn
    rcases isLink_or hx with ⟨receiver, next, optional, h⟩ | ⟨-, -, hleaf⟩
    · rw [h.link, Option.isSome_some]
    · exact absurd (by rw [Spot.node, hleaf hkind, List.map_nil]) hchildren
  · obtain ⟨x, hx, rfl, rfl⟩ := shown.shows.exists_of_get? hn
    rcases isLink_or hx with ⟨receiver', next, optional, h⟩ | ⟨hnone, -, -⟩
    · obtain ⟨rest, hchildren⟩ := h.children
      obtain ⟨rfl, rfl⟩ := Prod.mk.inj (Option.some.inj (h.link.symm.trans hlink))
      refine ⟨next.ref, rest.map Spot.ref, by rw [Spot.node, hchildren]; rfl, ?_⟩
      have hnext : next ∈ (wholeSpot p).all := Spot.children_subset_all hx (by simp [hchildren])
      have hquestion : b.file.tree.kind? next.ref = some .questionDotToken ↔ optional = true := by
        rw [shown.shows.kind?_eq hnext, Option.some.injEq, ← h.question, beq_iff_eq]
      simp only [hquestion]
    · cases hnone.symm.trans hlink

/-- `a?.b.c; (a?.b).c;` -/
def chainSteps : TypeLint.Program :=
  let step := Expr.property (.identifier "a") true "b"
  [.statement (.expression (.property step false "c")),
    .statement (.expression (.property (.paren step) false "c"))]

theorem build_flagsChains_steps : ∃ b, build "a.ts" chainSteps = .ok b ∧
    FlagsChains b.file.tree ∧ b.file.tree.InOptionalChain (some 6) ∧
      ¬ b.file.tree.InOptionalChain (some 18) := by
  obtain ⟨b, hb⟩ := exists_build "a.ts" (p := chainSteps) (by decide +kernel)
  have hchains := build_flagsChains hb
  obtain ⟨hcontinued, hstopped⟩ := of_build hb
    (fun b => (b.file.tree.get? (some 6)).map Node.isOptionalChain = some true ∧
      (b.file.tree.get? (some 18)).map Node.isOptionalChain = some false)
    (by decide +kernel)
  obtain ⟨n, hn, hflag⟩ := Option.map_eq_some_iff.mp hcontinued
  obtain ⟨n', hn', hflag'⟩ := Option.map_eq_some_iff.mp hstopped
  refine ⟨b, hb, hchains, (hchains.flags _ n hn).mp hflag, fun hstep => ?_⟩
  exact Bool.false_ne_true (hflag'.symm.trans ((hchains.flags _ n' hn').mpr hstep))

end TypeLint.Program
