import TypeLint.Proofs.Emission.Neighbours
import TypeLint.Proofs.Program.Operands

namespace TypeLint.Syntax.Tree

variable {t : Tree} {r : NodeRef}

/-- A token is its only token, and the tokens of another node are those of its children. -/
def SequencesTokens (t : Tree) : Prop :=
  ∀ r n, t.get? r = some n →
    t.tokens r = if n.kind.isToken then [r] else n.children.flatMap t.tokens

theorem tokens_eq_nil (hr : t.get? r = none) : t.tokens r = [] := by
  rw [tokens, preorder, hr]
  rfl

/-- The search down a tree in an order that goes through the parts of a sequence as it goes through
    their elements finds the token that is the first one in this order. -/
theorem tokenTo_eq_head? (h : t.ChildrenFirst) (ht : t.SequencesTokens)
    {order : List NodeRef → List NodeRef} (hsub : ∀ rs, order rs ⊆ rs)
    (hsingle : ∀ r, order [r] = [r])
    (hparts : ∀ rs (parts : NodeRef → List NodeRef),
      order (rs.flatMap parts) = (order rs).flatMap fun r => order (parts r))
    {depth : Nat} (hr : ∀ i, r = some i → i < t.size → i < depth) :
    t.tokenTo order depth r = (order (t.tokens r)).head? := by
  have hnil : order [] = [] := List.subset_nil.mp (hsub [])
  induction depth generalizing r with
  | zero =>
    have hnone : t.get? r = none := by
      by_contra hsome
      obtain ⟨n, hn⟩ := Option.ne_none_iff_exists'.mp hsome
      obtain ⟨i, hi, hlt⟩ := exists_of_get? hn
      exact Nat.not_lt_zero i (hr i hi hlt)
    rw [tokens_eq_nil hnone, hnil]
    rfl
  | succ depth ih =>
    rw [tokenTo]
    cases hn : t.get? r with
    | none =>
      rw [tokens_eq_nil hn, hnil]
      rfl
    | some n =>
      dsimp only
      rw [ht r n hn]
      split_ifs with hkind
      · rw [hsingle, List.head?_cons]
      · rw [hparts, List.head?_flatMap, ← List.head?_filterMap, ← List.head?_filterMap]
        refine congrArg _ (List.filterMap_congr fun c hc => ih fun j hj _ => ?_)
        obtain ⟨i, rfl, hlt⟩ := exists_of_get? hn
        have hmem : c ∈ t.children (some i) := by
          rw [children, hn]
          exact hsub _ hc
        obtain ⟨k, rfl, hki, -⟩ := h.child_lt i c hmem
        have hi := hr i rfl hlt
        cases hj
        omega

theorem firstToken?_eq (h : t.ChildrenFirst) (ht : t.SequencesTokens) (r : NodeRef) :
    t.firstToken? r = (t.tokens r).head? := by
  rw [firstToken?, firstTokenTo_eq]
  exact tokenTo_eq_head? h ht (fun _ => List.Subset.refl _) (fun _ => rfl) (fun _ _ => rfl)
    fun _ _ hi => hi

theorem lastToken?_eq (h : t.ChildrenFirst) (ht : t.SequencesTokens) (r : NodeRef) :
    t.lastToken? r = (t.tokens r).getLast? := by
  rw [lastToken?, lastTokenTo_eq, List.getLast?_eq_head?_reverse]
  exact tokenTo_eq_head? h ht (fun rs => List.reverse_subset.mpr (List.Subset.refl rs))
    (fun _ => rfl) (fun _ _ => List.reverse_flatMap) fun _ _ hi => hi

/-- The walk to the tokens of a node visits each token once, and the searches find what is to be
    found in their sequence. The tokens of a node with a parent stand among those of the parent,
    between the tokens of the siblings in front of it and those of the siblings behind it. -/
structure SearchesTokens (t : Tree) : Prop where
  ends : ∀ r, t.WalksEnd r
  nodup : ∀ r, (t.tokens r).Nodup
  tokens : ∀ r i, t.parent r = some i →
    t.tokens (some i) = (t.children (some i)).flatMap t.tokens
  first : ∀ r, t.firstToken? r = (t.tokens r).head?
  last : ∀ r, t.lastToken? r = (t.tokens r).getLast?
  around : ∀ r i, t.parent r = some i → ∃ before after,
    t.children (some i) = before ++ r :: after ∧
      t.tokens (some i) = before.flatMap t.tokens ++ t.tokens r ++ after.flatMap t.tokens ∧
      ∀ condition,
        t.tokenBefore? r condition =
          ((before.flatMap t.tokens).filter (t.satisfies condition)).getLast? ∧
        t.tokenAfter? r condition =
          ((after.flatMap t.tokens).filter (t.satisfies condition)).head?

end TypeLint.Syntax.Tree

namespace TypeLint.Program

open Syntax

variable {p : TypeLint.Program} {f : SourceFile} {x : Spot}

/-- There is a token in every node if keywords and operators are tokens. -/
theorem tokens_ne_nil (hp : Disciplined p) (hx : x ∈ (wholeSpot p).all) : x.tokens ≠ [] := by
  induction x using Spot.inductionOnChildren with
  | step x ih =>
    rw [(hasShape_of_mem_all hx).tokens_eq]
    split_ifs with hkind
    · exact List.cons_ne_nil x []
    · obtain ⟨c, hc⟩ := List.exists_mem_of_ne_nil _ (children_ne_nil_of_hasForm
        (hasForm_of_mem_wholeSpot hp hx) (Bool.not_eq_true _ ▸ hkind))
      obtain ⟨y, hy⟩ := List.exists_mem_of_ne_nil _ (ih c hc (Spot.children_subset_all hx hc))
      exact List.ne_nil_of_mem (List.mem_flatMap.mpr ⟨c, hc, hy⟩)

namespace Shown

variable (hf : Shown p f)

include hf

theorem sequencesTokens : f.tree.SequencesTokens := by
  intro r n hn
  obtain ⟨x, hx, rfl, rfl⟩ := hf.shows.exists_of_get? hn
  rw [hf.shows.tokens_eq hx, (hasShape_of_mem_all hx).tokens_eq]
  change _ = if x.green.kind.isToken then _ else (x.children.map Spot.ref).flatMap f.tree.tokens
  split_ifs with hkind
  · rfl
  · rw [List.map_flatMap, List.flatMap_map]
    exact List.flatMap_congr fun c hc =>
      (hf.shows.tokens_eq (Spot.children_subset_all hx hc)).symm

/-- The tokens of a node with children are those of its children. -/
theorem tokens_of_parent {r : NodeRef} {i : Nat} (hparent : f.tree.parent r = some i) :
    r ∈ f.tree.children (some i) ∧
      f.tree.tokens (some i) = (f.tree.children (some i)).flatMap f.tree.tokens := by
  obtain ⟨x, hx, href, c, hc, rfl⟩ := hf.exists_child_of_parent hparent
  have hkind : x.green.kind.isToken = false := by
    refine (hasShape_of_mem_all hx).isToken_eq_false (Bool.not_eq_true _ ▸ fun hleaf => ?_)
    rw [Spot.children_eq_nil_of_leaf hleaf] at hc
    cases hc
  rw [href, hf.sequencesTokens _ _ (hf.shows.get?_eq hx), hf.shows.children_eq hx]
  refine ⟨List.mem_map_of_mem hc, if_neg ?_⟩
  rw [Spot.node, hkind]
  exact Bool.false_ne_true

end Shown

/-- In a file that is built from a program the searches for tokens find what filtering the sequence
    of tokens finds, and no node is without tokens if keywords and operators are tokens. -/
theorem build_searchesTokens {fileName : String} {b : Built} (hb : build fileName p = .ok b) :
    b.file.tree.SearchesTokens ∧
      (Disciplined p → ∀ r n, b.file.tree.get? r = some n → b.file.tree.tokens r ≠ []) := by
  obtain ⟨shown, -⟩ := shown_of_build hb
  have hfirst := shown.childrenFirst
  have hsequences := shown.sequencesTokens
  refine ⟨⟨hfirst.walksEnd, fun r => (shown.shows.nodup_preorder r).filter _,
    fun r i hparent => (shown.tokens_of_parent hparent).2,
    Tree.firstToken?_eq hfirst hsequences, Tree.lastToken?_eq hfirst hsequences, ?_⟩, ?_⟩
  · intro r i hparent
    obtain ⟨hmem, htokens⟩ := shown.tokens_of_parent hparent
    obtain ⟨before, after, hsiblings, hnot⟩ := List.eq_append_cons_of_mem hmem
    have hsiblings' : b.file.tree.children (b.file.tree.parent r) = before ++ r :: after := by
      rw [hparent, hsiblings]
    refine ⟨before, after, hsiblings, ?_, fun condition =>
      ⟨Tree.tokenBefore?_eq hsiblings' hnot condition,
        Tree.tokenAfter?_eq hsiblings' hnot condition⟩⟩
    rw [htokens, hsiblings, List.flatMap_append, List.flatMap_cons, List.append_assoc]
  · intro hp r n hn
    obtain ⟨x, hx, rfl, -⟩ := shown.shows.exists_of_get? hn
    rw [shown.shows.tokens_eq hx, ne_eq, List.map_eq_nil_iff]
    exact tokens_ne_nil hp hx

theorem build_searchesTokens_excerpt : ∃ b n, Disciplined excerpt ∧ build "a.ts" excerpt = .ok b ∧
    b.file.tree.SearchesTokens ∧ b.file.tree.get? (some 52) = some n ∧
      b.file.tree.tokens (some 52) = [some 49, some 50, some 51] ∧
      b.file.tree.tokens (some 52) ≠ [] ∧ b.file.tree.firstToken? (some 52) = some (some 49) ∧
      b.file.tree.lastToken? (some 52) = some (some 51) := by
  obtain ⟨b, hb⟩ := exists_build_excerpt
  obtain ⟨hsearches, hne⟩ := build_searchesTokens hb
  have shown := (shown_of_build hb).1
  obtain ⟨x, hx, href, hrefs⟩ : ∃ x ∈ (wholeSpot excerpt).all, x.ref = some 52 ∧
      x.tokens.map Spot.ref = [some 49, some 50, some 51] := by
    decide +kernel
  have hn := href ▸ shown.shows.get?_eq hx
  have htokens : b.file.tree.tokens (some 52) = [some 49, some 50, some 51] := by
    rw [← href, shown.shows.tokens_eq hx, hrefs]
  refine ⟨b, x.node, excerpt_disciplined, hb, hsearches, hn, htokens, hne excerpt_disciplined _ _ hn,
    ?_, ?_⟩
  · rw [hsearches.first, htokens, List.head?_cons]
  · rw [hsearches.last, htokens]
    rfl

end TypeLint.Program
