import TypeLint.Proofs.Emission.Places
import TypeLint.Proofs.Program.Shapes
import TypeLint.Proofs.Program.WellFormed
import TypeLint.Proofs.Syntax.Parentheses

namespace TypeLint.Syntax.Spot

/-- A spot below another one is a child of a spot. -/
theorem exists_parent_of_mem_all {s x : Spot} (hx : x ∈ s.all) :
    x = s ∨ ∃ y ∈ s.all, x ∈ y.children := by
  induction s using inductionOnChildren with
  | step s ih =>
    rcases mem_all_iff.mp hx with ⟨c, hc, hx⟩ | rfl
    · rcases ih c hc hx with rfl | ⟨y, hy, hx⟩
      · exact .inr ⟨s, s.self_mem_all, hc⟩
      · exact .inr ⟨y, mem_all_iff.mpr (.inl ⟨c, hc, hy⟩), hx⟩
    · exact .inl rfl

end TypeLint.Syntax.Spot

namespace TypeLint.Program

open Syntax Writer Green

variable {p : TypeLint.Program} {f : SourceFile} {x : Spot} {r : NodeRef}

/-- A parenthesised expression stands between two tokens. -/
theorem exists_inner_of_form {flags : Nat} {links : Payload} {gs : List Green}
    {labels : List String} (hgreen : x.green = .node .parenthesizedExpression flags links gs labels)
    (hform : Form .parenthesizedExpression flags links gs) :
    ∃ opening inner closing, x.children = [opening, inner, closing] ∧
      opening.green.isLeaf = true ∧ closing.green.isLeaf = true ∧
      x.node.parenthesized? = some inner.ref := by
  cases hform with
  | compositeType kind h | prefixed kind h | block kind h | jump kind h =>
    rcases h with h | h <;> cases h
  | paren inner lead lead' =>
    rw [Spot.node, Spot.children_of_node hgreen, hgreen]
    exact ⟨_, _, _, rfl, rfl, rfl, rfl⟩

/-- The operands of a binary expression stand on both sides of a token. -/
theorem exists_operands_of_form {flags : Nat} {links : Payload} {gs : List Green}
    {labels : List String} (hgreen : x.green = .node .binaryExpression flags links gs labels)
    (hform : Form .binaryExpression flags links gs) :
    ∃ left token right operator, x.children = [left, token, right] ∧ token.green.isLeaf = true ∧
      x.node.binary? = some ⟨left.ref, token.ref, operator, right.ref⟩ := by
  cases hform with
  | compositeType kind h | prefixed kind h | block kind h | jump kind h =>
    rcases h with h | h <;> cases h
  | binary left right lead operator =>
    rw [Spot.node, Spot.children_of_node hgreen, hgreen]
    exact ⟨_, _, _, operator, rfl, rfl, rfl⟩

namespace Shown

theorem exists_inner (hf : Shown p f) {inner : NodeRef} (h : f.tree.Encloses r inner) :
    ∃ x ∈ (wholeSpot p).all, r = x.ref ∧ x.green.kind = .parenthesizedExpression ∧
      ∃ c ∈ x.children, inner = c.ref := by
  obtain ⟨n, hn, hinner⟩ := Option.bind_eq_some_iff.mp h
  obtain ⟨hpayload, hkind⟩ := payload?_of_parenthesized? hinner
  obtain ⟨x, hx, rfl, rfl, flags, links, gs, labels, hgreen, hform, -⟩ :=
    hf.exists_form hn hpayload rfl
  rw [hkind] at hgreen hform
  obtain ⟨opening, c, closing, hchildren, -, -, hc⟩ := exists_inner_of_form hgreen hform
  refine ⟨x, hx, rfl, hkind, c, by simp [hchildren], ?_⟩
  exact Option.some.inj (hinner.symm.trans hc)

theorem exists_operands (hf : Shown p f) {b : Binary} (h : f.tree.binary? r = some b) :
    ∃ x ∈ (wholeSpot p).all, r = x.ref ∧ x.green.kind = .binaryExpression ∧
      (∃ c ∈ x.children, b.left = c.ref) ∧ ∃ c ∈ x.children, b.right = c.ref := by
  obtain ⟨n, hn, hb⟩ := Option.bind_eq_some_iff.mp h
  have hpayload := payload?_of_binary? hb
  obtain ⟨x, hx, rfl, rfl, flags, links, gs, labels, hgreen, hform, -⟩ :=
    hf.exists_form hn hpayload rfl
  have hkind : x.node.kind = .binaryExpression := beq_iff_eq.mp (of_payload? hpayload).2
  rw [hkind] at hgreen hform
  obtain ⟨left, token, right, operator, hchildren, -, hc⟩ := exists_operands_of_form hgreen hform
  obtain rfl := Option.some.inj (hb.symm.trans hc)
  exact ⟨x, hx, rfl, hkind, ⟨left, by simp [hchildren], rfl⟩, right, by simp [hchildren], rfl⟩

/-- A node with a parent is a child of it. -/
theorem exists_child_of_parent (hf : Shown p f) {j : Nat} (h : f.tree.parent r = some j) :
    ∃ x ∈ (wholeSpot p).all, some j = x.ref ∧ ∃ c ∈ x.children, r = c.ref := by
  obtain ⟨n, hn, hparent⟩ := Option.bind_eq_some_iff.mp h
  obtain ⟨c, hc, rfl, rfl⟩ := hf.shows.exists_of_get? hn
  rcases Spot.exists_parent_of_mem_all hc with rfl | ⟨x, hx, hchild⟩
  · cases hparent
  · exact ⟨x, hx, hparent.symm.trans (Spot.parent_of_mem_children hchild), c, hchild, rfl⟩

theorem children_ne_nil (hf : Shown p f) (hx : x ∈ (wholeSpot p).all) :
    f.tree.children x.ref ≠ [] ↔ x.children ≠ [] := by
  rw [hf.shows.children_eq hx, ne_eq, List.map_eq_nil_iff]

/-- What a node with children is that has a node of the given kind above it. -/
theorem exists_form_of_parent (hf : Shown p f) {kind : Kind}
    (hkind : f.tree.kind? (f.tree.parent r) = some kind) :
    ∃ x ∈ (wholeSpot p).all, f.tree.parent r = x.ref ∧ (∃ c ∈ x.children, r = c.ref) ∧
      ∃ flags links gs labels, x.green = .node kind flags links gs labels ∧
        Form kind flags links gs := by
  obtain ⟨n, hn, -⟩ := Option.map_eq_some_iff.mp hkind
  obtain ⟨j, hj, -⟩ := Tree.exists_of_get? hn
  obtain ⟨x, hx, href, c, hc, rfl⟩ := hf.exists_child_of_parent hj
  rw [← hj] at href
  rw [href, hf.shows.kind?_eq hx] at hkind
  obtain ⟨flags, links, gs, labels, hgreen, hform⟩ := exists_form_of_mem_children hx hc
  rw [Option.some.inj hkind] at hgreen hform
  exact ⟨x, hx, href, ⟨c, hc, rfl⟩, flags, links, gs, labels, hgreen, hform⟩

/-- The links and the parents around operands agree in a built file. -/
theorem linked (hf : Shown p f) : f.tree.Linked where
  parent_gt i j h := by
    obtain ⟨x, hx, hj, c, hc, hi⟩ := hf.exists_child_of_parent h
    have hnumber : x.number < f.tree.size := by
      have hmem := Spot.number_of_mem_all hx
      rw [hf.shows.size_eq, Green.size]
      simpa [wholeSpot, Spot.number, Nat.lt_succ_iff] using hmem.2
    cases hj
    cases hi
    exact ⟨Spot.number_lt_of_mem_children hc, hnumber⟩
  enclosed r inner h := by
    obtain ⟨x, hx, rfl, hkind, c, hc, rfl⟩ := hf.exists_inner h
    refine ⟨?_, ?_, (hf.children_ne_nil hx).mpr (List.ne_nil_of_mem hc)⟩
    · rw [hf.shows.parent_eq (Spot.children_subset_all hx hc), Spot.parent_of_mem_children hc]
    · rw [hf.shows.kind?_eq hx, hkind]
  encloses r h hchildren := by
    obtain ⟨x, hx, hparent, ⟨c, hc, rfl⟩, flags, links, gs, labels, hgreen, hform⟩ :=
      hf.exists_form_of_parent (eq_of_beq h)
    obtain ⟨opening, inner, closing, hall, hopening, hclosing, hinner⟩ :=
      exists_inner_of_form hgreen hform
    rw [hf.children_ne_nil (Spot.children_subset_all hx hc)] at hchildren
    rw [Tree.Encloses, hparent, hf.shows.get?_eq hx, Option.bind_some, hinner]
    simp only [hall, List.mem_cons, List.not_mem_nil, or_false] at hc
    rcases hc with rfl | rfl | rfl
    · exact (hchildren (Spot.children_eq_nil_of_leaf hopening)).elim
    · rfl
    · exact (hchildren (Spot.children_eq_nil_of_leaf hclosing)).elim
  operands r b h := by
    obtain ⟨x, hx, rfl, hkind, ⟨left, hleft, hl⟩, right, hright, hr⟩ := hf.exists_operands h
    have hparent {c : Spot} (hc : c ∈ x.children) : f.tree.parent c.ref = x.ref := by
      rw [hf.shows.parent_eq (Spot.children_subset_all hx hc), Spot.parent_of_mem_children hc]
    refine ⟨hl ▸ hparent hleft, hr ▸ hparent hright, ?_, ?_⟩
    · rw [hf.shows.kind?_eq hx, hkind]
    · exact (hf.children_ne_nil hx).mpr (List.ne_nil_of_mem hleft)
  operand r b h hchildren := by
    have hkind : f.tree.kind? (f.tree.parent r) = some .binaryExpression := by
      obtain ⟨x, hx, href, hkind, -⟩ := hf.exists_operands h
      rw [href, hf.shows.kind?_eq hx, hkind]
    obtain ⟨x, hx, hparent, ⟨c, hc, rfl⟩, flags, links, gs, labels, hgreen, hform⟩ :=
      hf.exists_form_of_parent hkind
    obtain ⟨left, token, right, operator, hall, htoken, hbinary⟩ :=
      exists_operands_of_form hgreen hform
    rw [hf.children_ne_nil (Spot.children_subset_all hx hc)] at hchildren
    rw [Tree.binary?, hparent, hf.shows.get?_eq hx, Option.bind_some, hbinary] at h
    obtain rfl := Option.some.inj h
    simp only [hall, List.mem_cons, List.not_mem_nil, or_false] at hc
    rcases hc with rfl | rfl | rfl
    · exact .inl rfl
    · exact (hchildren (Spot.children_eq_nil_of_leaf htoken)).elim
    · exact .inr rfl

/-- Children come in front of their parents in a built file. -/
theorem childrenFirst (hf : Shown p f) : f.tree.ChildrenFirst where
  parent_gt := hf.linked.parent_gt
  child_lt i c hc := by
    have hparent := hf.parent_of_mem_children hc
    obtain ⟨j, rfl, hj⟩ := Tree.exists_of_parent hparent
    exact ⟨j, rfl, (hf.linked.parent_gt j i hparent).1, hj⟩

end Shown

end TypeLint.Program
