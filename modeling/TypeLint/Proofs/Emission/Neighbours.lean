import TypeLint.Syntax.NodeEdit
import TypeLint.Proofs.Emission.Walks

namespace TypeLint.Syntax

theorem idxOf?_append_cons {α : Type} [BEq α] [LawfulBEq α] {before after : List α} {a : α}
    (h : a ∉ before) : (before ++ a :: after).idxOf? a = some before.length := by
  induction before with
  | nil => simp [List.idxOf?_cons]
  | cons b before ih =>
    rw [List.mem_cons, not_or] at h
    have hne : (b == a) = false := by simpa using Ne.symm h.1
    rw [List.cons_append, List.idxOf?_cons, hne, ih h.2]
    rfl

namespace Tree

variable {t : Tree} {r : NodeRef} {before after : List NodeRef}
  (hsiblings : t.children (t.parent r) = before ++ r :: after) (hfirst : r ∉ before)

include hsiblings hfirst

/-- The search over the siblings in front of a node finds the last token among theirs. -/
theorem tokenBefore?_eq (condition : Node → Bool) : t.tokenBefore? r condition =
    ((before.flatMap t.tokens).filter (t.satisfies condition)).getLast? := by
  rw [tokenBefore?, hsiblings, idxOf?_append_cons hfirst, Option.bind_eq_bind, Option.bind_some,
    List.take_left, List.getLast?_filter, List.reverse_flatMap]
  rfl

/-- The search over the siblings behind a node finds the first token among theirs. -/
theorem tokenAfter?_eq (condition : Node → Bool) : t.tokenAfter? r condition =
    ((after.flatMap t.tokens).filter (t.satisfies condition)).head? := by
  have hbehind : (before ++ r :: after).drop (before.length + 1) = after := by
    rw [List.append_cons]
    exact List.drop_left' List.length_append
  rw [tokenAfter?, hsiblings, idxOf?_append_cons hfirst, Option.bind_eq_bind, Option.bind_some,
    hbehind, List.head?_filter]

end Tree

namespace Tree.Shows

variable {t : Tree} {s q x y : Spot} {before after : List Spot}

/-- The siblings of a child, none of which in front of it is the child. -/
theorem siblings_eq (h : t.Shows s) (hq : q ∈ s.all)
    (hchildren : q.children = before ++ x :: after) :
    t.children (t.parent x.ref) = before.map Spot.ref ++ x.ref :: after.map Spot.ref ∧
      x.ref ∉ before.map Spot.ref := by
  have hx : x ∈ q.children := by simp [hchildren]
  constructor
  · rw [h.parent_eq (Spot.children_subset_all hq hx), Spot.parent_of_mem_children hx,
      h.children_eq hq, hchildren, List.map_append, List.map_cons]
  · have hnodup := q.nodup_map_ref_children
    rw [hchildren, List.map_append, List.map_cons] at hnodup
    exact fun hmem => (List.disjoint_of_nodup_append hnodup) hmem (List.mem_cons_self ..)

theorem tokens_of_leaf (h : t.Shows s) (hy : y ∈ s.all) (hfits : y.green.KindFits)
    (hleaf : y.green.isLeaf = true) : t.tokens y.ref = [y.ref] := by
  rw [h.tokens_eq hy, Spot.tokens_eq hfits, if_pos hleaf, List.map_singleton]

theorem satisfies_eq (h : t.Shows s) (hy : y ∈ s.all) (p : Node → Bool) :
    t.satisfies p y.ref = p y.node := by
  rw [Tree.satisfies, h.get?_eq hy]
  rfl

variable (before) in
/-- The token right behind a node is the first one behind it. -/
theorem tokenAfter?_eq (h : t.Shows s) (hq : q ∈ s.all)
    (hchildren : q.children = before ++ x :: y :: after) (hfits : y.green.KindFits)
    (hleaf : y.green.isLeaf = true) {p : Node → Bool} (hp : p y.node = true) :
    t.tokenAfter? x.ref p = some y.ref := by
  have hy : y ∈ s.all := Spot.children_subset_all hq (by simp [hchildren])
  obtain ⟨hsiblings, hfirst⟩ := h.siblings_eq hq hchildren
  rw [Tree.tokenAfter?_eq hsiblings hfirst, List.map_cons, List.flatMap_cons,
    h.tokens_of_leaf hy hfits hleaf, List.singleton_append,
    List.filter_cons_of_pos ((h.satisfies_eq hy p).trans hp), List.head?_cons]

variable (before) in
/-- The token right in front of a node is the last one in front of it. -/
theorem tokenBefore?_eq (h : t.Shows s) (hq : q ∈ s.all)
    (hchildren : q.children = before ++ y :: x :: after) (hfits : y.green.KindFits)
    (hleaf : y.green.isLeaf = true) {p : Node → Bool} (hp : p y.node = true) :
    t.tokenBefore? x.ref p = some y.ref := by
  have hy : y ∈ s.all := Spot.children_subset_all hq (by simp [hchildren])
  rw [List.append_cons] at hchildren
  obtain ⟨hsiblings, hfirst⟩ := h.siblings_eq hq hchildren
  have hsatisfies : t.satisfies p y.ref = true := (h.satisfies_eq hy p).trans hp
  rw [Tree.tokenBefore?_eq hsiblings hfirst, List.map_append, List.flatMap_append,
    List.map_singleton, List.flatMap_singleton, h.tokens_of_leaf hy hfits hleaf,
    List.filter_append, List.filter_cons_of_pos hsatisfies, List.filter_nil, List.getLast?_concat]

end Tree.Shows

/-- The range of the node of a spot. -/
theorem SourceFile.range_eq {f : SourceFile} {s x : Spot} (h : f.tree.Shows s) (hx : x ∈ s.all) :
    f.range x.ref = (x.start, x.stop) := by
  rw [SourceFile.range, h.get?_eq hx]
  rfl

end TypeLint.Syntax
