import TypeLint.Syntax.Query
import TypeLint.Proofs.Emission.Emit

namespace TypeLint.Syntax

open Text

namespace Green

/-- The outermost node has the kind of a token if it is one, and no other kind of token. -/
def KindFits (g : Green) : Prop := g.kind.isToken = g.isLeaf

mutual

/-- The spots below the outermost node of a tree, parents before their children. -/
def walkBelow (first offset : Nat) : Green → List Spot
  | token .. => []
  | node _ _ _ children _ => walkAll first offset (some (first + sizeAll children)) children

/-- The spots of trees one behind the other, with everything below them, parents before their
    children. -/
def walkAll (first offset : Nat) (parent : NodeRef) : List Green → List Spot
  | [] => []
  | g :: gs =>
    ⟨first, offset, parent, g⟩ :: (g.walkBelow first offset ++
      walkAll (first + g.size) (offset + byteLength g.text) parent gs)

end

end Green

namespace Spot

/-- A spot and those below it in document order, parents before their children. -/
def walk (s : Spot) : List Spot := s :: s.green.walkBelow s.first s.offset

theorem walk_eq (s : Spot) : s.walk = s :: s.children.flatMap walk := by
  have hrow (first offset : Nat) (parent : NodeRef) (gs : List Green) :
      Green.walkAll first offset parent gs = (row first offset parent gs).flatMap walk := by
    induction gs generalizing first offset with
    | nil => rfl
    | cons g gs ih => simp [Green.walkAll, row, walk, ih]
  obtain ⟨first, offset, parent, g⟩ := s
  cases g with
  | token lead kind text payload labels => rfl
  | node kind flags payload children labels => exact congrArg _ (hrow ..)

/-- Both orders of the spots have the same spots. -/
theorem walk_perm_all (s : Spot) : s.walk.Perm s.all := by
  induction s using inductionOnChildren with
  | step s ih =>
    rw [walk_eq, all_eq]
    have hbelow : (s.children.flatMap walk).Perm (s.children.flatMap all) :=
      List.Perm.flatMap_left _ ih
    exact (hbelow.cons s).trans (List.perm_append_singleton s _).symm

/-- The tokens of a spot in document order. -/
def tokens (s : Spot) : List Spot := s.walk.filter fun x => x.green.kind.isToken

/-- A token is its only token, and the tokens of another node are those of its children. -/
theorem tokens_eq {s : Spot} (h : s.green.KindFits) :
    s.tokens = if s.green.isLeaf then [s] else s.children.flatMap tokens := by
  rw [tokens, walk_eq, List.filter_cons, h, List.filter_flatMap]
  cases hs : s.green with
  | token lead kind text payload labels => simp [Green.isLeaf, children, hs]
  | node kind flags payload gs labels => rfl

theorem nodup_map_number_all (s : Spot) : (s.all.map number).Nodup := by
  rw [map_number_all]
  exact List.nodup_range'

theorem all_nodup (s : Spot) : s.all.Nodup := s.nodup_map_number_all.of_map

theorem eq_of_number_eq {s x y : Spot} (hx : x ∈ s.all) (hy : y ∈ s.all)
    (h : x.number = y.number) : x = y :=
  List.inj_on_of_nodup_map s.nodup_map_number_all hx hy h

/-- The spots with the numbers of some spots are these spots. -/
theorem filter_number_perm {l xs : List Spot} (hl : (l.map number).Nodup) (hxs : xs.Nodup)
    (hsub : xs ⊆ l) : (l.filter fun x => (xs.map number).contains x.number).Perm xs := by
  refine (List.perm_ext_iff_of_nodup (hl.of_map.filter _) hxs).mpr fun x => ?_
  rw [List.mem_filter, List.contains_iff_mem, List.mem_map]
  constructor
  · rintro ⟨hx, y, hy, hnumber⟩
    exact List.inj_on_of_nodup_map hl (hsub hy) hx hnumber ▸ hy
  · exact fun hx => ⟨hsub hx, x, hx, rfl⟩

theorem ref_injOn {s x y : Spot} (hx : x ∈ s.all) (hy : y ∈ s.all) (h : x.ref = y.ref) : x = y :=
  eq_of_number_eq hx hy (Option.some.inj h)

theorem nodup_map_ref {s : Spot} {xs : List Spot} (hxs : xs.Sublist s.all) :
    (xs.map ref).Nodup :=
  (s.all_nodup.sublist hxs).map_on fun _ hx _ hy => ref_injOn (hxs.subset hx) (hxs.subset hy)

theorem children_sublist_all (s : Spot) : s.children.Sublist s.all := by
  have hflat (xs : List Spot) : xs.Sublist (xs.flatMap all) := by
    induction xs with
    | nil => exact .slnil
    | cons x xs ih =>
      rw [List.flatMap_cons, ← List.singleton_append]
      exact (List.singleton_sublist.mpr x.self_mem_all).append ih
  rw [all_eq]
  exact (hflat _).trans (List.sublist_append_left _ _)

theorem nodup_map_ref_children (s : Spot) : (s.children.map ref).Nodup :=
  nodup_map_ref s.children_sublist_all

end Spot

/-- The nodes of a tree are those of a spot and of the spots below it. -/
structure Tree.Shows (t : Tree) (s : Spot) : Prop where
  first : s.first = 0
  parent : s.parent = none
  nodes : t.nodes.toList = s.all.map Spot.node

theorem Green.emit_shows (g : Green) : (g.emit .start).2.tree.Shows ⟨0, 0, none, g⟩ where
  first := rfl
  parent := rfl
  nodes := (g.emit_eq .start).2.2

namespace Tree.Shows

variable {t : Tree} {s x : Spot}

theorem size_eq (h : t.Shows s) : t.size = s.green.size := by
  rw [Tree.size, ← Array.length_toList, h.nodes, List.length_map, s.length_all]

/-- The reference to a spot leads to its node. -/
theorem get?_eq (h : t.Shows s) (hx : x ∈ s.all) : t.get? x.ref = some x.node := by
  obtain ⟨i, hi, hget⟩ := List.getElem_of_mem hx
  have hnumber : x.number = i := by
    have hi' : i < (s.all.map Spot.number).length := by simpa using hi
    have hmap : (s.all.map Spot.number)[i] = x.number := by simp [hget]
    simp only [Spot.map_number_all, h.first, List.getElem_range'] at hmap
    omega
  rw [Spot.ref, Tree.get?_some, h.nodes, hnumber, List.getElem?_map, List.getElem?_eq_getElem hi,
    hget]
  rfl

theorem refs_eq (h : t.Shows s) : t.refs = s.all.map Spot.ref := by
  have href : Spot.ref = some ∘ Spot.number := rfl
  rw [href, ← List.map_map, Spot.map_number_all, h.first, Tree.refs, h.size_eq,
    List.range_eq_range']

/-- A node that is found is the node of a spot. -/
theorem exists_of_get? (h : t.Shows s) {r : NodeRef} {n : Node} (hn : t.get? r = some n) :
    ∃ x ∈ s.all, r = x.ref ∧ n = x.node := by
  obtain ⟨i, rfl⟩ : ∃ i, r = some i := by
    cases r with
    | none => cases hn
    | some i => exact ⟨i, rfl⟩
  have hi : some i ∈ t.refs := by
    rw [Tree.get?_some] at hn
    obtain ⟨hlt, -⟩ := List.getElem?_eq_some_iff.mp hn
    simpa [Tree.refs, Tree.size] using hlt
  rw [h.refs_eq, List.mem_map] at hi
  obtain ⟨x, hx, href⟩ := hi
  rw [← href, h.get?_eq hx] at hn
  exact ⟨x, hx, href.symm, (Option.some.inj hn).symm⟩

theorem mem_nodes_iff (h : t.Shows s) {n : Node} : n ∈ t.nodes ↔ ∃ x ∈ s.all, x.node = n := by
  rw [← Array.mem_toList_iff, h.nodes, List.mem_map]

theorem kind?_eq (h : t.Shows s) (hx : x ∈ s.all) : t.kind? x.ref = some x.green.kind := by
  rw [Tree.kind?, h.get?_eq hx]
  rfl

theorem parent_eq (h : t.Shows s) (hx : x ∈ s.all) : t.parent x.ref = x.parent := by
  rw [Tree.parent, h.get?_eq hx]
  rfl

theorem children_eq (h : t.Shows s) (hx : x ∈ s.all) :
    t.children x.ref = x.children.map Spot.ref := by
  rw [Tree.children, h.get?_eq hx]
  rfl

theorem sizeBelow_lt_size (h : t.Shows s) (hx : x ∈ s.all) : x.green.sizeBelow < t.size := by
  have hnumber : x.number ∈ List.range' s.first s.green.size := by
    rw [← Spot.map_number_all]
    exact List.mem_map_of_mem hx
  rw [List.mem_range'_1, h.first] at hnumber
  rw [h.size_eq]
  simp only [Spot.number] at hnumber
  omega

/-- A walk that may go as deep as a spot has nodes below it visits the spot and those below it. -/
theorem preorderTo_eq (h : t.Shows s) (hx : x ∈ s.all) {depth : Nat}
    (hdepth : x.green.sizeBelow ≤ depth) : t.preorderTo depth x.ref = x.walk.map Spot.ref := by
  induction depth generalizing x with
  | zero =>
    have hchildren : x.children = [] := by
      refine List.eq_nil_iff_forall_not_mem.mpr fun c hc => ?_
      have hlt := Spot.sizeBelow_lt_of_mem_children hc
      omega
    rw [Spot.walk_eq, hchildren]
    rfl
  | succ depth ih =>
    rw [Tree.preorderTo, h.children_eq hx, Spot.walk_eq, List.map_cons, List.flatMap_map,
      List.map_flatMap]
    refine congrArg _ (List.flatMap_congr fun c hc => ih (Spot.children_subset_all hx hc) ?_)
    have hlt := Spot.sizeBelow_lt_of_mem_children hc
    omega

theorem preorder_eq (h : t.Shows s) (hx : x ∈ s.all) :
    t.preorder x.ref = x.walk.map Spot.ref := by
  rw [Tree.preorder, h.get?_eq hx, Option.isSome_some, if_pos rfl]
  exact h.preorderTo_eq hx (h.sizeBelow_lt_size hx).le

/-- A walk visits no node twice. -/
theorem nodup_preorder (h : t.Shows s) (r : NodeRef) : (t.preorder r).Nodup := by
  cases hn : t.get? r with
  | none =>
    rw [Tree.preorder, hn]
    exact List.nodup_nil
  | some n =>
    obtain ⟨x, hx, rfl, -⟩ := h.exists_of_get? hn
    rw [h.preorder_eq hx]
    exact (x.walk_perm_all.map Spot.ref).nodup_iff.mpr (Spot.nodup_map_ref (List.Sublist.refl _))

theorem tokens_eq (h : t.Shows s) (hx : x ∈ s.all) : t.tokens x.ref = x.tokens.map Spot.ref := by
  rw [Tree.tokens, h.preorder_eq hx, List.filter_map, Spot.tokens]
  refine congrArg _ (List.filter_congr fun y hy => ?_)
  have hall : y ∈ s.all := Spot.all_subset_all hx (x.walk_perm_all.mem_iff.mp hy)
  rw [Function.comp_apply, Tree.isToken, h.kind?_eq hall]
  rfl

end Tree.Shows

end TypeLint.Syntax
