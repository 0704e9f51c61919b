import TypeLint.Proofs.Emission.Bare
import TypeLint.Proofs.Emission.Walks
import TypeLint.Proofs.Text.Patch

namespace TypeLint.Syntax.Spot

open Text Green

variable {file : String} {recast : Nat → Green → Green} {edits : Spot → List TextEdit}
  {first offset : Nat} {parent : NodeRef} {gs : List Green}

/-- The edits of a spot turn its text into the text after a change. -/
def Patched (file : String) (recast : Nat → Green → Green) (x : Spot) (edits : List TextEdit) :
    Prop :=
  Patch file x.offset x.green.text (x.green.rewrite recast x.first).text edits

/-- Patches for trees in a row make one for the row. -/
theorem patch_row (h : ∀ c ∈ row first offset parent gs, Patched file recast c (edits c)) :
    Patch file offset (textAll gs) (textAll (rewriteAll recast first gs))
      ((row first offset parent gs).flatMap edits) := by
  induction gs generalizing first offset with
  | nil => exact .keep _ _
  | cons g gs ih =>
    rw [row_cons, List.forall_mem_cons] at h
    exact .append h.1 (ih h.2)

/-- The edit that puts a text in place of trees between others, without the trivia that is
    kept. -/
def cutEdit (file : String) (offset : Nat) (front cut : List Green) (kept new : String) :
    TextEdit :=
  ⟨file, offset + byteLength (textAll front) + byteLength kept,
    offset + byteLength (textAll front) + byteLength (textAll cut), new⟩

/-- A change that keeps some trees at both ends of a row and puts a text in place of the others,
    whose first trivia it may keep, too. -/
theorem patch_cut {front cut behind : List Green} {kept removed : String} (new : String)
    (h : ∀ c ∈ row first offset parent (front ++ (cut ++ behind)), Patched file recast c (edits c))
    (hcut : textAll cut = kept ++ removed) :
    Patch file offset (textAll (front ++ (cut ++ behind)))
      (textAll (rewriteAll recast first front) ++ (kept ++ (new ++
        textAll (rewriteAll recast (first + sizeAll front + sizeAll cut) behind))))
      ((row first offset parent front).flatMap edits ++
        (cutEdit file offset front cut kept new ::
          (row (first + sizeAll front + sizeAll cut)
            (offset + byteLength (textAll front) + byteLength (textAll cut)) parent
            behind).flatMap edits)) := by
  rw [row_append, row_append, List.forall_mem_append, List.forall_mem_append] at h
  obtain ⟨hfront, -, hbehind⟩ := h
  have hstop : offset + byteLength (textAll front) + byteLength (textAll cut) =
      offset + byteLength (textAll front) + byteLength kept + byteLength removed := by
    rw [hcut, byteLength_append, Nat.add_assoc, Nat.add_assoc, Nat.add_assoc]
  have hrest := patch_row hbehind
  rw [hstop] at hrest
  rw [cutEdit, hstop]
  rw [textAll_append, textAll_append, hcut, String.append_assoc]
  exact .append (patch_row hfront) (.append (.keep _ kept) (.append (.change _ removed new) hrest))

end TypeLint.Syntax.Spot

namespace TypeLint.Syntax

open Text Green

/-- A change of nodes that concerns at most the node with a given number. -/
def ChangesOnly (target : Nat) (recast : Nat → Green → Green) : Prop :=
  ∀ n g, n ≠ target → recast n g = g

variable {target : Nat} {recast : Nat → Green → Green}

namespace Green

mutual

/-- A tree without the node stays as it is. -/
theorem rewrite_outside (h : ChangesOnly target recast) (first : Nat) (g : Green)
    (hout : target < first ∨ first + g.size ≤ target) : g.rewrite recast first = g.bare := by
  cases g with
  | token lead kind text payload labels => rfl
  | node kind flags payload children labels =>
    have hsize : (node kind flags payload children labels).size = sizeAll children + 1 := rfl
    rw [rewrite, rewriteAll_outside h first children (by omega), h _ _ (by omega), bare]
    split
    · rw [setLead, ← leadAll_bareAll, setLeadAll_leadAll]
    · rfl

theorem rewriteAll_outside (h : ChangesOnly target recast) (first : Nat) (gs : List Green)
    (hout : target < first ∨ first + sizeAll gs ≤ target) :
    rewriteAll recast first gs = bareAll gs := by
  cases gs with
  | nil => rfl
  | cons g gs =>
    have hsize := sizeAll_cons g gs
    rw [rewriteAll, bareAll, rewrite_outside h first g (by omega),
      rewriteAll_outside h _ gs (by omega)]

end

/-- Another node than the one that is changed has the changed trees below it. -/
theorem rewrite_node (h : ChangesOnly target recast) {first : Nat} {kind : Kind} {flags : Nat}
    {payload : Payload} {children : List Green} {labels : List String}
    (hne : first + sizeAll children ≠ target) :
    (node kind flags payload children labels).rewrite recast first =
      node kind 0 .empty (rewriteAll recast first children) [] := by
  rw [rewrite, h _ _ hne]
  split
  · rw [setLead, setLeadAll_rewriteAll]
  · rfl

/-- Of trees in a row that have the node in one of them, only that one changes. -/
theorem rewriteAll_around (h : ChangesOnly target recast) (first : Nat) (before : List Green)
    (g : Green) (after : List Green) (hlow : first + sizeAll before ≤ target)
    (hhigh : target < first + sizeAll before + g.size) :
    rewriteAll recast first (before ++ g :: after) =
      bareAll before ++ g.rewrite recast (first + sizeAll before) :: bareAll after := by
  rw [rewriteAll_append, rewriteAll, rewriteAll_outside h first before (by omega),
    rewriteAll_outside h _ after (by omega)]

end Green

namespace Spot

/-- The numbers of the spots below a spot lie between the first one and its own. -/
theorem number_of_mem_all {s x : Spot} (hx : x ∈ s.all) :
    s.first ≤ x.number ∧ x.number ≤ s.number := by
  have hmem : x.number ∈ List.range' s.first s.green.size := by
    rw [← map_number_all]
    exact List.mem_map_of_mem hx
  have hnumber : s.number = s.first + s.green.sizeBelow := rfl
  rw [List.mem_range'_1, Green.size] at hmem
  omega

/-- The trees in front of a child and behind it. -/
theorem exists_around_of_mem_children {s c : Spot} (hc : c ∈ s.children) :
    ∃ kind flags payload before after labels,
      s.green = .node kind flags payload (before ++ c.green :: after) labels ∧
        c.first = s.first + sizeAll before ∧ c.offset = s.offset + byteLength (textAll before) := by
  cases hs : s.green with
  | token lead kind text payload labels => simp [children, hs] at hc
  | node kind flags payload gs labels =>
    rw [children_of_node hs] at hc
    obtain ⟨before, after, rfl, hfirst, hoffset, -⟩ := mem_row hc
    exact ⟨kind, flags, payload, before, after, labels, rfl, hfirst, hoffset⟩

/-- What becomes of a node above the one that is changed. -/
theorem rewrite_above (h : ChangesOnly target recast) {s c : Spot} {kind : Kind} {flags : Nat}
    {payload : Payload} {before after : List Green} {labels : List String}
    (hs : s.green = .node kind flags payload (before ++ c.green :: after) labels)
    (hfirst : c.first = s.first + sizeAll before) (hlow : c.first ≤ target)
    (hhigh : target ≤ c.number) :
    s.green.rewrite recast s.first =
      .node kind 0 .empty
        (bareAll before ++ c.green.rewrite recast c.first :: bareAll after) [] := by
  have hsize := sizeAll_append before (c.green :: after)
  rw [sizeAll_cons] at hsize
  have hsizes : c.number = c.first + c.green.sizeBelow ∧ c.green.size = c.green.sizeBelow + 1 :=
    ⟨rfl, rfl⟩
  rw [hs, rewrite_node h (by omega), rewriteAll_around h _ _ _ _ (by omega) (by omega), hfirst]

/-- Edits for the changed node are edits for everything around it. -/
theorem Patched.around {file : String} {edits : List TextEdit} (h : ChangesOnly target recast)
    {s x : Spot} (hx : x ∈ s.all) (hnumber : x.number = target)
    (hpatch : x.Patched file recast edits) : s.Patched file recast edits := by
  induction s using inductionOnChildren with
  | step s ih =>
    rcases mem_all_iff.mp hx with ⟨c, hc, hx⟩ | rfl
    · obtain ⟨kind, flags, payload, before, after, labels, hs, hfirst, hoffset⟩ :=
        exists_around_of_mem_children hc
      have hchild := ih c hc hx
      have hnumbers := number_of_mem_all hx
      rw [hnumber] at hnumbers
      rw [Patched, rewrite_above h hs hfirst hnumbers.1 hnumbers.2, hs]
      simp only [Green.text, textAll_append, textAll, textAll_bareAll]
      rw [Patched, hoffset] at hchild
      rw [← List.nil_append edits, ← List.append_nil edits]
      exact .append (.keep _ _) (.append hchild (.keep _ _))
    · exact hpatch

/-- A child of the bare tree is the bare tree of a child. -/
theorem exists_child_of_bare {s : Spot} {kind : Kind} (before : List Green) (g : Green)
    (after : List Green) (h : s.green.bare = .node kind 0 .empty (before ++ g :: after) []) :
    ∃ c ∈ s.children, c.green.bare = g ∧ c.first = s.first + sizeAll before := by
  cases hs : s.green with
  | token lead kind text payload labels =>
    rw [hs] at h
    cases h
  | node kind' flags payload gs labels =>
    rw [hs, Green.bare] at h
    injection h with _ _ _ hgs
    rw [bareAll_eq_map, List.map_eq_append_iff] at hgs
    obtain ⟨front, rest, rfl, hfront, hrest⟩ := hgs
    obtain ⟨inner, behind, rfl, hinner, -⟩ := List.map_eq_cons_iff.mp hrest
    have hsize : sizeAll front = sizeAll before := by
      rw [← hfront, ← bareAll_eq_map, sizeAll_bareAll]
    rw [children_of_node hs, row_append, row_cons]
    exact ⟨_, List.mem_append_right _ (List.mem_cons_self ..), hinner, congrArg _ hsize⟩

theorem number_lt_of_mem_children {s c : Spot} (hc : c ∈ s.children) : c.number < s.number := by
  obtain ⟨kind, flags, payload, before, after, labels, hs, hfirst, -⟩ :=
    exists_around_of_mem_children hc
  have hsize := sizeAll_append before (c.green :: after)
  rw [number, number, hs, sizeBelow, hfirst, hsize, sizeAll_cons, Green.size]
  omega

/-- A spot of a tree and the spot in the same place of the changed tree, with the spots right above
    them unless they are the outermost ones. -/
structure SamePlace (recast : Nat → Green → Green) (s s' x x' : Spot) : Prop where
  mem : x ∈ s.all
  mem' : x' ∈ s'.all
  first : x'.first = x.first
  bare : x'.green.bare = x.green.rewrite recast x.first
  above : (x = s ∧ x' = s') ∨
    ∃ y ∈ s.all, ∃ y' ∈ s'.all, x ∈ y.children ∧ x' ∈ y'.children ∧
      y'.green.bare = y.green.rewrite recast y.first

/-- The changed node has its place in the changed tree. -/
theorem exists_samePlace (h : ChangesOnly target recast) {s s' x : Spot} (hx : x ∈ s.all)
    (hnumber : x.number = target) (hfirst : s'.first = s.first)
    (hbare : s'.green.bare = s.green.rewrite recast s.first) :
    ∃ x', SamePlace recast s s' x x' := by
  induction s using inductionOnChildren generalizing s' with
  | step s ih =>
    rcases mem_all_iff.mp hx with ⟨c, hc, hxc⟩ | rfl
    · obtain ⟨kind, flags, payload, before, after, labels, hs, hcfirst, -⟩ :=
        exists_around_of_mem_children hc
      have hnumbers := number_of_mem_all hxc
      rw [hnumber] at hnumbers
      obtain ⟨c', hc', hcbare, hcfirst'⟩ := exists_child_of_bare _ _ _
        (hbare.trans (rewrite_above h hs hcfirst hnumbers.1 hnumbers.2))
      rw [sizeAll_bareAll, hfirst, ← hcfirst] at hcfirst'
      obtain ⟨x', hplace⟩ := ih c hc hxc hcfirst' hcbare
      refine ⟨x', mem_all_iff.mpr (.inl ⟨c, hc, hxc⟩), mem_all_iff.mpr (.inl ⟨c', hc', hplace.mem'⟩),
        hplace.first, hplace.bare, .inr ?_⟩
      rcases hplace.above with ⟨rfl, rfl⟩ | ⟨y, hy, y', hy', habove⟩
      · exact ⟨s, s.self_mem_all, s', s'.self_mem_all, hc, hc', hbare⟩
      · exact ⟨y, mem_all_iff.mpr (.inl ⟨c, hc, hy⟩), y', mem_all_iff.mpr (.inl ⟨c', hc', hy'⟩),
          habove⟩
    · exact ⟨s', hx, s'.self_mem_all, hfirst, hbare, .inl ⟨rfl, rfl⟩⟩

end Spot

end TypeLint.Syntax
