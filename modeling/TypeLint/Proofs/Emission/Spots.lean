import Mathlib
import TypeLint.Syntax.Green
import TypeLint.Proofs.Text.Slices

namespace TypeLint.Syntax

open Text

namespace Green

mutual

/-- The number of nodes of a tree without the outermost one. -/
def sizeBelow : Green → Nat
  | token .. => 0
  | node _ _ _ children _ => sizeAll children

/-- The number of nodes of several trees. -/
def sizeAll : List Green → Nat
  | [] => 0
  | g :: gs => g.sizeBelow + 1 + sizeAll gs

end

/-- The number of nodes of a tree. -/
def size (g : Green) : Nat := g.sizeBelow + 1

mutual

/-- The trivia in front of the first token of a tree. -/
def lead : Green → String
  | token lead _ _ _ _ => lead
  | node _ _ _ children _ => leadAll children

/-- The trivia in front of the first token of several trees. -/
def leadAll : List Green → String
  | [] => ""
  | g :: _ => g.lead

end

mutual

/-- The text of a tree behind its leading trivia. -/
def body : Green → String
  | token _ _ text _ _ => text
  | node _ _ _ children _ => bodyAll children

/-- The text of several trees behind their leading trivia. -/
def bodyAll : List Green → String
  | [] => ""
  | g :: gs => g.body ++ textAll gs

end

mutual

theorem text_eq (g : Green) : g.text = g.lead ++ g.body := by
  cases g with
  | token lead kind text payload labels => rfl
  | node kind flags payload children labels => exact textAll_eq children

theorem textAll_eq (gs : List Green) : textAll gs = leadAll gs ++ bodyAll gs := by
  cases gs with
  | nil => rfl
  | cons g gs =>
    simp only [textAll, leadAll, bodyAll, text_eq g, String.append_assoc]

end

theorem textAll_append (gs hs : List Green) : textAll (gs ++ hs) = textAll gs ++ textAll hs := by
  induction gs with
  | nil => simp [textAll]
  | cons g gs ih => simp only [List.cons_append, textAll, ih, String.append_assoc]

theorem size_node (kind : Kind) (flags : Nat) (payload : Payload) (children : List Green)
    (labels : List String) :
    (node kind flags payload children labels).size = sizeAll children + 1 := rfl

theorem sizeAll_nil : sizeAll [] = 0 := rfl

theorem sizeAll_cons (g : Green) (gs : List Green) : sizeAll (g :: gs) = g.size + sizeAll gs := rfl

theorem sizeAll_append (gs hs : List Green) : sizeAll (gs ++ hs) = sizeAll gs + sizeAll hs := by
  induction gs with
  | nil => simp [sizeAll]
  | cons g gs ih => simp only [List.cons_append, sizeAll, ih, Nat.add_assoc]

/-- The outermost node is a token. -/
def isLeaf : Green → Bool
  | token .. => true
  | node .. => false

/-- The payload of the outermost node over children with the given references. -/
def payloadOver (refs : List NodeRef) : Green → Payload
  | token _ _ _ payload _ => payload
  | node _ _ payload _ _ => payload.mapLinks (Emission.resolveLink refs)

end Green

/-- A subtree and where it is emitted. -/
structure Spot where
  /-- The number of the first node. -/
  first : Nat
  /-- Where the text begins, the leading trivia included. -/
  offset : Nat
  parent : NodeRef
  green : Green

namespace Spot

/-- The number of the outermost node, which is emitted last. -/
def number (s : Spot) : Nat := s.first + s.green.sizeBelow

/-- The reference to the outermost node. -/
def ref (s : Spot) : NodeRef := some s.number

/-- The spots of trees one behind the other. -/
def row (first offset : Nat) (parent : NodeRef) : List Green → List Spot
  | [] => []
  | g :: gs =>
    ⟨first, offset, parent, g⟩ :: row (first + g.size) (offset + byteLength g.text) parent gs

/-- The spots of the children. -/
def children (s : Spot) : List Spot :=
  match s.green with
  | .token .. => []
  | .node _ _ _ children _ => row s.first s.offset s.ref children

/-- Where the first token begins. -/
def start (s : Spot) : Nat := s.offset + byteLength s.green.lead

/-- Where the text ends. -/
def stop (s : Spot) : Nat := s.offset + byteLength s.green.text

theorem stop_eq (s : Spot) : s.stop = s.start + byteLength s.green.body := by
  rw [stop, start, Green.text_eq, byteLength_append, Nat.add_assoc]

/-- The outermost node. -/
def node (s : Spot) : Node :=
  let refs := s.children.map ref
  ⟨s.green.kind, s.green.flags, s.offset, s.start, s.stop, s.parent, refs,
    s.green.payloadOver refs⟩

theorem node_pos_le_start (s : Spot) : s.node.pos ≤ s.node.start := Nat.le_add_right ..

theorem node_start_le_stop (s : Spot) : s.node.start ≤ s.node.stop := by
  have htext := s.green.text_eq
  simp only [node, start, stop, htext, byteLength_append]
  omega

end Spot

namespace Green

mutual

/-- The spots below the outermost node of a tree, children before their parents. -/
def spotsBelow (first offset : Nat) : Green → List Spot
  | token .. => []
  | node _ _ _ children _ => spotsAll first offset (some (first + sizeAll children)) children

/-- The spots of trees one behind the other, with everything below them. -/
def spotsAll (first offset : Nat) (parent : NodeRef) : List Green → List Spot
  | [] => []
  | g :: gs =>
    g.spotsBelow first offset ++ ⟨first, offset, parent, g⟩ ::
      spotsAll (first + g.size) (offset + byteLength g.text) parent gs

end

end Green

namespace Spot

/-- The spots below a spot. -/
def below (s : Spot) : List Spot := s.green.spotsBelow s.first s.offset

/-- A spot and those below it, in the order of their numbers. -/
def all (s : Spot) : List Spot := s.below ++ [s]

theorem below_eq (s : Spot) : s.below = s.children.flatMap all := by
  have hrow (first offset : Nat) (parent : NodeRef) (gs : List Green) :
      Green.spotsAll first offset parent gs = (row first offset parent gs).flatMap all := by
    induction gs generalizing first offset with
    | nil => rfl
    | cons g gs ih => simp [Green.spotsAll, row, all, below, ih]
  obtain ⟨first, offset, parent, g⟩ := s
  cases g with
  | token lead kind text payload labels => rfl
  | node kind flags payload children labels => exact hrow ..

theorem all_eq (s : Spot) : s.all = s.children.flatMap all ++ [s] := by
  rw [all, below_eq]

theorem self_mem_all (s : Spot) : s ∈ s.all := by simp [all]

theorem mem_all_iff {s x : Spot} : x ∈ s.all ↔ (∃ c ∈ s.children, x ∈ c.all) ∨ x = s := by
  simp [all_eq s]

@[simp] theorem row_nil (first offset : Nat) (parent : NodeRef) :
    row first offset parent [] = [] := rfl

@[simp] theorem row_cons (first offset : Nat) (parent : NodeRef) (g : Green) (gs : List Green) :
    row first offset parent (g :: gs) =
      ⟨first, offset, parent, g⟩ ::
        row (first + g.size) (offset + byteLength g.text) parent gs := rfl

theorem row_append (first offset : Nat) (parent : NodeRef) (gs hs : List Green) :
    row first offset parent (gs ++ hs) =
      row first offset parent gs ++
        row (first + Green.sizeAll gs) (offset + byteLength (Green.textAll gs)) parent hs := by
  induction gs generalizing first offset with
  | nil => simp [Green.sizeAll, Green.textAll]
  | cons g gs ih =>
    simp only [List.cons_append, row_cons, ih, Green.sizeAll, Green.textAll, Green.size,
      byteLength_append, Nat.add_assoc]

/-- A spot in a row comes behind the trees in front of it. -/
theorem mem_row {first offset : Nat} {parent : NodeRef} {gs : List Green} {x : Spot}
    (hx : x ∈ row first offset parent gs) :
    ∃ before after, gs = before ++ x.green :: after ∧ x.first = first + Green.sizeAll before ∧
      x.offset = offset + byteLength (Green.textAll before) ∧ x.parent = parent := by
  induction gs generalizing first offset with
  | nil => simp at hx
  | cons g gs ih =>
    rw [row_cons, List.mem_cons] at hx
    rcases hx with rfl | hx
    · exact ⟨[], gs, by simp [Green.sizeAll, Green.textAll]⟩
    · obtain ⟨before, after, hgs, hfirst, hoffset, hparent⟩ := ih hx
      refine ⟨g :: before, after, by rw [hgs, List.cons_append], ?_, ?_, hparent⟩
      · simp only [hfirst, Green.sizeAll, Green.size]
        omega
      · simp only [hoffset, Green.textAll, byteLength_append]
        omega

theorem head?_row (first offset : Nat) (parent : NodeRef) (gs : List Green) :
    (row first offset parent gs).head? = gs.head?.map fun g => ⟨first, offset, parent, g⟩ := by
  cases gs <;> rfl

/-- The last of the spots in a row ends where the text of the trees ends. -/
theorem stop_of_mem_getLast? {first offset : Nat} {parent : NodeRef} {gs : List Green} {x : Spot}
    (hx : x ∈ (row first offset parent gs).getLast?) :
    x.stop = offset + byteLength (Green.textAll gs) := by
  rcases gs.eq_nil_or_concat with rfl | ⟨front, g, rfl⟩
  · simp at hx
  · simp only [List.concat_eq_append, row_append, row_cons, row_nil, List.getLast?_concat,
      Option.mem_def, Option.some.injEq] at hx
    subst hx
    simp [stop, Green.textAll_append, Green.textAll, Nat.add_assoc]

@[simp] theorem map_green_row (first offset : Nat) (parent : NodeRef) (gs : List Green) :
    (row first offset parent gs).map green = gs := by
  induction gs generalizing first offset with
  | nil => rfl
  | cons g gs ih => simp [ih]

@[simp] theorem length_row (first offset : Nat) (parent : NodeRef) (gs : List Green) :
    (row first offset parent gs).length = gs.length := by
  rw [← List.length_map green, map_green_row]

theorem map_ref_row (first offset : Nat) (parent parent' : NodeRef) (gs : List Green) :
    (row first offset parent gs).map ref = (row first offset parent' gs).map ref := by
  induction gs generalizing first offset with
  | nil => rfl
  | cons g gs ih => simp [ih _ _, ref, number]

theorem children_of_node {s : Spot} {kind : Kind} {flags : Nat} {payload : Payload}
    {gs : List Green} {labels : List String} (hs : s.green = .node kind flags payload gs labels) :
    s.children = row s.first s.offset s.ref gs := by
  simp [children, hs]

theorem parent_of_mem_children {s c : Spot} (hc : c ∈ s.children) : c.parent = s.ref := by
  cases hs : s.green with
  | token lead kind text payload labels => simp [children, hs] at hc
  | node kind flags payload gs labels =>
    rw [children_of_node hs] at hc
    obtain ⟨_, _, _, _, _, hparent⟩ := mem_row hc
    exact hparent

theorem sizeBelow_lt_of_mem_children {s c : Spot} (hc : c ∈ s.children) :
    c.green.sizeBelow < s.green.sizeBelow := by
  cases hs : s.green with
  | token lead kind text payload labels => simp [children, hs] at hc
  | node kind flags payload gs labels =>
    rw [children_of_node hs] at hc
    obtain ⟨before, after, hgs, -⟩ := mem_row hc
    simp only [Green.sizeBelow, hgs, Green.sizeAll_append, Green.sizeAll]
    omega

/-- What holds of a spot when it holds of its children holds of every spot. -/
theorem inductionOnChildren {motive : Spot → Prop}
    (step : ∀ s, (∀ c ∈ s.children, motive c) → motive s) (s : Spot) : motive s := by
  induction hn : s.green.sizeBelow using Nat.strong_induction_on generalizing s with
  | _ n ih =>
    subst hn
    exact step s fun c hc => ih _ (sizeBelow_lt_of_mem_children hc) c rfl

theorem children_subset_all {s x c : Spot} (hx : x ∈ s.all) (hc : c ∈ x.children) :
    c ∈ s.all := by
  induction s using inductionOnChildren with
  | step s ih =>
    rw [mem_all_iff] at hx ⊢
    rcases hx with ⟨d, hd, hx⟩ | rfl
    · exact Or.inl ⟨d, hd, ih d hd hx⟩
    · exact Or.inl ⟨c, hc, c.self_mem_all⟩

theorem all_subset_all {s x y : Spot} (hx : x ∈ s.all) (hy : y ∈ x.all) : y ∈ s.all := by
  induction s using inductionOnChildren with
  | step s ih =>
    rcases mem_all_iff.mp hx with ⟨c, hc, hx⟩ | rfl
    · exact mem_all_iff.mpr (Or.inl ⟨c, hc, ih c hc hx⟩)
    · exact hy

/-- The spots are numbered without gaps. -/
theorem map_number_all (s : Spot) : s.all.map number = List.range' s.first s.green.size := by
  induction s using inductionOnChildren with
  | step s ih =>
    have hrow (first offset : Nat) (parent : NodeRef) (gs : List Green)
        (h : ∀ c ∈ row first offset parent gs,
          c.all.map number = List.range' c.first c.green.size) :
        ((row first offset parent gs).flatMap all).map number =
          List.range' first (Green.sizeAll gs) := by
      induction gs generalizing first offset with
      | nil => rfl
      | cons g gs ih =>
        rw [row_cons, List.forall_mem_cons] at h
        rw [row_cons, List.flatMap_cons, List.map_append, h.1, ih _ _ h.2]
        simp [Green.sizeAll, Green.size, List.range'_append_1]
    rw [all_eq, List.map_append]
    cases hs : s.green with
    | token lead kind text payload labels =>
      simp [children, hs, number, Green.size, Green.sizeBelow]
    | node kind flags payload gs labels =>
      rw [children_of_node hs] at ih ⊢
      rw [hrow _ _ _ _ ih]
      simp [number, hs, Green.size, Green.sizeBelow, List.range'_concat]

theorem length_all (s : Spot) : s.all.length = s.green.size := by
  rw [← List.length_map number, map_number_all, List.length_range']

theorem length_below (s : Spot) : s.below.length = s.green.sizeBelow := by
  have h := s.length_all
  simp only [all, List.length_append, List.length_singleton, Green.size] at h
  omega

theorem length_spotsAll (first offset : Nat) (parent : NodeRef) (gs : List Green) :
    (Green.spotsAll first offset parent gs).length = Green.sizeAll gs := by
  induction gs generalizing first offset with
  | nil => rfl
  | cons g gs ih =>
    have hbelow := length_below ⟨first, offset, parent, g⟩
    simp only [below] at hbelow
    simp only [Green.spotsAll, Green.sizeAll, List.length_append, List.length_cons, hbelow, ih]
    omega

/-- The text of a spot stands in the text of every spot above it at its offset. -/
theorem exists_text_eq {s x : Spot} (hx : x ∈ s.all) :
    ∃ before after, s.green.text = before ++ x.green.text ++ after ∧
      x.offset = s.offset + byteLength before := by
  induction s using inductionOnChildren with
  | step s ih =>
    rcases mem_all_iff.mp hx with ⟨c, hc, hx⟩ | rfl
    · cases hs : s.green with
      | token lead kind text payload labels => simp [children, hs] at hc
      | node kind flags payload gs labels =>
        obtain ⟨before, after, htext, hoffset⟩ := ih c hc hx
        rw [children_of_node hs] at hc
        obtain ⟨front, rest, hgs, -, hc, -⟩ := mem_row hc
        refine ⟨Green.textAll front ++ before, after ++ Green.textAll rest, ?_, ?_⟩
        · simp only [Green.text, hgs, Green.textAll_append, Green.textAll, htext,
            String.append_assoc]
        · rw [hoffset, hc, byteLength_append]
          omega
    · exact ⟨"", "", by simp⟩

end Spot

namespace Green

mutual

/-- A tree and those below it have a property. -/
def Every (P : Green → Prop) : Green → Prop
  | token lead kind text payload labels => P (token lead kind text payload labels)
  | node kind flags payload children labels =>
    P (node kind flags payload children labels) ∧ EveryIn P children

/-- Trees and those below them have a property. -/
def EveryIn (P : Green → Prop) : List Green → Prop
  | [] => True
  | g :: gs => g.Every P ∧ EveryIn P gs

end

theorem everyIn_iff {P : Green → Prop} {gs : List Green} :
    EveryIn P gs ↔ ∀ g ∈ gs, g.Every P := by
  induction gs with
  | nil => simp [EveryIn]
  | cons g gs ih => simp [EveryIn, ih]

theorem Every.self {P : Green → Prop} {g : Green} (h : g.Every P) : P g := by
  cases g with
  | token lead kind text payload labels => exact h
  | node kind flags payload children labels => exact h.1

theorem Every.imp {P Q : Green → Prop} (h : ∀ g, P g → Q g) {g : Green} (hg : g.Every P) :
    g.Every Q := by
  have hall (s : Spot) : s.green.Every P → s.green.Every Q := by
    induction s using Spot.inductionOnChildren with
    | step s ih =>
      intro hs
      cases hgreen : s.green with
      | token lead kind text payload labels =>
        rw [hgreen] at hs
        exact h _ hs
      | node kind flags payload gs labels =>
        rw [hgreen] at hs
        refine ⟨h _ hs.1, everyIn_iff.mpr fun c hc => ?_⟩
        rw [← Spot.map_green_row s.first s.offset s.ref gs, ← Spot.children_of_node hgreen,
          List.mem_map] at hc
        obtain ⟨x, hx, rfl⟩ := hc
        refine ih x hx (everyIn_iff.mp hs.2 x.green ?_)
        rw [Spot.children_of_node hgreen] at hx
        have hmem := List.mem_map_of_mem (f := Spot.green) hx
        rwa [Spot.map_green_row] at hmem
  exact hall ⟨0, 0, none, g⟩ hg

theorem Every.of_mem_all {P : Green → Prop} {s x : Spot} (h : s.green.Every P)
    (hx : x ∈ s.all) : x.green.Every P := by
  induction s using Spot.inductionOnChildren with
  | step s ih =>
    rcases Spot.mem_all_iff.mp hx with ⟨c, hc, hx⟩ | rfl
    · cases hs : s.green with
      | token lead kind text payload labels => simp [Spot.children, hs] at hc
      | node kind flags payload gs labels =>
        rw [hs] at h
        refine ih c hc (everyIn_iff.mp h.2 c.green ?_) hx
        rw [Spot.children_of_node hs] at hc
        have hmem := List.mem_map_of_mem (f := Spot.green) hc
        rwa [Spot.map_green_row] at hmem
    · exact h

end Green

end TypeLint.Syntax
