import TypeLint.Proofs.Program.CommentOrder
import TypeLint.Proofs.Program.Operands

namespace TypeLint.Syntax

open Text

/-- The kind is one of tokens, but not that of the token at the end of a file. -/
def Kind.isInner (k : Kind) : Bool := k.isToken && k != .endOfFileToken

/-- The offset lies in the span of the node, its trivia included. -/
def Tree.Covers (t : Tree) (r : NodeRef) (offset : Nat) : Prop :=
  ∃ n, t.get? r = some n ∧ n.pos ≤ offset ∧ offset < n.stop

/-- The outermost node has the kind of a token if it is one, and is no end-of-file token. -/
def Green.IsInner (g : Green) : Prop := g.KindFits ∧ g.kind ≠ .endOfFileToken

namespace Spot

variable {x y : Spot} {offset : Nat}

/-- The offset lies in the text of the spot. -/
def Covers (x : Spot) (offset : Nat) : Prop := x.offset ≤ offset ∧ offset < x.stop

/-- Spots in a row cover the text of their trees. -/
theorem exists_covers_of_row {first start : Nat} {parent : NodeRef} {gs : List Green}
    (hlow : start ≤ offset) (hhigh : offset < start + byteLength (Green.textAll gs)) :
    ∃ c ∈ row first start parent gs, c.Covers offset := by
  induction gs generalizing first start with
  | nil => exact absurd (hlow.trans_lt hhigh) (lt_irrefl start)
  | cons g gs ih =>
    rw [row_cons]
    by_cases hhere : offset < start + byteLength g.text
    · exact ⟨_, List.mem_cons_self, hlow, hhere⟩
    · rw [Green.textAll, byteLength_append, ← Nat.add_assoc] at hhigh
      obtain ⟨c, hc, hcovers⟩ := @ih (first + g.size) _ (Nat.le_of_not_lt hhere) hhigh
      exact ⟨c, List.mem_cons_of_mem _ hc, hcovers⟩

/-- One of the children covers what a node covers. -/
theorem Covers.exists_child (h : x.Covers offset) (hleaf : x.green.isLeaf = false) :
    ∃ c ∈ x.children, c.Covers offset := by
  cases hx : x.green with
  | token lead kind text payload labels =>
    rw [hx] at hleaf
    cases hleaf
  | node kind flags payload gs labels =>
    obtain ⟨hlow, hhigh⟩ := h
    rw [stop, hx, Green.text] at hhigh
    rw [children_of_node hx]
    exact exists_covers_of_row hlow hhigh

/-- Two tokens that cover an offset are the same. -/
theorem Covers.eq_of_leaf (hx : x.Covers offset) (hy : y.Covers offset) {s : Spot}
    (hxs : x ∈ s.all) (hys : y ∈ s.all) (hxleaf : x.green.isLeaf = true)
    (hyleaf : y.green.isLeaf = true) : x = y := by
  by_contra hne
  obtain ⟨hxlow, hxhigh⟩ := hx
  obtain ⟨hylow, hyhigh⟩ := hy
  have hapart := stop_le_offset_or hxs hys hxleaf hyleaf hne
  omega

/-- The children of a node are some in which no token is an end-of-file token, and such a token. -/
structure EndsWith (s : Spot) (front : List Spot) (last : Spot) : Prop where
  kind : s.green.kind = .sourceFile
  branch : s.green.isLeaf = false
  children : s.children = front ++ [last]
  inner : ∀ c ∈ front, c.green.Every Green.IsInner
  leaf : last.green.isLeaf = true
  lastKind : last.green.kind = .endOfFileToken

namespace EndsWith

variable {s last : Spot} {front : List Spot} (h : s.EndsWith front last)

include h

theorem mem_children_iff : x ∈ s.children ↔ x ∈ front ∨ x = last := by
  rw [h.children, List.mem_append, List.mem_singleton]

theorem last_mem_all : last ∈ s.all :=
  children_subset_all s.self_mem_all (h.mem_children_iff.mpr (.inr rfl))

theorem tokens_eq : s.tokens = front.flatMap tokens ++ [last] := by
  have hfits : s.green.KindFits := by rw [Green.KindFits, h.kind, h.branch]; rfl
  have hlast : last.green.KindFits := by rw [Green.KindFits, h.lastKind, h.leaf]; rfl
  rw [Spot.tokens_eq hfits, if_neg (by rw [h.branch]; exact Bool.false_ne_true), h.children,
    List.flatMap_append, List.flatMap_singleton, Spot.tokens_eq hlast, if_pos h.leaf]

/-- The last child is the only end-of-file token. -/
theorem kind_eq_iff (hx : x ∈ s.all) : x.green.kind = .endOfFileToken ↔ x = last := by
  refine ⟨fun hkind => ?_, fun heq => heq ▸ h.lastKind⟩
  rcases mem_all_iff.mp hx with ⟨c, hc, hxc⟩ | rfl
  · rcases h.mem_children_iff.mp hc with hc | rfl
    · exact absurd hkind ((h.inner c hc).of_mem_all hxc).self.2
    · rw [all_eq, children_eq_nil_of_leaf h.leaf] at hxc
      exact List.mem_singleton.mp hxc
  · cases h.kind.symm.trans hkind

theorem isLeaf_of_mem_tokens (hx : x ∈ s.tokens) : x.green.isLeaf = true := by
  rw [h.tokens_eq, List.mem_append, List.mem_singleton, List.mem_flatMap] at hx
  rcases hx with ⟨c, hc, hx⟩ | rfl
  · have hfits := ((h.inner c hc).of_mem_all (Program.mem_all_of_mem_tokens hx)).self.1
    exact hfits ▸ (List.mem_filter.mp hx).2
  · exact h.leaf

/-- All other tokens stand in front of the last child. -/
theorem stop_le (hx : x ∈ front) : x.stop ≤ last.offset := by
  have hordered := s.children_ordered
  rw [h.children, List.pairwise_append] at hordered
  exact hordered.2.2 x hx last (List.mem_singleton_self last)

end EndsWith

end Spot

namespace Tree.Shows

variable {t : Tree} {s x : Spot} {offset : Nat}

theorem covers_iff (h : t.Shows s) (hx : x ∈ s.all) : t.Covers x.ref offset ↔ x.Covers offset := by
  rw [Tree.Covers, h.get?_eq hx]
  constructor
  · rintro ⟨n, hn, hcovers⟩
    cases hn
    exact hcovers
  · exact fun hcovers => ⟨_, rfl, hcovers⟩

theorem holdsOffset_iff (h : t.Shows s) (hx : x ∈ s.all) : t.holdsOffset offset x.ref = true ↔
    x.Covers offset ∨ x.green.kind = .endOfFileToken ∧ x.offset ≤ offset := by
  rw [Tree.holdsOffset, Tree.satisfies, h.get?_eq hx, Spot.Covers]
  simp [Spot.node]

/-- A node without children is where the loop ends. -/
theorem inwardStep_of_leaf (h : t.Shows s) (hx : x ∈ s.all) (hleaf : x.green.isLeaf = true) :
    t.inwardStep offset x.ref = .inr x.ref := by
  rw [Tree.inwardStep, h.children_eq hx, Spot.children_eq_nil_of_leaf hleaf, List.map_nil,
    List.find?_nil]

/-- If a child holds the offset, the loop goes on to a child that does. -/
theorem exists_inwardStep (h : t.Shows s) (hx : x ∈ s.all)
    (hholds : ∃ c ∈ x.children, t.holdsOffset offset c.ref = true) :
    ∃ c ∈ x.children, t.holdsOffset offset c.ref = true ∧
      t.inwardStep offset x.ref = .inl c.ref := by
  obtain ⟨c, hc, hholds⟩ := hholds
  have hfound : ((t.children x.ref).find? (t.holdsOffset offset)).isSome = true := by
    rw [h.children_eq hx]
    exact List.find?_isSome.mpr ⟨c.ref, List.mem_map_of_mem hc, hholds⟩
  obtain ⟨r, hr⟩ := Option.isSome_iff_exists.mp hfound
  have hmem := List.mem_of_find?_eq_some hr
  rw [h.children_eq hx] at hmem
  obtain ⟨d, hd, rfl⟩ := List.mem_map.mp hmem
  exact ⟨d, hd, List.find?_some hr, by rw [Tree.inwardStep, hr]⟩

/-- Going down from a node that covers the offset, with no end-of-file token in it, ends with a
    token that covers it. -/
theorem exists_ends_inwardStep (h : t.Shows s) (hx : x ∈ s.all)
    (hinner : x.green.Every Green.IsInner) (hcovers : x.Covers offset) :
    ∃ y ∈ x.tokens, y.Covers offset ∧ Ends (t.inwardStep offset) x.ref y.ref := by
  induction x using Spot.inductionOnChildren with
  | step x ih =>
    rw [Spot.tokens_eq hinner.self.1]
    cases hleaf : x.green.isLeaf with
    | true => exact ⟨x, List.mem_singleton_self x, hcovers, .stop (h.inwardStep_of_leaf hx hleaf)⟩
    | false =>
      have hchild {c : Spot} (hc : c ∈ x.children) :
          c ∈ s.all ∧ c.green.Every Green.IsInner :=
        ⟨Spot.children_subset_all hx hc,
          hinner.of_mem_all (Spot.children_subset_all x.self_mem_all hc)⟩
      obtain ⟨c, hc, hholds⟩ := hcovers.exists_child hleaf
      obtain ⟨d, hd, hholds, hstep⟩ := h.exists_inwardStep hx
        ⟨c, hc, (h.holdsOffset_iff (hchild hc).1).mpr (.inl hholds)⟩
      obtain ⟨hdall, hdinner⟩ := hchild hd
      have hdcovers : d.Covers offset := ((h.holdsOffset_iff hdall).mp hholds).resolve_right
        fun hend => hdinner.self.2 hend.1
      obtain ⟨y, hy, hycovers, hends⟩ := ih d hd hdall hdinner hdcovers
      exact ⟨y, List.mem_flatMap.mpr ⟨d, hd, hy⟩, hycovers, .next hstep hends⟩

section

variable {front : List Spot} {last : Spot} (h : t.Shows s) (he : s.EndsWith front last)

include h he

/-- An offset in front of the end-of-file token leads to a token that covers it. -/
theorem exists_ends_of_lt (hlow : s.offset ≤ offset) (hlt : offset < last.offset) :
    ∃ y ∈ s.tokens, y.Covers offset ∧ Ends (t.inwardStep offset) s.ref y.ref := by
  have hall {c : Spot} (hc : c ∈ s.children) : c ∈ s.all :=
    Spot.children_subset_all s.self_mem_all hc
  have hcovers : s.Covers offset := by
    have hstop := (Spot.offset_le_of_mem_all he.last_mem_all).2
    have hlast : last.offset ≤ last.stop := Nat.le_add_right _ _
    exact ⟨hlow, hlt.trans_le (hlast.trans hstop)⟩
  obtain ⟨c, hc, hholds⟩ := hcovers.exists_child he.branch
  obtain ⟨d, hd, hholds, hstep⟩ := h.exists_inwardStep s.self_mem_all
    ⟨c, hc, (h.holdsOffset_iff (hall hc)).mpr (.inl hholds)⟩
  have hne : d ≠ last := by
    rintro rfl
    rcases (h.holdsOffset_iff (hall hd)).mp hholds with hcovers | ⟨-, hle⟩
    · exact absurd hcovers.1 (Nat.not_le_of_lt hlt)
    · exact absurd hle (Nat.not_le_of_lt hlt)
  have hfront := (he.mem_children_iff.mp hd).resolve_right hne
  have hdcovers := ((h.holdsOffset_iff (hall hd)).mp hholds).resolve_right fun hend =>
    hne ((he.kind_eq_iff (hall hd)).mp hend.1)
  obtain ⟨y, hy, hycovers, hends⟩ :=
    h.exists_ends_inwardStep (hall hd) (he.inner d hfront) hdcovers
  refine ⟨y, ?_, hycovers, .next hstep hends⟩
  rw [he.tokens_eq]
  exact List.mem_append_left _ (List.mem_flatMap.mpr ⟨d, hfront, hy⟩)

/-- The offset of the end-of-file token and all larger ones lead to it. -/
theorem ends_of_le (hle : last.offset ≤ offset) : Ends (t.inwardStep offset) s.ref last.ref := by
  have hall {c : Spot} (hc : c ∈ s.children) : c ∈ s.all :=
    Spot.children_subset_all s.self_mem_all hc
  obtain ⟨d, hd, hholds, hstep⟩ := h.exists_inwardStep s.self_mem_all
    ⟨last, he.mem_children_iff.mpr (.inr rfl),
      (h.holdsOffset_iff he.last_mem_all).mpr (.inr ⟨he.lastKind, hle⟩)⟩
  have hlast : d = last := by
    refine (he.mem_children_iff.mp hd).resolve_left fun hfront => ?_
    rcases (h.holdsOffset_iff (hall hd)).mp hholds with ⟨-, hstop⟩ | ⟨hkind, -⟩
    · exact absurd ((he.stop_le hfront).trans hle) (Nat.not_le_of_lt hstop)
    · exact (he.inner d hfront).self.2 hkind
  subst hlast
  exact .next hstep (.stop (h.inwardStep_of_leaf (hall hd) he.leaf))

end

end Tree.Shows

end TypeLint.Syntax

namespace TypeLint.Program

open Syntax Writer Text

variable {p : TypeLint.Program} {f : SourceFile} {offset : Nat}

/-- What is given as a keyword or as an operator is a kind of tokens, but not the one of the token
    at the end of a file. -/
abbrev EndsOnce (p : TypeLint.Program) : Prop :=
  Item.everyIn (Expr.usesKinds Kind.isInner) p = true

/-- The kinds of the tokens in front of the end of a file. -/
def Marks.inner : Marks := ⟨Kind.isInner, fun kind h => by cases kind <;> first | rfl | cases h⟩

theorem TokenForm.isInner {kind : Kind} {text : String} {payload : Payload}
    (h : TokenForm Kind.isInner kind text payload) : kind.isInner = true := by
  cases h with
  | fixed kind h => exact h
  | identifier | template => rfl
  | number kind text h => rcases h with rfl | rfl <;> rfl
  | enclosed kind text value h =>
    have hall : ∀ kind ∈ enclosedKinds, kind.isInner = true := by decide
    exact hall kind h

theorem HasShape.isInner {g : Green} (h : HasShape Kind.isInner g) : g.IsInner := by
  cases hleaf : g.isLeaf with
  | true =>
    cases g with
    | token lead kind text payload labels =>
      have hkind := TokenForm.isInner h
      rw [Kind.isInner, Bool.and_eq_true, bne_iff_ne] at hkind
      exact hkind
    | node => cases hleaf
  | false =>
    have hkind := h.isToken_eq_false hleaf
    refine ⟨hkind.trans hleaf.symm, fun hend => ?_⟩
    rw [hend] at hkind
    cases hkind

/-- Behind statements without end-of-file tokens stands the end-of-file token of the file. -/
theorem exists_endsWith (h : EndsOnce p) : ∃ front last, (wholeSpot p).EndsWith front last := by
  have hshaped : ∀ g ∈ (lay p).1, g.Every Green.IsInner := fun g hg =>
    (shapedAll_iff.mp (Item.writeList_shaped (m := .inner) p h _) g hg).shapes.imp
      fun _ hshape => HasShape.isInner hshape
  have hgreen : (wholeSpot p).green = branch .sourceFile
      (.block (places 0 (lay p).1.length))
      ((lay p).1 ++ [.token ((lay p).2.pending ++ lineEnd (lay p).2) .endOfFileToken "" .empty []]) :=
    rfl
  have hchildren := Spot.children_of_node hgreen
  rw [Spot.row_append] at hchildren
  refine ⟨_, _, rfl, rfl, hchildren, fun c hc => hshaped _ ?_, rfl, rfl⟩
  rw [← Spot.map_green_row (wholeSpot p).first (wholeSpot p).offset (wholeSpot p).ref (lay p).1]
  exact List.mem_map_of_mem hc

/-- The token at the end of the file is the only one of its kind and the last of all. Going down
    from the root to the child that holds an offset always ends, with the token at the offset if
    the offset is in front of the end, and with the token at the end if it is not. -/
structure FindsOffsets (f : SourceFile) (last : NodeRef) (n : Node) : Prop where
  found : f.tree.get? last = some n
  only : ∀ r, f.tree.kind? r = some .endOfFileToken ↔ r = last
  final : (f.tree.tokens f.root).getLast? = some last
  ends : ∀ offset, Ends (f.tree.inwardStep offset) f.root (f.tree.nodeAt f.root offset)
  within : ∀ offset < n.pos, ∀ r,
    r ∈ f.tree.tokens f.root ∧ f.tree.Covers r offset ↔ r = f.tree.nodeAt f.root offset
  behind : ∀ offset, n.pos ≤ offset → f.tree.nodeAt f.root offset = last

/-- In a file that is built from a program, an offset leads from the root to the token there: to the
    only token whose span has the offset in it, or to the end-of-file token for the offset of its
    trivia and all that are larger. -/
theorem build_findsOffsets {fileName : String} {b : Built} (hp : EndsOnce p)
    (hb : build fileName p = .ok b) : ∃ last n, FindsOffsets b.file last n := by
  obtain ⟨shown, -⟩ := shown_of_build hb
  obtain ⟨front, last, he⟩ := exists_endsWith hp
  have hends (offset : Nat) := shown.childrenFirst.ends_nodeAt offset b.file.root
  refine ⟨last.ref, last.node, shown.shows.get?_eq he.last_mem_all, fun r => ?_, ?_, hends, ?_, ?_⟩
  · rw [Tree.kind?, Option.map_eq_some_iff]
    constructor
    · rintro ⟨n, hn, hkind⟩
      obtain ⟨x, hx, rfl, rfl⟩ := shown.shows.exists_of_get? hn
      rw [(he.kind_eq_iff hx).mp hkind]
    · rintro rfl
      exact ⟨_, shown.shows.get?_eq he.last_mem_all, he.lastKind⟩
  · rw [shown.root, shown.shows.tokens_eq (Spot.self_mem_all _), he.tokens_eq, List.map_append,
      List.map_singleton, List.getLast?_concat]
  · intro offset hlt r
    obtain ⟨y, hy, hcovers, hy'⟩ := shown.shows.exists_ends_of_lt he (Nat.zero_le _) hlt
    rw [← shown.root] at hy'
    rw [(hends offset).unique hy', shown.root, shown.shows.tokens_eq (Spot.self_mem_all _)]
    constructor
    · rintro ⟨hr, hrcovers⟩
      obtain ⟨x, hx, rfl⟩ := List.mem_map.mp hr
      have hxall := mem_all_of_mem_tokens hx
      rw [shown.shows.covers_iff hxall] at hrcovers
      rw [hrcovers.eq_of_leaf hcovers hxall (mem_all_of_mem_tokens hy)
        (he.isLeaf_of_mem_tokens hx) (he.isLeaf_of_mem_tokens hy)]
    · rintro rfl
      exact ⟨List.mem_map_of_mem hy,
        (shown.shows.covers_iff (mem_all_of_mem_tokens hy)).mpr hcovers⟩
  · intro offset hle
    have hlast := shown.shows.ends_of_le he hle
    rw [← shown.root] at hlast
    exact (hends offset).unique hlast

theorem build_findsOffsets_excerpt : ∃ b n, EndsOnce excerpt ∧ build "a.ts" excerpt = .ok b ∧
    FindsOffsets b.file (some 72) n ∧ b.file.tree.nodeAt b.file.root n.pos = some 72 := by
  obtain ⟨b, hb⟩ := exists_build_excerpt
  have hends : EndsOnce excerpt := by decide
  obtain ⟨last, n, hfinds⟩ := build_findsOffsets hends hb
  have hlast : (b.file.tree.tokens b.file.root).getLast? = some (some 72) := by
    have shown := (shown_of_build hb).1
    rw [shown.root, shown.shows.tokens_eq (wholeSpot excerpt).self_mem_all]
    decide +kernel
  obtain rfl := Option.some.inj (hfinds.final.symm.trans hlast)
  exact ⟨b, n, hends, hb, hfinds, hfinds.behind n.pos le_rfl⟩

/-- A statement whose expression is an end-of-file token. -/
def earlyEnd : TypeLint.Program := [.statement (.expression (.keyword .endOfFileToken))]

/-- An end-of-file token inside a file holds all offsets behind it, so that the lookup comes to it
    before the semicolon at the offset. -/
theorem build_findsOffsets_early : Disciplined earlyEnd ∧ ∃ b, build "a.ts" earlyEnd = .ok b ∧
    ¬ ∃ last n, b.file.tree.get? last = some n ∧ n.kind = .endOfFileToken ∧
      (∀ offset < n.pos, ∀ r, r ∈ b.file.tree.tokens b.file.root ∧ b.file.tree.Covers r offset ↔
        r = b.file.tree.nodeAt b.file.root offset) ∧
      ∀ offset, n.pos ≤ offset → b.file.tree.nodeAt b.file.root offset = last := by
  obtain ⟨b, hb⟩ := exists_build "a.ts" (p := earlyEnd) (by decide +kernel)
  obtain ⟨hfirst, hsecond, hend, hempty⟩ := of_build hb
    (fun b => b.file.tree.nodeAt b.file.root 0 = some 0 ∧
      b.file.tree.nodeAt b.file.root 1 = some 3 ∧
      (b.file.tree.get? (some 3)).map Node.pos = some 1 ∧
      (b.file.tree.get? (some 0)).map Node.stop = some 0)
    (by decide +kernel)
  refine ⟨by decide, b, hb, ?_⟩
  rintro ⟨last, n, hn, -, hwithin, hbehind⟩
  rcases n.pos.eq_zero_or_pos with hzero | hpos
  · -- The token at the end of the file does not stand at its beginning.
    have hlast := (hbehind 1 (by omega)).symm.trans hsecond
    rw [← hlast, hn, Option.map_some, Option.some.injEq] at hend
    omega
  · obtain ⟨-, keyword, hkeyword, -, hstop⟩ := (hwithin 0 hpos (some 0)).mpr hfirst.symm
    rw [hkeyword, Option.map_some, Option.some.injEq] at hempty
    omega

end TypeLint.Program
