import TypeLint.Proofs.Program.Boundaries
import TypeLint.Proofs.Program.Shapes
import TypeLint.Proofs.Text.CommentTables
import TypeLint.Proofs.Text.Trivia

namespace TypeLint.Syntax.Spot

open Text

theorem mem_tokens_of_mem_all {s x t : Spot} (hx : x ∈ s.all) (ht : t ∈ x.tokens) :
    t ∈ s.tokens := by
  rw [tokens, List.mem_filter, walk_perm_all _ |>.mem_iff] at ht ⊢
  exact ⟨all_subset_all hx ht.1, ht.2⟩

/-- Behind the trivia in front of a node stands its first token. -/
theorem exists_first_token {x : Spot} (h : x.green.Every Green.KindFits)
    (hgap : x.offset < x.start) : ∃ t ∈ x.tokens, t.offset = x.offset ∧ t.start = x.start := by
  induction x using inductionOnChildren with
  | step x ih =>
    rw [tokens_eq h.self]
    cases hleaf : x.green.isLeaf with
    | true => exact ⟨x, List.mem_singleton_self x, rfl, rfl⟩
    | false =>
      have hchildren : x.children ≠ [] := fun hnil => by
        cases hx : x.green with
        | token lead kind text payload labels =>
          rw [hx] at hleaf
          cases hleaf
        | node kind flags payload gs labels =>
          rw [children_of_node hx, ← List.length_eq_zero_iff, length_row,
            List.length_eq_zero_iff] at hnil
          have hempty : x.green.lead = "" := by
            rw [hx, hnil]
            rfl
          rw [start, hempty] at hgap
          exact lt_irrefl _ hgap
      obtain ⟨first, -, hfirst, -, hoffset, hstart, -⟩ := Program.exists_ends_of_branch hchildren
      have hmem := List.mem_of_mem_head? hfirst
      have hevery := h.of_mem_all (children_subset_all x.self_mem_all hmem)
      obtain ⟨t, ht, htoffset, htstart⟩ := ih first hmem hevery (by rwa [← hoffset, ← hstart])
      exact ⟨t, List.mem_flatMap.mpr ⟨first, hmem, ht⟩, htoffset.trans hoffset.symm,
        htstart.trans hstart.symm⟩

end TypeLint.Syntax.Spot

namespace TypeLint.Program

open Syntax Text

/-- The tokens of a tree stand one behind the other. -/
theorem tokens_apart {marks : Kind → Bool} {s : Spot} (h : s.green.Every (HasShape marks)) :
    s.tokens.Pairwise fun x y => x.stop ≤ y.offset := by
  induction s using Spot.inductionOnChildren with
  | step s ih =>
    rw [h.self.tokens_eq]
    split_ifs with hkind
    · exact List.pairwise_singleton _ s
    · rw [List.pairwise_flatMap]
      refine ⟨fun c hc => ih c hc (h.of_mem_all (Spot.children_subset_all s.self_mem_all hc)), ?_⟩
      refine s.children_ordered.imp fun {a b} hab x hx y hy => ?_
      have hxin := Spot.offset_le_of_mem_all (mem_all_of_mem_tokens hx)
      have hyin := Spot.offset_le_of_mem_all (mem_all_of_mem_tokens hy)
      exact hxin.2.trans (hab.trans hyin.1)

namespace Shown

variable {p : TypeLint.Program} {f : SourceFile} (h : Shown p f)

include h

/-- The comments of the file are those in the trivia in front of its tokens. -/
theorem toList_comments : f.comments.toList =
    (wholeSpot p).tokens.flatMap fun x => Comment.scan .gap x.offset (bytes x.green.lead) := by
  have htext : f.text = (wholeSpot p).green.text := h.text
  have htrivia (x : Spot) (hx : x ∈ (wholeSpot p).tokens) :
      SourceFile.triviaComments f.text f.tree x.ref =
        Comment.scan .gap x.offset (bytes x.green.lead) := by
    rw [htext]
    exact Spot.triviaComments_eq h.shows rfl (mem_all_of_mem_tokens hx)
  rw [h.comments_eq, SourceFile.collectComments, h.shows.tokens_eq (wholeSpot p).self_mem_all,
    List.flatMap_map]
  exact List.flatMap_congr htrivia

/-- The comments of a built file are not empty and come one behind the other. -/
theorem comments_ordered : Comment.Ordered f.comments.toList := by
  rw [h.toList_comments]
  constructor
  · refine List.pairwise_flatMap.mpr ⟨fun x hx => Comment.scan_apart _ _ _, ?_⟩
    refine (tokens_apart (s := wholeSpot p) (whole_shaped p).shapes).imp
      fun {x y} hxy c hc d hd => ?_
    have hcx := Spot.trivia_bounds hc
    have hdy := Spot.trivia_bounds hd
    exact hcx.2.2.trans (x.node_start_le_stop.trans (hxy.trans hdy.1))
  · intro c hc
    obtain ⟨x, hx, hc⟩ := List.mem_flatMap.mp hc
    exact (Spot.trivia_bounds hc).2.1

/-- Every comment of the file is a leading comment of a node that the walk through the file
    visits. -/
theorem exists_leadingComments {c : Comment} (hc : c ∈ f.comments) :
    ∃ r ∈ f.tree.preorder f.root, c ∈ f.leadingComments r := by
  have hlist := hc
  rw [← Array.mem_toList_iff, h.toList_comments, List.mem_flatMap] at hlist
  obtain ⟨x, hx, hgap⟩ := hlist
  have hwalk : x ∈ (wholeSpot p).walk := List.mem_of_mem_filter hx
  have hall : x ∈ (wholeSpot p).all := (wholeSpot p).walk_perm_all.mem_iff.mp hwalk
  have hbounds := Spot.trivia_bounds hgap
  refine ⟨x.ref, ?_, ?_⟩
  · rw [h.root, h.shows.preorder_eq (wholeSpot p).self_mem_all]
    exact List.mem_map_of_mem hwalk
  · rw [SourceFile.leadingComments, h.shows.get?_eq hall]
    exact (Comment.mem_inRange_iff h.comments_ordered).mpr ⟨hc, hbounds.1, hbounds.2.2⟩

/-- A comment of the file ends in the text. -/
theorem comment_stop_le {c : Comment} (hc : c ∈ f.comments) : c.stop ≤ byteLength f.text := by
  rw [← Array.mem_toList_iff, h.toList_comments, List.mem_flatMap] at hc
  obtain ⟨x, hx, hc⟩ := hc
  have hall : x ∈ (wholeSpot p).all := mem_all_of_mem_tokens hx
  have hstop : x.stop ≤ (wholeSpot p).stop := (Spot.offset_le_of_mem_all hall).2
  have hwhole : (wholeSpot p).stop = byteLength f.text := by
    rw [h.text, Spot.stop]
    exact Nat.zero_add _
  exact (Spot.trivia_bounds hc).2.2.trans (x.node_start_le_stop.trans (hwhole ▸ hstop))

end Shown

/-- A comment lies in the gap in front of a node. -/
def LiesBefore (f : SourceFile) (c : Comment) (r : NodeRef) : Prop :=
  ∃ n, f.tree.get? r = some n ∧ n.pos ≤ c.pos ∧ c.stop ≤ n.start

namespace Shown

variable {p : TypeLint.Program} {f : SourceFile} (h : Shown p f)

include h

/-- The comments of the file are those of the gaps in front of its tokens. -/
theorem mem_comments_iff {c : Comment} : c ∈ f.comments ↔
    ∃ t ∈ (wholeSpot p).tokens, c ∈ Comment.scanGap f.text t.offset t.start := by
  rw [← Array.mem_toList_iff, h.toList_comments, List.mem_flatMap]
  refine exists_congr fun t => and_congr_right fun ht => ?_
  have htext : f.text = (wholeSpot p).green.text := h.text
  rw [htext, Spot.scanGap_eq rfl (mem_all_of_mem_tokens ht)]

variable (hp : Disciplined p)

include hp

omit h in
/-- The gaps in front of two tokens have no byte in common. -/
theorem eq_of_gaps {t u : Spot} (ht : t ∈ (wholeSpot p).tokens) (hu : u ∈ (wholeSpot p).tokens)
    {i : Nat} (hti : t.offset ≤ i ∧ i < t.start) (hui : u.offset ≤ i ∧ i < u.start) : t = u := by
  by_contra hne
  have hleaf {t : Spot} (ht : t ∈ (wholeSpot p).tokens) : t.green.isLeaf = true := by
    have hkind : t.green.kind.isToken = true := (List.mem_filter.mp ht).2
    exact ((whole_kindFits hp).of_mem_all (mem_all_of_mem_tokens ht)).self ▸ hkind
  have hapart := Spot.stop_le_offset_or (mem_all_of_mem_tokens ht) (mem_all_of_mem_tokens hu)
    (hleaf ht) (hleaf hu) hne
  have htstop : t.start ≤ t.stop := t.node_start_le_stop
  have hustop : u.start ≤ u.stop := u.node_start_le_stop
  omega

/-- A scan of the gap in front of a node finds the comments of the file that lie in it. -/
theorem mem_scanGap_iff {x : Spot} (hx : x ∈ (wholeSpot p).all) {c : Comment} :
    c ∈ Comment.scanGap f.text x.offset x.start ↔
      c ∈ f.comments ∧ x.offset ≤ c.pos ∧ c.stop ≤ x.start := by
  have hfits := (whole_kindFits hp).of_mem_all hx
  constructor
  · intro hc
    obtain ⟨hpos, hlt, hstop⟩ := Comment.scanGap_bounds x.node_pos_le_start hc
    have hgap : x.offset < x.start := hpos.trans_lt (hlt.trans_le hstop)
    obtain ⟨t, ht, hoffset, hstart⟩ := Spot.exists_first_token hfits hgap
    refine ⟨h.mem_comments_iff.mpr ⟨t, Spot.mem_tokens_of_mem_all hx ht, ?_⟩, hpos, hstop⟩
    rwa [hoffset, hstart]
  · rintro ⟨hc, hpos, hstop⟩
    obtain ⟨t, ht, hct⟩ := h.mem_comments_iff.mp hc
    obtain ⟨htpos, hlt, htstop⟩ := Comment.scanGap_bounds t.node_pos_le_start hct
    have hgap : x.offset < x.start := hpos.trans_lt (hlt.trans_le hstop)
    obtain ⟨u, hu, hoffset, hstart⟩ := Spot.exists_first_token hfits hgap
    have hsame : t = u :=
      eq_of_gaps hp ht (Spot.mem_tokens_of_mem_all hx hu) ⟨htpos, hlt.trans_le htstop⟩
        ⟨hoffset.trans_le hpos, (hlt.trans_le hstop).trans_eq hstart.symm⟩
    rwa [← hoffset, ← hstart, ← hsame]

/-- Looking the leading comments of a node up in the table is scanning the gap in front of it. -/
theorem leadingComments_eq {r : NodeRef} {n : Node} (hn : f.tree.get? r = some n) :
    f.leadingComments r = Comment.scanGap f.text n.pos n.start := by
  obtain ⟨x, hx, rfl, rfl⟩ := h.shows.exists_of_get? hn
  rw [SourceFile.leadingComments, hn]
  have hordered := h.comments_ordered
  refine (hordered.sublist (Comment.inRange_sublist _ _ _)).eq_of_mem_iff
    (Comment.ordered_scanGap x.node_pos_le_start) fun c => ?_
  rw [Comment.mem_inRange_iff hordered]
  exact (h.mem_scanGap_iff hp hx).symm

/-- A comment lies in the gap in front of one token only. -/
theorem existsUnique_liesBefore {c : Comment} (hc : c ∈ f.comments) :
    ∃! t, t ∈ f.tree.tokens f.root ∧ LiesBefore f c t := by
  rw [h.root, h.shows.tokens_eq (wholeSpot p).self_mem_all]
  obtain ⟨t, ht, hct⟩ := h.mem_comments_iff.mp hc
  obtain ⟨hpos, hlt, hstop⟩ := Comment.scanGap_bounds t.node_pos_le_start hct
  refine ⟨t.ref, ⟨List.mem_map_of_mem ht, t.node, h.shows.get?_eq (mem_all_of_mem_tokens ht),
    hpos, hstop⟩, ?_⟩
  rintro r ⟨hr, n, hn, hnpos, hnstop⟩
  obtain ⟨u, hu, rfl⟩ := List.mem_map.mp hr
  rw [h.shows.get?_eq (mem_all_of_mem_tokens hu), Option.some.injEq] at hn
  subst hn
  rw [eq_of_gaps hp hu ht ⟨hnpos, hlt.trans_le hnstop⟩ ⟨hpos, hlt.trans_le hstop⟩]

end Shown

/-- In a file that is built from a program, the leading comments of a node, which are looked up in
    the table of the file, are those that a scan of the gap in front of it finds. The comments of the
    table come one behind the other, and each lies in the gap in front of exactly one token. -/
theorem build_leadingComments {fileName : String} {p : TypeLint.Program} {b : Built}
    (hp : Disciplined p) (hb : build fileName p = .ok b) :
    (∀ r n, b.file.tree.get? r = some n →
      b.file.leadingComments r = Comment.scanGap b.file.text n.pos n.start) ∧
    Comment.Ordered b.file.comments.toList ∧
    ∀ c ∈ b.file.comments,
      ∃! t, t ∈ b.file.tree.tokens b.file.root ∧ LiesBefore b.file c t := by
  obtain ⟨shown, -⟩ := shown_of_build hb
  exact ⟨fun r n hn => shown.leadingComments_eq hp hn, shown.comments_ordered,
    fun c hc => shown.existsUnique_liesBefore hp hc⟩

theorem build_leadingComments_excerpt :
    ∃ b c n, Disciplined excerpt ∧ build "a.ts" excerpt = .ok b ∧ b.file.comments.size = 4 ∧
      b.file.tree.get? (some 0) = some n ∧ b.file.leadingComments (some 0) = [c] ∧
      Comment.scanGap b.file.text n.pos n.start = [c] ∧ c ∈ b.file.comments ∧
      ∃! t, t ∈ b.file.tree.tokens b.file.root ∧ LiesBefore b.file c t := by
  obtain ⟨b, hb⟩ := exists_build_excerpt
  obtain ⟨hlookup, -, hunique⟩ := build_leadingComments excerpt_disciplined hb
  have shown := (shown_of_build hb).1
  have hsize : b.file.comments.size = 4 := by
    rw [← Array.length_toList, shown.toList_comments]
    decide +kernel
  obtain ⟨x, hx, href, hscan⟩ : ∃ x ∈ (wholeSpot excerpt).all, x.ref = some 0 ∧
      Comment.scan .gap x.offset (bytes x.green.lead) = [⟨0, 10, false, true⟩] := by
    decide +kernel
  have hn := href ▸ shown.shows.get?_eq hx
  have hgap : Comment.scanGap b.file.text x.offset x.start = [⟨0, 10, false, true⟩] := by
    have htext : b.file.text = (wholeSpot excerpt).green.text := shown.text
    rw [htext, Spot.scanGap_eq rfl hx, hscan]
  have hleading := (hlookup _ _ hn).trans hgap
  have hmem : ⟨0, 10, false, true⟩ ∈ b.file.comments :=
    Shown.mem_comments_of_mem_leadingComments (hleading ▸ List.mem_singleton_self _)
  exact ⟨b, _, x.node, excerpt_disciplined, hb, hsize, hn, hleading, hgap, hmem, hunique _ hmem⟩

end TypeLint.Program
