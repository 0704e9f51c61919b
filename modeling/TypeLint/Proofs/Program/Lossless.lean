import TypeLint.Proofs.Program.Built
import TypeLint.Proofs.Program.FormFacts

namespace TypeLint.Syntax

open Text

/-- Tokens cover a text from one offset to another. -/
def Tiles : Nat → List Node → Nat → Prop
  | pos, [], stop => pos = stop
  | pos, n :: rest, stop => n.pos = pos ∧ n.pos ≤ n.start ∧ n.start ≤ n.stop ∧ Tiles n.stop rest stop

theorem Tiles.append {pos middle stop : Nat} {ns ms : List Node} (hns : Tiles pos ns middle)
    (hms : Tiles middle ms stop) : Tiles pos (ns ++ ms) stop := by
  induction ns generalizing pos with
  | nil =>
    rw [Tiles] at hns
    subst hns
    exact hms
  | cons n ns ih =>
    obtain ⟨hpos, hstart, hstop, hrest⟩ := hns
    exact ⟨hpos, hstart, hstop, ih hrest⟩

namespace Spot

/-- What holds of tokens in a row, one child behind the other. -/
theorem tiles_row {first offset : Nat} {parent : NodeRef} {gs : List Green}
    (h : ∀ x ∈ row first offset parent gs, Tiles x.offset (x.tokens.map node) x.stop) :
    Tiles offset (((row first offset parent gs).flatMap tokens).map node)
      (offset + byteLength (Green.textAll gs)) := by
  induction gs generalizing first offset with
  | nil => rfl
  | cons g gs ih =>
    rw [row_cons, List.forall_mem_cons] at h
    rw [row_cons, List.flatMap_cons, List.map_append]
    refine Tiles.append h.1 ?_
    have hrest := ih h.2
    rwa [Green.textAll, byteLength_append, ← Nat.add_assoc]

/-- The tokens of a spot cover its text. -/
theorem tiles_tokens (s : Spot) (h : s.green.Every Green.KindFits) :
    Tiles s.offset (s.tokens.map node) s.stop := by
  induction s using inductionOnChildren with
  | step s ih =>
    rw [tokens_eq h.self]
    cases hs : s.green with
    | token lead kind text payload labels =>
      exact ⟨rfl, s.node_pos_le_start, s.node_start_le_stop, rfl⟩
    | node kind flags payload gs labels =>
      have hrow := @tiles_row s.first s.offset s.ref gs
      rw [← children_of_node hs] at hrow
      have hstop : s.stop = s.offset + byteLength (Green.textAll gs) := by
        simp [stop, hs, Green.text]
      rw [hstop]
      exact hrow fun x hx => ih x hx (h.of_mem_all (children_subset_all s.self_mem_all hx))

/-- The texts of the tokens of a spot, their trivia included, make up its text. -/
theorem join_tokens (s : Spot) (h : s.green.Every Green.KindFits) :
    String.join (s.tokens.map fun x => x.green.text) = s.green.text := by
  induction s using inductionOnChildren with
  | step s ih =>
    have hrow (first offset : Nat) (parent : NodeRef) (gs : List Green)
        (h : ∀ x ∈ row first offset parent gs,
          String.join (x.tokens.map fun y => y.green.text) = x.green.text) :
        String.join (((row first offset parent gs).flatMap tokens).map fun x => x.green.text) =
          Green.textAll gs := by
      induction gs generalizing first offset with
      | nil => rfl
      | cons g gs ih =>
        rw [row_cons, List.forall_mem_cons] at h
        rw [row_cons, List.flatMap_cons, List.map_append, String.join_append, h.1, ih _ _ h.2]
        rfl
    rw [tokens_eq h.self]
    cases hs : s.green with
    | token lead kind text payload labels => simp [Green.isLeaf, hs]
    | node kind flags payload gs labels =>
      have hchildren := hrow s.first s.offset s.ref gs
      rw [← children_of_node hs] at hchildren
      exact hchildren fun x hx => ih x hx (h.of_mem_all (children_subset_all s.self_mem_all hx))

/-- The text of a spot lies between the offsets of its node. -/
theorem slice?_of_mem_all {s x : Spot} (hs : s.offset = 0) (hx : x ∈ s.all) :
    slice? s.green.text x.offset x.stop = some x.green.text := by
  obtain ⟨before, after, htext, hoffset⟩ := exists_text_eq hx
  rw [hs, Nat.zero_add] at hoffset
  rw [htext, stop, hoffset]
  exact slice?_append before x.green.text after

/-- The text of a spot behind its leading trivia lies between the start and the end of its
    node. -/
theorem slice?_body_of_mem_all {s x : Spot} (hs : s.offset = 0) (hx : x ∈ s.all) :
    slice? s.green.text x.start x.stop = some x.green.body := by
  obtain ⟨before, after, htext, hoffset⟩ := exists_text_eq hx
  rw [hs, Nat.zero_add] at hoffset
  have h := slice?_append (before ++ x.green.lead) x.green.body after
  simp only [htext, start, stop, hoffset, x.green.text_eq, byteLength_append,
    String.append_assoc, Nat.add_assoc] at h ⊢
  exact h

end Spot

end TypeLint.Syntax

namespace TypeLint.Program

open Syntax Text

/-- The tokens of a file account for all of its text. They cover it from its beginning to its end,
    where the end-of-file token stands, and each node stands where its children stand. -/
structure Lossless (file : SourceFile) : Prop where
  tokens : ∃ tokens : List Node,
    (file.tree.tokens file.root).map file.tree.get? = tokens.map some ∧
      Tiles 0 tokens (byteLength file.text) ∧
      (∃ eof, tokens.getLast? = some eof ∧ eof.kind = .endOfFileToken ∧
        eof.stop = byteLength file.text) ∧
      ∃ pieces, (tokens.map fun n => slice? file.text n.pos n.stop) = pieces.map some ∧
        String.join pieces = file.text
  nodes : ∀ n ∈ file.tree.nodes, n.kind.isToken = false → ∃ first last,
    n.children.head?.bind file.tree.get? = some first ∧
      n.children.getLast?.bind file.tree.get? = some last ∧
      n.pos = first.pos ∧ n.start = first.start ∧ n.stop = last.stop
  spellings : ∀ n ∈ file.tree.nodes, ∀ spelling, n.kind.text? = some spelling →
    slice? file.text n.start n.stop = some spelling

/-- The spots of a disciplined program have forms. -/
theorem hasForm_of_mem_wholeSpot {p : TypeLint.Program} (h : Disciplined p) {x : Spot}
    (hx : x ∈ (wholeSpot p).all) : HasForm x.green :=
  (Green.Every.of_mem_all (s := wholeSpot p) (closed_formed h _) hx).self

theorem whole_kindFits {p : TypeLint.Program} (h : Disciplined p) :
    (whole p).Every Green.KindFits :=
  (closed_formed h _).imp fun _ hform => hform.kindFits

/-- The last token of a program is the end-of-file token. -/
theorem exists_tokens_wholeSpot {p : TypeLint.Program} (h : Disciplined p) :
    ∃ front eof, (wholeSpot p).tokens = front ++ [eof] ∧ eof.green.kind = .endOfFileToken ∧
      eof.stop = byteLength (whole p).text := by
  obtain ⟨lead, hwhole⟩ : ∃ lead, whole p = branch .sourceFile
      (.block (places 0 (lay p).1.length))
      ((lay p).1 ++ [.token lead .endOfFileToken "" .empty []]) := ⟨_, rfl⟩
  have htokens := Spot.tokens_eq (s := wholeSpot p) (whole_kindFits h).self
  have hgreen : (wholeSpot p).green = _ := hwhole
  have hchildren := Spot.children_of_node hgreen
  rw [Spot.row_append] at hchildren
  rw [hgreen, hchildren, List.flatMap_append] at htokens
  refine ⟨_, ⟨_, _, _, .token lead .endOfFileToken "" .empty []⟩, htokens, rfl, ?_⟩
  have htext : (whole p).text = Green.textAll ((lay p).1 ++ [_]) := congrArg Green.text hwhole
  rw [htext, Green.textAll_append, byteLength_append]
  simp [Spot.stop, Green.text, Green.textAll, wholeSpot]

theorem exists_ends_of_branch {s : Spot} (h : s.children ≠ []) : ∃ first last,
    s.children.head? = some first ∧ s.children.getLast? = some last ∧ s.offset = first.offset ∧
      s.start = first.start ∧ s.stop = last.stop := by
  cases hs : s.green with
  | token lead kind text payload labels => simp [Spot.children, hs] at h
  | node kind flags payload gs labels =>
    have hrow := Spot.children_of_node hs
    cases gs with
    | nil => simp [hrow] at h
    | cons g gs =>
      refine ⟨⟨s.first, s.offset, s.ref, g⟩, s.children.getLast h, ?_,
        List.getLast?_eq_some_getLast h, rfl, ?_, ?_⟩
      · rw [hrow]
        rfl
      · simp [Spot.start, hs, Green.lead, Green.leadAll]
      · have hlast : s.children.getLast h ∈
            (Spot.row s.first s.offset s.ref (g :: gs)).getLast? := by
          rw [← hrow]
          exact List.getLast?_eq_some_getLast h
        rw [Spot.stop_of_mem_getLast? hlast]
        simp [Spot.stop, hs, Green.text]

theorem slice?_whole {p : TypeLint.Program} {x : Spot} (hx : x ∈ (wholeSpot p).all) :
    slice? (whole p).text x.offset x.stop = some x.green.text :=
  Spot.slice?_of_mem_all (s := wholeSpot p) rfl hx

theorem slice?_body_whole {p : TypeLint.Program} {x : Spot} (hx : x ∈ (wholeSpot p).all) :
    slice? (whole p).text x.start x.stop = some x.green.body :=
  Spot.slice?_body_of_mem_all (s := wholeSpot p) rfl hx

theorem mem_all_of_mem_tokens {s x : Spot} (hx : x ∈ s.tokens) : x ∈ s.all :=
  s.walk_perm_all.mem_iff.mp (List.mem_of_mem_filter hx)

/-- A spot whose kind is not one of tokens has children. -/
theorem children_ne_nil_of_hasForm {s : Spot} (h : HasForm s.green)
    (hkind : s.green.kind.isToken = false) : s.children ≠ [] := by
  cases hs : s.green with
  | token lead kind text payload labels =>
    rw [hs] at h hkind
    rw [Green.kind, TokenForm.isToken_eq_true h] at hkind
    cases hkind
  | node kind flags payload gs labels =>
    rw [hs] at h
    rw [Spot.children_of_node hs]
    intro hnil
    have hlength := congrArg List.length hnil
    rw [Spot.length_row] at hlength
    exact Form.children_ne_nil h (List.length_eq_zero_iff.mp hlength)

/-- A tree whose kind has a fixed spelling is spelled so. -/
theorem body_eq_of_hasForm {g : Green} (h : HasForm g) {spelling : String}
    (hspelling : g.kind.text? = some spelling) : g.body = spelling := by
  cases g with
  | token lead kind text payload labels => exact TokenForm.text_eq h hspelling
  | node kind flags payload gs labels =>
    rw [Green.kind, (Form.kind_and_fits h).2.1] at hspelling
    cases hspelling

/-- Nothing of the text of a file that is built from a program is lost. -/
theorem build_lossless {fileName : String} {p : TypeLint.Program} {b : Built}
    (h : Disciplined p) (hb : build fileName p = .ok b) : Lossless b.file := by
  obtain ⟨shown, -⟩ := shown_of_build hb
  refine ⟨⟨(wholeSpot p).tokens.map Spot.node, ?_, ?_, ?_, ?_⟩, ?_, ?_⟩
  · rw [shown.root, shown.shows.tokens_eq (Spot.self_mem_all _), List.map_map, List.map_map]
    exact List.map_congr_left fun x hx => shown.shows.get?_eq (mem_all_of_mem_tokens hx)
  · have htiles := (wholeSpot p).tiles_tokens (whole_kindFits h)
    rw [shown.text]
    simpa [Spot.stop, wholeSpot] using htiles
  · obtain ⟨front, eof, htokens, hkind, hstop⟩ := exists_tokens_wholeSpot h
    refine ⟨eof.node, by simp [htokens], hkind, ?_⟩
    rw [shown.text]
    exact hstop
  · refine ⟨(wholeSpot p).tokens.map fun x => x.green.text, ?_, ?_⟩
    · rw [List.map_map, List.map_map, shown.text]
      exact List.map_congr_left fun x hx => slice?_whole (mem_all_of_mem_tokens hx)
    · rw [shown.text]
      exact (wholeSpot p).join_tokens (whole_kindFits h)
  · intro n hn hkind
    obtain ⟨x, hx, rfl⟩ := shown.shows.mem_nodes_iff.mp hn
    obtain ⟨first, last, hfirst, hlast, hpos, hstart, hstop⟩ :=
      exists_ends_of_branch (children_ne_nil_of_hasForm (hasForm_of_mem_wholeSpot h hx) hkind)
    have hget (c : Spot) (hc : c ∈ x.children) : b.file.tree.get? c.ref = some c.node :=
      shown.shows.get?_eq (Spot.children_subset_all hx hc)
    refine ⟨first.node, last.node, ?_, ?_, hpos, hstart, hstop⟩
    · simp [Spot.node, List.head?_map, hfirst, hget first (List.mem_of_mem_head? hfirst)]
    · simp [Spot.node, List.getLast?_map, hlast, hget last (List.mem_of_mem_getLast? hlast)]
  · intro n hn spelling hspelling
    obtain ⟨x, hx, rfl⟩ := shown.shows.mem_nodes_iff.mp hn
    rw [shown.text, ← body_eq_of_hasForm (hasForm_of_mem_wholeSpot h hx) hspelling]
    exact slice?_body_whole hx

theorem build_lossless_excerpt : ∃ b, Disciplined excerpt ∧ build "a.ts" excerpt = .ok b ∧
    Lossless b.file := by
  obtain ⟨b, hb⟩ := exists_build_excerpt
  exact ⟨b, excerpt_disciplined, hb, build_lossless excerpt_disciplined hb⟩

end TypeLint.Program
