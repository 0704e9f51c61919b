import TypeLint.Syntax.SourceFile
import TypeLint.Proofs.Emission.Walks

namespace TypeLint.Text.Comment

/-- Where the comment that is being scanned begins, or where the scan stands. -/
def Scan.begin (pos : Nat) : Scan → Nat
  | .gap => pos
  | .line start | .block start => start

/-- What is being scanned begins in front of where the scan stands. -/
def Scan.IsBehind (pos : Nat) : Scan → Prop
  | .gap => True
  | .line start | .block start => start < pos

/-- The comments that are found lie in what is scanned and are not empty. -/
theorem scan_bounds (scanned : Scan) (pos : Nat) (bs : List UInt8) (h : scanned.IsBehind pos) :
    ∀ c ∈ scan scanned pos bs,
      scanned.begin pos ≤ c.pos ∧ c.pos < c.stop ∧ c.stop ≤ pos + bs.length := by
  fun_induction scan scanned pos bs with
  | case1 pos a b rest hab ih =>
    intro c hc
    have hbounds := ih (Nat.lt_add_of_pos_right Nat.two_pos) c hc
    simp only [Scan.begin, List.length_cons] at hbounds ⊢
    omega
  | case2 pos a b rest hab hslash ih =>
    intro c hc
    have hbounds := ih (Nat.lt_add_of_pos_right Nat.two_pos) c hc
    simp only [Scan.begin, List.length_cons] at hbounds ⊢
    omega
  | case3 pos a b rest hab hslash ih =>
    intro c hc
    have hbounds := ih trivial c hc
    simp only [Scan.begin, List.length_cons] at hbounds ⊢
    omega
  | case4 => simp
  | case5 start pos =>
    simp only [List.mem_singleton, forall_eq, Scan.begin, Scan.IsBehind] at h ⊢
    simpa using h
  | case6 start pos a rest hbreak ih =>
    intro c hc
    simp only [Scan.begin, Scan.IsBehind, List.length_cons] at h ih ⊢
    rcases List.mem_cons.mp hc with rfl | hc
    · exact ⟨le_refl _, h, Nat.le_add_right _ _⟩
    · have hbounds := ih trivial c hc
      omega
  | case7 start pos a rest hbreak ih =>
    intro c hc
    simp only [Scan.begin, Scan.IsBehind, List.length_cons] at h ih ⊢
    have hbounds := ih (by omega) c hc
    omega
  | case8 start pos a b rest hab ih =>
    intro c hc
    simp only [Scan.begin, Scan.IsBehind, List.length_cons] at h ih ⊢
    rcases List.mem_cons.mp hc with rfl | hc
    · exact ⟨le_refl _, by simpa using Nat.lt_add_right 2 h, by simp⟩
    · have hbounds := ih trivial c hc
      omega
  | case9 start pos a b rest hab ih =>
    intro c hc
    simp only [Scan.begin, Scan.IsBehind, List.length_cons] at h ih ⊢
    have hbounds := ih (by omega) c hc
    omega
  | case10 start pos rest hrest =>
    simp only [List.mem_singleton, forall_eq, Scan.begin, Scan.IsBehind] at h ⊢
    exact ⟨le_refl _, by omega, le_refl _⟩

/-- Counting looks at the entries only. -/
theorem leadingCount_congr {p q : Comment → Bool} {comments : Array Comment}
    (h : ∀ c ∈ comments, p c = q c) : leadingCount p comments = leadingCount q comments := by
  have htest (i : Nat) : (comments[i]?.map p).getD false = (comments[i]?.map q).getD false := by
    cases hi : comments[i]? with
    | none => rfl
    | some c => exact h c (Array.mem_of_getElem? hi)
  simp only [leadingCount, htest]

theorem inRange_eq_nil {comments : Array Comment} {pos stop : Nat}
    (h : ∀ c ∈ comments, c.pos < pos ↔ c.stop ≤ stop) : inRange comments pos stop = [] := by
  have hcount := leadingCount_congr (p := fun c => decide (c.pos < pos))
    (q := fun c => decide (c.stop ≤ stop)) fun c hc => decide_eq_decide.mpr (h c hc)
  simp only [inRange, hcount, ge_iff_le, le_refl, if_true]

end TypeLint.Text.Comment

namespace TypeLint.Syntax

open Text

namespace Spot

theorem offset_le_of_mem_all {s x : Spot} (hx : x ∈ s.all) :
    s.offset ≤ x.offset ∧ x.stop ≤ s.stop := by
  obtain ⟨before, after, htext, hoffset⟩ := exists_text_eq hx
  simp only [stop, htext, hoffset, byteLength_append]
  omega

theorem row_ordered (first offset : Nat) (parent : NodeRef) (gs : List Green) :
    (row first offset parent gs).Pairwise fun a b => a.stop ≤ b.offset := by
  induction gs generalizing first offset with
  | nil => exact .nil
  | cons g gs ih =>
    refine List.pairwise_cons.mpr ⟨fun b hb => ?_, ih _ _⟩
    obtain ⟨before, after, -, -, hoffset, -⟩ := mem_row hb
    rw [hoffset]
    exact Nat.le_add_right _ _

/-- The children of a node stand one behind the other. -/
theorem children_ordered (s : Spot) : s.children.Pairwise fun a b => a.stop ≤ b.offset := by
  cases hs : s.green with
  | token lead kind text payload labels =>
    rw [children, hs]
    exact .nil
  | node kind flags payload gs labels =>
    rw [children_of_node hs]
    exact row_ordered _ _ _ _

/-- Of two tokens one lies in front of the other. -/
theorem stop_le_offset_or {s x y : Spot} (hx : x ∈ s.all) (hy : y ∈ s.all)
    (hxleaf : x.green.isLeaf = true) (hyleaf : y.green.isLeaf = true) (hne : x ≠ y) :
    x.stop ≤ y.offset ∨ y.stop ≤ x.offset := by
  induction s using inductionOnChildren with
  | step s ih =>
    cases hs : s.green with
    | token lead kind text payload labels =>
      rw [mem_all_iff] at hx hy
      simp only [children, hs, List.not_mem_nil, false_and, exists_false, false_or] at hx hy
      exact absurd (hx.trans hy.symm) hne
    | node kind flags payload gs labels =>
      have hnotself {z : Spot} (hz : z.green.isLeaf = true) : z ≠ s := by
        rintro rfl
        rw [hs] at hz
        cases hz
      obtain ⟨a, ha, hxa⟩ := (mem_all_iff.mp hx).resolve_right (hnotself hxleaf)
      obtain ⟨b, hb, hyb⟩ := (mem_all_iff.mp hy).resolve_right (hnotself hyleaf)
      by_cases hab : a = b
      · subst hab
        exact ih a ha hxa hyb
      · have hordered := s.children_ordered
        have hxin := offset_le_of_mem_all hxa
        have hyin := offset_le_of_mem_all hyb
        let apart (a b : Spot) : Prop := a.stop ≤ b.offset ∨ b.stop ≤ a.offset
        have hsymm : Std.Symm apart := ⟨fun _ _ => Or.symm⟩
        have hapart : s.children.Pairwise apart := hordered.imp Or.inl
        rcases hapart.forall ha hb hab with hab | hba
        · exact .inl (hxin.2.trans (hab.trans hyin.1))
        · exact .inr (hyin.2.trans (hba.trans hxin.1))

/-- The gap in front of a node holds the trivia in front of its first token. -/
theorem scanGap_eq {s x : Spot} (hoffset : s.offset = 0) (hx : x ∈ s.all) :
    Comment.scanGap s.green.text x.offset x.start =
      Comment.scan .gap x.offset (bytes x.green.lead) := by
  obtain ⟨before, after, htext, hbefore⟩ := exists_text_eq hx
  rw [hoffset, Nat.zero_add] at hbefore
  rw [Comment.scanGap, htext, Green.text_eq, start, hbefore, ← String.append_assoc,
    String.append_assoc, bytes_slice]

/-- The comments in front of a token are those in the trivia in front of it. -/
theorem triviaComments_eq {t : Tree} {s x : Spot} (h : t.Shows s) (hoffset : s.offset = 0)
    (hx : x ∈ s.all) : SourceFile.triviaComments s.green.text t x.ref =
      Comment.scan .gap x.offset (bytes x.green.lead) := by
  rw [SourceFile.triviaComments, h.get?_eq hx]
  change (if x.offset < x.start then _ else []) = _
  split_ifs with hgap
  · exact scanGap_eq hoffset hx
  · have hlead : byteLength x.green.lead = 0 := by
      rw [start] at hgap
      omega
    rw [byteLength_eq_zero_iff.mp hlead]
    rfl

theorem trivia_bounds {x : Spot} {c : Comment}
    (hc : c ∈ Comment.scan .gap x.offset (bytes x.green.lead)) :
    x.offset ≤ c.pos ∧ c.pos < c.stop ∧ c.stop ≤ x.start := by
  have hbounds := Comment.scan_bounds .gap _ _ trivial c hc
  rwa [length_bytes] at hbounds

end Spot

/-- A token with a blank in front of it has no leading comments. -/
theorem SourceFile.leadingComments_eq_nil {f : SourceFile} {s w : Spot} (h : f.tree.Shows s)
    (hcomments : f.comments = collectComments f.text f.tree s.ref) (htext : f.text = s.green.text)
    (hoffset : s.offset = 0) (hfits : s.green.Every Green.KindFits) (hw : w ∈ s.all)
    (hleaf : w.green.isLeaf = true) (hlead : w.green.lead = " ") :
    f.leadingComments w.ref = [] := by
  rw [leadingComments, h.get?_eq hw]
  refine Comment.inRange_eq_nil fun c hc => ?_
  rw [hcomments, collectComments, List.mem_toArray, List.mem_flatMap] at hc
  obtain ⟨r, hr, hc⟩ := hc
  rw [h.tokens_eq s.self_mem_all, List.mem_map] at hr
  obtain ⟨y, hy, rfl⟩ := hr
  rw [Spot.tokens, List.mem_filter, s.walk_perm_all.mem_iff] at hy
  rw [htext, Spot.triviaComments_eq h hoffset hy.1] at hc
  have hyleaf : y.green.isLeaf = true := (hfits.of_mem_all hy.1).self ▸ hy.2
  by_cases hyw : y = w
  · rw [hyw, hlead] at hc
    cases hc
  · have hbounds := Spot.trivia_bounds hc
    have hy' : y.offset ≤ y.start ∧ y.start ≤ y.stop := ⟨y.node_pos_le_start, y.node_start_le_stop⟩
    have hw' : w.offset ≤ w.start ∧ w.start ≤ w.stop := ⟨w.node_pos_le_start, w.node_start_le_stop⟩
    have happart := Spot.stop_le_offset_or hy.1 hw hyleaf hleaf hyw
    change c.pos < w.offset ↔ c.stop ≤ w.start
    omega

end TypeLint.Syntax
