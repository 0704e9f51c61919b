import TypeLint.Proofs.Emission.Comments
import TypeLint.Proofs.Emission.Neighbours
import TypeLint.Proofs.Program.Lossless
import TypeLint.Proofs.Program.RemovalPatch
import TypeLint.Proofs.Text.Slices

namespace TypeLint.Text.Comment

/-- Where the bytes begin and end, and in front of and behind every ASCII byte of them, are offsets
    that satisfy a condition. -/
structure Cuts (B : Nat → Prop) (pos : Nat) (bs : List UInt8) : Prop where
  stop : B (pos + bs.length)
  ascii : ∀ i b, bs[i]? = some b → b < 128 → B (pos + i) ∧ B (pos + i + 1)

theorem Cuts.tail {B : Nat → Prop} {pos : Nat} {a : UInt8} {bs : List UInt8}
    (h : Cuts B pos (a :: bs)) : Cuts B (pos + 1) bs where
  stop := by
    have hstop := h.stop
    rwa [List.length_cons, Nat.add_comm bs.length, ← Nat.add_assoc] at hstop
  ascii i b hb hascii := by
    have hcuts := h.ascii (i + 1) b hb hascii
    rwa [Nat.add_comm i, ← Nat.add_assoc] at hcuts

theorem Cuts.head {B : Nat → Prop} {pos : Nat} {a : UInt8} {bs : List UInt8}
    (h : Cuts B pos (a :: bs)) (hascii : a < 128) : B pos ∧ B (pos + 1) :=
  h.ascii 0 a rfl hascii

theorem ascii_of_isLineBreak {b : UInt8} (h : isLineBreak b = true) : b < 128 := by
  rw [isLineBreak, Bool.or_eq_true, beq_iff_eq, beq_iff_eq] at h
  rcases h with rfl | rfl <;> decide

/-- What is being scanned began at an offset that satisfies a condition. -/
def Scan.BeganAt (B : Nat → Prop) : Scan → Prop
  | .gap => True
  | .line start | .block start => B start

/-- The comments that are found begin and end at such offsets. -/
theorem scan_cuts {B : Nat → Prop} (scanned : Scan) (pos : Nat) (bs : List UInt8)
    (h : Cuts B pos bs) (hbegin : scanned.BeganAt B) :
    ∀ c ∈ scan scanned pos bs, B c.pos ∧ B c.stop := by
  have hpair {pos : Nat} {a b : UInt8} {rest : List UInt8} (h : Cuts B pos (a :: b :: rest))
      {first second : UInt8} (hab : (a == first && b == second) = true) (hfirst : first < 128)
      (hsecond : second < 128) : B pos ∧ B (pos + 2) := by
    rw [Bool.and_eq_true, beq_iff_eq, beq_iff_eq] at hab
    obtain ⟨rfl, rfl⟩ := hab
    exact ⟨(h.head hfirst).1, (h.tail.head hsecond).2⟩
  fun_induction scan scanned pos bs with
  | case1 pos a b rest hab ih =>
    exact ih h.tail.tail (hpair h hab (by decide) (by decide)).1
  | case2 pos a b rest hslash hab ih =>
    exact ih h.tail.tail (hpair h hab (by decide) (by decide)).1
  | case3 pos a b rest hslash hstar ih => exact ih h.tail trivial
  | case4 => exact List.forall_mem_nil _
  | case5 start pos =>
    exact List.forall_mem_singleton.mpr ⟨hbegin, h.stop⟩
  | case6 start pos a rest hbreak ih =>
    exact List.forall_mem_cons.mpr ⟨⟨hbegin,
      (h.head (ascii_of_isLineBreak hbreak)).1⟩, ih h.tail trivial⟩
  | case7 start pos a rest hbreak ih => exact ih h.tail hbegin
  | case8 start pos a b rest hab ih =>
    exact List.forall_mem_cons.mpr ⟨⟨hbegin,
      (hpair h hab (by decide) (by decide)).2⟩, ih h.tail.tail trivial⟩
  | case9 start pos a b rest hab ih => exact ih h.tail hbegin
  | case10 start pos rest hrest =>
    exact List.forall_mem_singleton.mpr ⟨hbegin, h.stop⟩

/-- The comments of a gap that ends between characters begin and end between characters. -/
theorem isBoundary_of_mem_scanGap {source : String} {pos stop : Nat} (hle : pos ≤ stop)
    (hstop : isBoundary source stop = true) {c : Comment} (hc : c ∈ scanGap source pos stop) :
    isBoundary source c.pos = true ∧ isBoundary source c.stop = true := by
  obtain ⟨front, behind, rfl, rfl⟩ := isBoundary_iff.mp hstop
  refine scan_cuts (B := fun n => isBoundary (front ++ behind) n = true) .gap pos _ ⟨?_, ?_⟩
    trivial c hc
  · have hlength : pos + (((bytes (front ++ behind)).take (byteLength front)).drop pos).length =
        byteLength front := by
      rw [List.length_drop, List.length_take, length_bytes, byteLength_append]
      omega
    rwa [hlength]
  · intro i b hb hascii
    rw [List.getElem?_drop, List.getElem?_take] at hb
    split_ifs at hb
    exact isBoundary_of_ascii hb hascii

theorem inRange_sublist (comments : Array Comment) (pos stop : Nat) :
    (inRange comments pos stop).Sublist comments.toList := by
  rw [inRange]
  split_ifs
  · exact List.nil_sublist _
  · rw [Array.toList_extract]
    exact (List.take_sublist _ _).trans (List.drop_sublist _ _)

end TypeLint.Text.Comment

namespace TypeLint.Program

open Syntax Text

namespace Shown

variable {p : TypeLint.Program} {f : SourceFile} (h : Shown p f)

include h

theorem isBoundary_start {x : Spot} (hx : x ∈ (wholeSpot p).all) :
    isBoundary f.text x.start = true := by
  obtain ⟨before, after, htext, hoffset⟩ := Spot.exists_text_eq hx
  refine isBoundary_iff.mpr ⟨before ++ x.green.lead, x.green.body ++ after, ?_, ?_⟩
  · rw [h.text]
    refine htext.trans ?_
    rw [x.green.text_eq]
    simp only [String.append_assoc]
  · rw [byteLength_append, Spot.start, hoffset]
    exact congrArg (· + _) (Nat.zero_add _).symm

theorem isBoundary_stop {x : Spot} (hx : x ∈ (wholeSpot p).all) :
    isBoundary f.text x.stop = true := by
  obtain ⟨before, after, htext, hoffset⟩ := Spot.exists_text_eq hx
  refine isBoundary_iff.mpr ⟨before ++ x.green.text, after, h.text.trans htext, ?_⟩
  rw [byteLength_append, Spot.stop, hoffset]
  exact congrArg (· + _) (Nat.zero_add _).symm

/-- A node begins and ends between characters, and so does the range of an unknown one. -/
theorem isBoundary_range (r : NodeRef) :
    isBoundary f.text (f.range r).1 = true ∧ isBoundary f.text (f.range r).2 = true := by
  cases hn : f.tree.get? r with
  | none =>
    rw [SourceFile.range, hn]
    exact ⟨isBoundary_zero _, isBoundary_zero _⟩
  | some n =>
    obtain ⟨x, hx, rfl, rfl⟩ := h.shows.exists_of_get? hn
    rw [SourceFile.range_eq h.shows hx]
    exact ⟨h.isBoundary_start hx, h.isBoundary_stop hx⟩

/-- A comment begins and ends between characters. -/
theorem isBoundary_comment {c : Comment} (hc : c ∈ f.comments) :
    isBoundary f.text c.pos = true ∧ isBoundary f.text c.stop = true := by
  rw [h.comments_eq, SourceFile.collectComments, List.mem_toArray, List.mem_flatMap] at hc
  obtain ⟨r, -, hc⟩ := hc
  rw [SourceFile.triviaComments] at hc
  split at hc
  · next n hn =>
    obtain ⟨x, hx, rfl, rfl⟩ := h.shows.exists_of_get? hn
    split_ifs at hc with hgap
    · exact Comment.isBoundary_of_mem_scanGap hgap.le (h.isBoundary_start hx) hc
    · cases hc
  · cases hc

omit h in
theorem mem_comments_of_mem_leadingComments {r : NodeRef} {c : Comment}
    (hc : c ∈ f.leadingComments r) : c ∈ f.comments := by
  rw [SourceFile.leadingComments] at hc
  split at hc
  · exact Array.mem_toList_iff.mp ((Comment.inRange_sublist _ _ _).subset hc)
  · cases hc

/-- The last byte of a non-null assertion is its exclamation mark. -/
theorem exists_mark (hp : Disciplined p) {r : NodeRef}
    (hkind : f.tree.kind? r = some .nonNullExpression) :
    ∃ front behind, f.text = front ++ ("!" ++ behind) ∧ (f.range r).2 = byteLength front + 1 := by
  rw [Tree.kind?, Option.map_eq_some_iff] at hkind
  obtain ⟨n, hn, hkind⟩ := hkind
  obtain ⟨x, hx, rfl, rfl⟩ := h.shows.exists_of_get? hn
  rw [SourceFile.range_eq h.shows hx]
  have hkind : x.green.kind = .nonNullExpression := hkind
  have hform := hasForm_of_mem_wholeSpot hp hx
  obtain ⟨flags, payload, gs, labels, hgreen⟩ := hform.exists_node (by rw [hkind]; rfl)
  rw [hkind] at hgreen
  rw [hgreen] at hform
  cases Form.shape hform rfl with
  | nonNull inner lead =>
    obtain ⟨before, after, htext, hoffset⟩ := Spot.exists_text_eq hx
    have hmark : x.green.text = inner.text ++ lead ++ "!" := by
      rw [hgreen, Green.text, Green.textAll, Green.textAll, Green.textAll, String.append_empty,
        String.append_assoc]
      rfl
    refine ⟨before ++ (inner.text ++ lead), after, ?_, ?_⟩
    · rw [h.text]
      refine htext.trans ?_
      rw [hmark]
      simp only [String.append_assoc]
    · have hone : byteLength "!" = 1 := rfl
      have hzero : (wholeSpot p).offset = 0 := rfl
      rw [Spot.stop, hoffset, hmark, hzero, byteLength_append _ "!", hone, byteLength_append before]
      omega

/-- In front of the exclamation mark of a non-null assertion a character ends. -/
theorem isBoundary_last (hp : Disciplined p) {r : NodeRef}
    (hkind : f.tree.kind? r = some .nonNullExpression) {start last : Nat}
    (hrange : f.range r = (start, last + 1)) : isBoundary f.text last = true := by
  obtain ⟨front, behind, htext, hstop⟩ := h.exists_mark hp hkind
  rw [hrange] at hstop
  exact isBoundary_iff.mpr ⟨front, "!" ++ behind, htext, (Nat.succ.inj hstop).symm⟩

end Shown

end TypeLint.Program
