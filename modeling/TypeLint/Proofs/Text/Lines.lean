import Mathlib.Data.Nat.Count
import TypeLint.Proofs.Text.Slices
import TypeLint.Text.LineMap

namespace TypeLint.Text

/-- A line break ends at an offset: in front of it is a line feed, or a carriage return that no line
    feed follows. -/
def endsLine (bs : List UInt8) : Nat → Bool
  | 0 => false
  | i + 1 =>
    bs[i]? == some lineFeed || bs[i]? == some carriageReturn && bs[i + 1]? != some lineFeed

/-- The position is in an earlier line, or in the same line and further in front. -/
def Position.Precedes (p q : Position) : Prop :=
  p.line < q.line ∨ p.line = q.line ∧ p.column < q.column

section

variable {ascending : List Nat}

/-- A number of an ascending list stands behind those that are smaller. -/
theorem countP_lt_of_getElem? (h : ascending.Pairwise (· < ·)) {i x : Nat}
    (hx : ascending[i]? = some x) : ascending.countP (· < x) = i := by
  induction ascending generalizing i with
  | nil => cases hx
  | cons head rest ih =>
    obtain ⟨hhead, hrest⟩ := List.pairwise_cons.mp h
    cases i with
    | zero =>
      obtain rfl := Option.some.inj hx
      refine List.countP_eq_zero.mpr fun y hy hlt => ?_
      rw [decide_eq_true_iff] at hlt
      rcases List.mem_cons.mp hy with rfl | hy
      · exact lt_irrefl y hlt
      · exact lt_asymm hlt (hhead y hy)
    | succ i =>
      have hlt : decide (head < x) = true := decide_eq_true (hhead x (List.mem_of_getElem? hx))
      rw [List.countP_cons, ih hrest hx, if_pos hlt]

theorem search_of_mem (h : ascending.Pairwise (· < ·)) {x : Nat} (hx : x ∈ ascending) :
    search ascending x = .found (ascending.countP (· < x)) := by
  obtain ⟨i, hi⟩ := List.getElem?_of_mem hx
  rw [search, countP_lt_of_getElem? h hi, if_pos hi]

theorem search_of_not_mem {x : Nat} (hx : x ∉ ascending) :
    search ascending x = .missing (ascending.countP (· < x)) := by
  rw [search, if_neg fun hget => hx (List.mem_of_getElem? hget)]

/-- The first numbers of an ascending list, as many as are less than a bound, do not exceed it. -/
theorem le_of_getElem? (h : ascending.Pairwise (· < ·)) {i x y : Nat}
    (hy : ascending[i]? = some y) (hi : i < ascending.countP (· < x)) : y ≤ x := by
  by_contra hnot
  have hmono : ascending.countP (· < x) ≤ ascending.countP (· < y) :=
    List.countP_mono_left fun z _ hz => by
      rw [decide_eq_true_iff] at hz ⊢
      omega
  rw [countP_lt_of_getElem? h hy] at hmono
  omega

end

/-- The offsets at which the line breaks of a byte string end. -/
def lineStops (bs : List UInt8) : List Nat := (List.range (bs.length + 1)).filter (endsLine bs)

theorem mem_lineStops_iff {bs : List UInt8} {stop : Nat} :
    stop ∈ lineStops bs ↔ stop ≤ bs.length ∧ endsLine bs stop = true := by
  rw [lineStops, List.mem_filter, List.mem_range, Nat.lt_succ_iff]

theorem lineStops_cons (b : UInt8) (bs : List UInt8) :
    lineStops (b :: bs) =
      (if endsLine (b :: bs) 1 = true then [1] else []) ++ (lineStops bs).map (· + 1) := by
  -- No line break ends at 0, so that the ends of line breaks are successors.
  have hsucc (bs : List UInt8) (n : Nat) : (List.range (n + 1)).filter (endsLine bs) =
      ((List.range n).filter fun i => endsLine bs (i + 1)).map (· + 1) := by
    rw [List.range_succ_eq_map, List.filter_cons_of_neg Bool.false_ne_true, List.filter_map]
    rfl
  rw [lineStops, lineStops, hsucc, hsucc, List.length_cons, List.range_succ_eq_map,
    List.filter_cons, List.filter_map]
  split_ifs <;> rfl

/-- The lines behind the first one start where the line breaks end. -/
theorem startsAfter_eq (pos : Nat) (bs : List UInt8) :
    LineMap.startsAfter pos bs = (lineStops bs).map (pos + ·) := by
  have hshift (stops : List Nat) (pos : Nat) :
      (stops.map (· + 1)).map (pos + ·) = stops.map (pos + 1 + ·) := by
    rw [List.map_map]
    exact List.map_congr_left fun stop _ => Nat.add_right_comm pos stop 1
  fun_induction LineMap.startsAfter pos bs with
  | case1 => rfl
  | case2 pos b rest hfeed ih =>
    have hstop : endsLine (b :: rest) 1 = true := by simp [endsLine, beq_iff_eq.mp hfeed]
    rw [lineStops_cons, if_pos hstop, List.map_append, hshift, ih]
    rfl
  | case3 pos b hfeed hreturn =>
    rw [beq_iff_eq] at hreturn
    subst hreturn
    rfl
  | case4 pos b hfeed hreturn next rest hnext ih =>
    rw [beq_iff_eq] at hreturn hnext
    subst hreturn hnext
    -- The break of a carriage return and a line feed ends behind the line feed only.
    have hfirst : endsLine (carriageReturn :: lineFeed :: rest) 1 = false := rfl
    have hsecond : endsLine (lineFeed :: rest) 1 = true := rfl
    rw [lineStops_cons, lineStops_cons, hfirst, if_neg Bool.false_ne_true, if_pos hsecond,
      List.nil_append, hshift, List.map_append, hshift, ih]
    rfl
  | case5 pos b hfeed hreturn next rest hnext ih =>
    rw [beq_iff_eq] at hreturn
    subst hreturn
    have hne : next ≠ lineFeed := fun h => hnext (beq_iff_eq.mpr h)
    have hstop : endsLine (carriageReturn :: next :: rest) 1 = true := by simp [endsLine, hne]
    rw [lineStops_cons, if_pos hstop, List.map_append, hshift, ih]
    rfl
  | case6 pos b rest hfeed hreturn ih =>
    have hstop : ¬endsLine (b :: rest) 1 = true := by
      simp only [endsLine, List.getElem?_cons_zero]
      grind
    rw [lineStops_cons, if_neg hstop, List.nil_append, hshift, ih]

namespace LineMap

/-- A line starts at the front of a text and behind each of its line breaks. -/
theorem starts_ofText (text : String) : (ofText text).starts = 0 :: lineStops (bytes text) := by
  rw [ofText, startsAfter_eq]
  simp only [Nat.zero_add, List.map_id']

theorem pairwise_starts (text : String) : (ofText text).starts.Pairwise (· < ·) := by
  rw [starts_ofText]
  refine List.pairwise_cons.mpr ⟨fun stop hstop => ?_, List.pairwise_lt_range.filter _⟩
  refine Nat.pos_of_ne_zero fun hzero => ?_
  rw [hzero, mem_lineStops_iff] at hstop
  exact Bool.false_ne_true hstop.2

/-- Behind the first line, those that start in front of an offset are as many as the line breaks that
    end there. -/
theorem countP_starts (text : String) {offset : Nat} (hpos : 0 < offset)
    (hoffset : offset ≤ byteLength text) : (ofText text).starts.countP (· < offset) =
      Nat.count (fun stop => endsLine (bytes text) stop = true) offset + 1 := by
  have hbreaks (bound : Nat) :
      ((List.range bound).filter (endsLine (bytes text))).countP (· < offset) =
        Nat.count (fun stop => endsLine (bytes text) stop = true) (min bound offset) := by
    induction bound with
    | zero => simp
    | succ bound ih =>
      rw [List.range_succ, List.filter_append, List.countP_append, ih]
      by_cases hlt : bound < offset
      · rw [min_eq_left hlt.le, min_eq_left (Nat.succ_le_of_lt hlt), Nat.count_succ]
        by_cases hstop : endsLine (bytes text) bound = true <;> simp [hstop, hlt]
      · rw [min_eq_right (Nat.le_of_not_lt hlt), min_eq_right (by omega), Nat.add_eq_left,
          List.countP_eq_zero]
        intro stop hstop
        rw [List.mem_singleton.mp (List.mem_of_mem_filter hstop), decide_eq_true_iff]
        exact hlt
  have hfirst : decide (0 < offset) = true := decide_eq_true hpos
  rw [starts_ofText, List.countP_cons, if_pos hfirst, lineStops, length_bytes, hbreaks,
    min_eq_right (Nat.le_succ_of_le hoffset)]

/-- The line of an offset counts the line breaks that end at it or in front of it. -/
theorem line_position (text : String) {offset : Nat} (hoffset : offset ≤ byteLength text) :
    ((ofText text).position offset).line =
      Nat.count (fun stop => endsLine (bytes text) stop = true) (offset + 1) := by
  have hlength : min offset (ofText text).length = offset := min_eq_left hoffset
  have hstarts : offset ∈ (ofText text).starts ↔
      offset = 0 ∨ endsLine (bytes text) offset = true := by
    rw [starts_ofText, List.mem_cons, mem_lineStops_iff, length_bytes, and_iff_right hoffset]
  rw [Nat.count_succ]
  rcases Nat.eq_zero_or_pos offset with rfl | hpos
  · have hfirst : (0 : Nat) ∈ (ofText text).starts := hstarts.mpr (.inl rfl)
    have hnone : (ofText text).starts.countP (· < 0) = 0 := by simp
    simp only [position, hlength, search_of_mem (pairwise_starts text) hfirst, hnone]
    rfl
  · by_cases hstop : endsLine (bytes text) offset = true
    · have hmem := hstarts.mpr (.inr hstop)
      simp only [position, hlength, search_of_mem (pairwise_starts text) hmem,
        countP_starts text hpos hoffset, if_pos hstop]
    · have hnot : offset ∉ (ofText text).starts := fun hmem =>
        (hstarts.mp hmem).elim hpos.ne' hstop
      simp only [position, hlength, search_of_not_mem hnot, countP_starts text hpos hoffset,
        if_neg hstop, Nat.add_sub_cancel, Nat.add_zero]

/-- The line of an offset starts at it or in front of it, and the column is what is between. -/
theorem exists_start (text : String) {offset : Nat} (hoffset : offset ≤ byteLength text) :
    ∃ start ≤ offset, (ofText text).starts[((ofText text).position offset).line]? = some start ∧
      ((ofText text).position offset).column = offset - start := by
  have hlength : min offset (ofText text).length = offset := min_eq_left hoffset
  have hascending := pairwise_starts text
  by_cases hmem : offset ∈ (ofText text).starts
  · obtain ⟨i, hi⟩ := List.getElem?_of_mem hmem
    have hsearch := search_of_mem hascending hmem
    rw [countP_lt_of_getElem? hascending hi] at hsearch
    refine ⟨offset, le_refl offset, ?_, ?_⟩
    · simpa only [position, hlength, hsearch] using hi
    · simp only [position, hlength, hsearch, List.getD_eq_getElem?_getD, hi, Option.getD_some]
  · have hpos : 0 < offset := Nat.pos_of_ne_zero fun hzero => hmem <| by
      rw [hzero, starts_ofText]
      exact List.mem_cons_self
    have hsearch := search_of_not_mem hmem
    have hcount := countP_starts text hpos hoffset
    have hlast : (ofText text).starts.countP (· < offset) - 1 < (ofText text).starts.length := by
      have hle := List.countP_le_length (p := fun x => decide (x < offset))
        (l := (ofText text).starts)
      omega
    have hget := List.getElem?_eq_getElem hlast
    refine ⟨_, le_of_getElem? hascending hget (by omega), ?_, ?_⟩
    · simpa only [position, hlength, hsearch] using hget
    · simp only [position, hlength, hsearch, List.getD_eq_getElem?_getD, hget, Option.getD_some]

theorem position_lt (text : String) {offset offset' : Nat} (hlt : offset < offset')
    (hoffset' : offset' ≤ byteLength text) :
    ((ofText text).position offset).Precedes ((ofText text).position offset') := by
  have hoffset := hlt.le.trans hoffset'
  have hline : ((ofText text).position offset).line ≤ ((ofText text).position offset').line := by
    rw [line_position text hoffset, line_position text hoffset']
    exact Nat.count_monotone _ (Nat.succ_le_succ hlt.le)
  obtain ⟨start, hle, hstart, hcolumn⟩ := exists_start text hoffset
  obtain ⟨start', hle', hstart', hcolumn'⟩ := exists_start text hoffset'
  rcases hline.lt_or_eq with hless | hsame
  · exact .inl hless
  · rw [hsame, hstart'] at hstart
    obtain rfl := Option.some.inj hstart
    refine .inr ⟨hsame, ?_⟩
    rw [hcolumn, hcolumn']
    omega

/-- Offsets behind the text are taken for its end. -/
theorem position_of_byteLength_le (text : String) {offset : Nat} (h : byteLength text ≤ offset) :
    (ofText text).position offset = (ofText text).position (byteLength text) := by
  have hlength : (ofText text).length = byteLength text := rfl
  simp only [position, hlength, min_eq_right h, min_self]

/-- The lines of a text start at 0 and at ascending offsets behind it. The line of an offset is the
    number of line breaks that end at it or in front of it; the position of an offset leads back to
    the offset; later offsets have later positions; and behind the text all have the position of its
    end. -/
theorem positions_ofText (text : String) :
    (ofText text).starts = 0 :: lineStops (bytes text) ∧
      (ofText text).starts.Pairwise (· < ·) ∧
      (∀ offset, offset ≤ byteLength text →
        ((ofText text).position offset).line =
          Nat.count (fun stop => endsLine (bytes text) stop = true) (offset + 1) ∧
        (ofText text).offset? ((ofText text).position offset) = some offset) ∧
      (∀ offset offset', offset < offset' → offset' ≤ byteLength text →
        ((ofText text).position offset).Precedes ((ofText text).position offset')) ∧
      ∀ offset, byteLength text ≤ offset →
        (ofText text).position offset = (ofText text).position (byteLength text) := by
  refine ⟨starts_ofText text, pairwise_starts text,
    fun offset hoffset => ⟨line_position text hoffset, ?_⟩,
    fun offset offset' hlt hoffset' => position_lt text hlt hoffset',
    fun _ hoffset => position_of_byteLength_le text hoffset⟩
  obtain ⟨start, hle, hstart, hcolumn⟩ := exists_start text hoffset
  have hlength : offset ≤ (ofText text).length := hoffset
  simp [offset?, lineStart?, hstart, hcolumn, Nat.add_sub_cancel' hle, hlength]

/-- All kinds of line breaks: the offset 5 stands within one. -/
theorem positions_ofText_mixed :
    byteLength "a\nbc\r\nd\re" = 9 ∧
      (ofText "a\nbc\r\nd\re").starts = [0, 2, 6, 8] ∧
      ((ofText "a\nbc\r\nd\re").position 5).line = 1 ∧
      (ofText "a\nbc\r\nd\re").offset? ((ofText "a\nbc\r\nd\re").position 5) = some 5 ∧
      ((ofText "a\nbc\r\nd\re").position 5).Precedes ((ofText "a\nbc\r\nd\re").position 6) ∧
      (ofText "a\nbc\r\nd\re").position 12 = (ofText "a\nbc\r\nd\re").position 9 := by
  obtain ⟨hstarts, -, hpositions, hlater, hend⟩ := positions_ofText "a\nbc\r\nd\re"
  obtain ⟨hline, hback⟩ := hpositions 5 (by decide)
  refine ⟨by decide, hstarts.trans (by decide), hline.trans (by decide), hback,
    hlater 5 6 (by decide) (by decide), hend 12 (by decide)⟩

end LineMap

end TypeLint.Text
