import TypeLint.Proofs.Program.Boundaries
import TypeLint.Proofs.Text.CommentTables

namespace TypeLint.Text.Comment

variable {all bs : List UInt8} {pos : Nat}

/-- The bytes of an opening delimiter stand at an offset. -/
def OpensAt (all : List UInt8) (isMultiLine : Bool) (pos : Nat) : Prop :=
  all[pos]? = some slash ∧ all[pos + 1]? = some (if isMultiLine then star else slash)

/-- The bytes of the closing delimiter stand at an offset. -/
def ClosesAt (all : List UInt8) (pos : Nat) : Prop :=
  all[pos]? = some star ∧ all[pos + 1]? = some slash

/-- The byte of a line break stands at an offset. -/
def BreaksAt (all : List UInt8) (pos : Nat) : Prop := ∃ b, all[pos]? = some b ∧ isLineBreak b = true

/-- A comment begins with its delimiter and ends where it has to. -/
structure Delimited (all : List UInt8) (c : Comment) : Prop where
  long : c.pos + 2 ≤ c.stop
  opens : OpensAt all c.isMultiLine c.pos
  /-- A line comment ends in front of the first line break or with the bytes. -/
  line : c.isMultiLine = false →
    (∀ i, c.pos ≤ i → i < c.stop → ¬BreaksAt all i) ∧ (BreaksAt all c.stop ∨ c.stop = all.length)
  /-- A block comment ends behind the first closing delimiter or, without one, with the bytes. -/
  block : c.isMultiLine = true →
    (∃ i, c.pos + 2 ≤ i ∧ ClosesAt all i ∧ (∀ j, c.pos + 2 ≤ j → j < i → ¬ClosesAt all j) ∧
      c.stop = i + 2) ∨
    (∀ j, c.pos + 2 ≤ j → ¬ClosesAt all j) ∧ c.stop = all.length
  trailing : c.hasTrailingNewLine = true ↔ BreaksAt all c.stop

/-- The scan stands at an offset and has the given bytes in front of it. -/
structure Ahead (all : List UInt8) (pos : Nat) (bs : List UInt8) : Prop where
  drop_eq : all.drop pos = bs
  length_eq : pos + bs.length = all.length

theorem Ahead.head {a : UInt8} (h : Ahead all pos (a :: bs)) : all[pos]? = some a := by
  rw [← List.head?_drop, h.drop_eq]
  rfl

theorem Ahead.tail {a : UInt8} (h : Ahead all pos (a :: bs)) : Ahead all (pos + 1) bs where
  drop_eq := by
    rw [← List.tail_drop, h.drop_eq]
    rfl
  length_eq := by
    have hlength := h.length_eq
    rw [List.length_cons] at hlength
    omega

theorem Ahead.pos_eq (h : Ahead all pos []) : pos = all.length := h.length_eq

theorem OpensAt.lt_length {isMultiLine : Bool} (h : OpensAt all isMultiLine pos) :
    pos + 1 < all.length :=
  (List.getElem?_eq_some_iff.mp h.2).1

theorem ClosesAt.lt_length (h : ClosesAt all pos) : pos + 1 < all.length :=
  (List.getElem?_eq_some_iff.mp h.2).1

theorem BreaksAt.lt_length (h : BreaksAt all pos) : pos < all.length := by
  obtain ⟨b, hb, -⟩ := h
  exact (List.getElem?_eq_some_iff.mp hb).1

theorem breaksAt_iff {a : UInt8} (h : all[pos]? = some a) :
    BreaksAt all pos ↔ isLineBreak a = true := by
  rw [BreaksAt, h]
  simp

theorem Ahead.breaksAt_iff_startsWithLineBreak (h : Ahead all pos bs) :
    BreaksAt all pos ↔ startsWithLineBreak bs = true := by
  cases bs with
  | nil =>
    refine iff_of_false (fun hbreak => ?_) Bool.false_ne_true
    exact hbreak.lt_length.ne h.pos_eq
  | cons a bs => exact breaksAt_iff h.head

/-- The scan ends where what is left is too short for a delimiter. -/
theorem length_lt_two (h : ∀ a b rest, bs = a :: b :: rest → False) : bs.length < 2 := by
  match bs with
  | [] => exact Nat.two_pos
  | [_] => exact Nat.one_lt_two
  | a :: b :: rest => exact (h a b rest rfl).elim

/-- The comment that is being scanned has its delimiter behind where the scan stands, and nothing
    between them ends it. -/
def Scan.Open (all : List UInt8) (pos : Nat) : Scan → Prop
  | .gap => True
  | .line start =>
    start + 2 ≤ pos ∧ OpensAt all false start ∧ ∀ i, start ≤ i → i < pos → ¬BreaksAt all i
  | .block start =>
    start + 2 ≤ pos ∧ OpensAt all true start ∧ ∀ i, start + 2 ≤ i → i < pos → ¬ClosesAt all i

/-- Every comment that is found begins with its delimiter and ends where it has to. -/
theorem scan_delimited (scanned : Scan) (pos : Nat) (bs : List UInt8) (hbs : Ahead all pos bs)
    (h : scanned.Open all pos) : ∀ c ∈ scan scanned pos bs, c.Delimited all := by
  fun_induction scan scanned pos bs with
  | case1 pos a b rest hab ih =>
    rw [Bool.and_eq_true, beq_iff_eq, beq_iff_eq] at hab
    obtain ⟨rfl, rfl⟩ := hab
    refine ih hbs.tail.tail ⟨le_refl _, ⟨hbs.head, hbs.tail.head⟩, fun i hi hlt => ?_⟩
    obtain rfl | rfl : i = pos ∨ i = pos + 1 := by omega
    · rw [breaksAt_iff hbs.head]
      decide
    · rw [breaksAt_iff hbs.tail.head]
      decide
  | case2 pos a b rest hslash hab ih =>
    rw [Bool.and_eq_true, beq_iff_eq, beq_iff_eq] at hab
    obtain ⟨rfl, rfl⟩ := hab
    refine ih hbs.tail.tail ⟨le_refl _, ⟨hbs.head, hbs.tail.head⟩, fun i hi hlt => ?_⟩
    omega
  | case3 pos a b rest hslash hstar ih => exact ih hbs.tail trivial
  | case4 => exact List.forall_mem_nil _
  | case5 start pos =>
    obtain ⟨hlong, hopens, hbreaks⟩ := h
    refine List.forall_mem_singleton.mpr ⟨hlong, hopens, fun _ => ⟨hbreaks, .inr hbs.pos_eq⟩,
      fun h => absurd h Bool.false_ne_true,
      iff_of_false Bool.false_ne_true fun hbreak => hbreak.lt_length.ne hbs.pos_eq⟩
  | case6 start pos a rest hbreak ih =>
    obtain ⟨hlong, hopens, hbreaks⟩ := h
    have hstop : BreaksAt all pos := (breaksAt_iff hbs.head).mpr hbreak
    exact List.forall_mem_cons.mpr ⟨⟨hlong, hopens, fun _ => ⟨hbreaks, .inl hstop⟩,
      fun h => absurd h Bool.false_ne_true, iff_of_true rfl hstop⟩, ih hbs.tail trivial⟩
  | case7 start pos a rest hbreak ih =>
    obtain ⟨hlong, hopens, hbreaks⟩ := h
    refine ih hbs.tail ⟨Nat.le_succ_of_le hlong, hopens, fun i hi hlt => ?_⟩
    rcases Nat.lt_succ_iff_lt_or_eq.mp hlt with hlt | rfl
    · exact hbreaks i hi hlt
    · rwa [breaksAt_iff hbs.head]
  | case8 start pos a b rest hab ih =>
    obtain ⟨hlong, hopens, hcloses⟩ := h
    rw [Bool.and_eq_true, beq_iff_eq, beq_iff_eq] at hab
    obtain ⟨rfl, rfl⟩ := hab
    have hclose : ClosesAt all pos := ⟨hbs.head, hbs.tail.head⟩
    exact List.forall_mem_cons.mpr ⟨⟨hlong.trans (Nat.le_add_right pos 2), hopens,
      fun h => absurd h.symm Bool.false_ne_true,
      fun _ => .inl ⟨pos, hlong, hclose, hcloses, rfl⟩,
      hbs.tail.tail.breaksAt_iff_startsWithLineBreak.symm⟩, ih hbs.tail.tail trivial⟩
  | case9 start pos a b rest hab ih =>
    obtain ⟨hlong, hopens, hcloses⟩ := h
    refine ih hbs.tail ⟨Nat.le_succ_of_le hlong, hopens, fun i hi hlt => ?_⟩
    rcases Nat.lt_succ_iff_lt_or_eq.mp hlt with hlt | rfl
    · exact hcloses i hi hlt
    · rintro ⟨hstar, hslash⟩
      rw [hbs.head, Option.some.injEq] at hstar
      rw [hbs.tail.head, Option.some.injEq] at hslash
      exact hab (by rw [hstar, hslash]; rfl)
  | case10 start pos rest hrest =>
    obtain ⟨hlong, hopens, hcloses⟩ := h
    have hshort := length_lt_two hrest
    have hlength := hbs.length_eq
    refine List.forall_mem_singleton.mpr ⟨hlong.trans (Nat.le_add_right pos _), hopens,
      fun h => absurd h.symm Bool.false_ne_true,
      fun _ => .inr ⟨fun j hj hclose => ?_, hlength⟩,
      iff_of_false Bool.false_ne_true fun hbreak => hbreak.lt_length.ne hlength⟩
    have hlt := hclose.lt_length
    exact hcloses j hj (by omega) hclose

/-- Every opening delimiter that is ahead has a byte in a comment that is found. -/
theorem scan_covers (scanned : Scan) (pos : Nat) (bs : List UInt8) (hbs : Ahead all pos bs)
    {isMultiLine : Bool} {i : Nat} (hi : scanned.begin pos ≤ i) (h : OpensAt all isMultiLine i) :
    ∃ c ∈ scan scanned pos bs, i < c.stop ∧ c.pos < i + 2 := by
  have hlength := h.lt_length
  -- Past a comment the search goes on in the gap behind it.
  have hbehind {c : Comment} {stop pos : Nat} {rest : List UInt8} (hpos : c.pos ≤ i)
      (hstop : stop ≤ c.stop)
      (ih : stop ≤ i → ∃ c ∈ scan .gap pos rest, i < c.stop ∧ c.pos < i + 2) :
      ∃ d ∈ c :: scan .gap pos rest, i < d.stop ∧ d.pos < i + 2 := by
    rcases Nat.lt_or_ge i stop with hlt | hge
    · exact ⟨c, List.mem_cons_self, hlt.trans_le hstop, by omega⟩
    · obtain ⟨d, hd, hbounds⟩ := ih hge
      exact ⟨d, List.mem_cons_of_mem _ hd, hbounds⟩
  fun_induction scan scanned pos bs with
  | case1 pos a b rest hab ih | case2 pos a b rest hslash hab ih => exact ih hbs.tail.tail hi
  | case3 pos a b rest hslash hstar ih =>
    have hi : pos ≤ i := hi
    refine ih hbs.tail (Nat.lt_of_le_of_ne hi ?_)
    rintro rfl
    obtain ⟨hfirst, hsecond⟩ := h
    rw [hbs.head, Option.some.injEq] at hfirst
    rw [hbs.tail.head, Option.some.injEq] at hsecond
    subst hfirst hsecond
    cases isMultiLine
    · exact hslash rfl
    · exact hstar rfl
  | case4 rest pos hrest =>
    have hi : pos ≤ i := hi
    have hend := hbs.length_eq
    have hshort := length_lt_two hrest
    omega
  | case5 start pos =>
    have hend := hbs.pos_eq
    have hi : start ≤ i := hi
    exact ⟨_, List.mem_singleton_self _, by dsimp only; omega, by dsimp only; omega⟩
  | case6 start pos a rest hbreak ih =>
    refine hbehind hi (le_refl pos) fun hle => ih hbs.tail (Nat.lt_of_le_of_ne hle ?_)
    rintro rfl
    have hslash : a = slash := Option.some.inj (hbs.head.symm.trans h.1)
    rw [hslash] at hbreak
    cases hbreak
  | case7 start pos a rest hbreak ih => exact ih hbs.tail hi
  | case8 start pos a b rest hab ih =>
    exact hbehind hi (le_refl _) (ih hbs.tail.tail)
  | case9 start pos a b rest hab ih => exact ih hbs.tail hi
  | case10 start pos rest hrest =>
    have hend := hbs.length_eq
    have hi : start ≤ i := hi
    exact ⟨_, List.mem_singleton_self _, by dsimp only; omega, by dsimp only; omega⟩

variable {source : String} {stop : Nat}

theorem scanGap_eq_nil (h : min stop (byteLength source) ≤ pos) : scanGap source pos stop = [] := by
  rw [scanGap, List.drop_eq_nil_of_le, scan]
  · rintro a b rest ⟨⟩
  · rwa [List.length_take, length_bytes]

/-- The bytes of a gap are those of the text up to its end. -/
theorem ahead_gap (h : pos ≤ min stop (byteLength source)) :
    Ahead ((bytes source).take stop) pos (((bytes source).take stop).drop pos) where
  drop_eq := rfl
  length_eq := by
    rw [List.length_drop, List.length_take, length_bytes]
    omega

theorem scanGap_min (source : String) (pos stop : Nat) :
    scanGap source pos (min stop (byteLength source)) = scanGap source pos stop := by
  rw [scanGap, scanGap, ← length_bytes, ← List.take_eq_take_min]

theorem ordered_scanGap (h : pos ≤ stop) : Ordered (scanGap source pos stop) where
  apart := scan_apart .gap pos _
  nonempty _ hc := (scanGap_bounds h hc).2.1

theorem delimited_of_mem_scanGap {c : Comment} (hc : c ∈ scanGap source pos stop) :
    c.Delimited ((bytes source).take stop) := by
  rcases Nat.lt_or_ge pos (min stop (byteLength source)) with hlt | hge
  · exact scan_delimited .gap pos _ (ahead_gap hlt.le) trivial c hc
  · rw [scanGap_eq_nil hge] at hc
    cases hc

theorem opens_of_mem_scanGap {c : Comment} (hc : c ∈ scanGap source pos stop) :
    c.pos + 2 ≤ c.stop ∧ OpensAt (bytes source) c.isMultiLine c.pos := by
  have hdelimited := delimited_of_mem_scanGap hc
  have hprefix {i : Nat} {b : UInt8} (hb : ((bytes source).take stop)[i]? = some b) :
      (bytes source)[i]? = some b := by
    rw [List.getElem?_take] at hb
    split_ifs at hb
    exact hb
  exact ⟨hdelimited.long, hprefix hdelimited.opens.1, hprefix hdelimited.opens.2⟩

/-- In a range of a text that ends between characters, the comments that are found come one behind
    the other; each lies in the range, begins and ends between characters, begins with its delimiter
    and ends where it has to; and every opening delimiter in the range has a byte in a comment. -/
theorem scanGap_exact (source : String) (pos stop : Nat)
    (hstop : isBoundary source (min stop (byteLength source)) = true) :
    Ordered (scanGap source pos stop) ∧
      (∀ c ∈ scanGap source pos stop, pos ≤ c.pos ∧ c.stop ≤ min stop (byteLength source) ∧
        isBoundary source c.pos = true ∧ isBoundary source c.stop = true ∧
        c.Delimited ((bytes source).take stop)) ∧
      ∀ i isMultiLine, pos ≤ i → OpensAt ((bytes source).take stop) isMultiLine i →
        ∃ c ∈ scanGap source pos stop, i < c.stop ∧ c.pos < i + 2 := by
  rcases Nat.lt_or_ge pos (min stop (byteLength source)) with hlt | hge
  · refine ⟨?_, fun c hc => ?_, fun i isMultiLine hi h => ?_⟩
    · rw [← scanGap_min]
      exact ordered_scanGap hlt.le
    · rw [← scanGap_min] at hc
      obtain ⟨hpos, -, hbound⟩ := scanGap_bounds hlt.le hc
      obtain ⟨hfirst, hlast⟩ := isBoundary_of_mem_scanGap hlt.le hstop hc
      rw [scanGap_min] at hc
      exact ⟨hpos, hbound, hfirst, hlast, delimited_of_mem_scanGap hc⟩
    · exact scan_covers .gap pos _ (ahead_gap hlt.le) hi h
  · rw [scanGap_eq_nil hge]
    refine ⟨⟨.nil, List.forall_mem_nil _⟩, List.forall_mem_nil _, fun i isMultiLine hi h => ?_⟩
    have hlength := h.lt_length
    rw [List.length_take, length_bytes] at hlength
    omega

/-- A gap behind a long character, with a block comment whose first two bytes overlap a closing
    delimiter, a line comment that a lone carriage return ends, and a comment that is not closed. -/
def mixedGap : String := "é /*/ a */ // b\r/* c"

theorem scanGap_exact_mixed :
    isBoundary mixedGap (min 40 (byteLength mixedGap)) = true ∧
      scanGap mixedGap 2 40 =
        [⟨3, 11, true, false⟩, ⟨12, 16, false, true⟩, ⟨17, 21, true, false⟩] ∧
      Ordered (scanGap mixedGap 2 40) ∧
      (∀ c ∈ scanGap mixedGap 2 40, c.Delimited ((bytes mixedGap).take 40)) ∧
      OpensAt ((bytes mixedGap).take 40) true 17 ∧
      ∃ c ∈ scanGap mixedGap 2 40, 17 < c.stop ∧ c.pos < 19 := by
  have hstop : isBoundary mixedGap (min 40 (byteLength mixedGap)) = true := by decide
  have hopens : OpensAt ((bytes mixedGap).take 40) true 17 := by
    rw [OpensAt]
    decide
  obtain ⟨hordered, hcomments, hcovers⟩ := scanGap_exact mixedGap 2 40 hstop
  exact ⟨hstop, by decide, hordered, fun c hc => (hcomments c hc).2.2.2.2, hopens,
    hcovers 17 true (by decide) hopens⟩

end TypeLint.Text.Comment
