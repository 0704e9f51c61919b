import TypeLint.Proofs.Emission.Comments

namespace TypeLint.Text.Comment

/-- Comments that are not empty and come one behind the other. -/
structure Ordered (comments : List Comment) : Prop where
  apart : comments.Pairwise fun c d => c.stop ≤ d.pos
  nonempty : ∀ c ∈ comments, c.pos < c.stop

theorem Ordered.eq_of_pos_eq {comments : List Comment} (h : Ordered comments) {c d : Comment}
    (hc : c ∈ comments) (hd : d ∈ comments) (hpos : c.pos = d.pos) : c = d := by
  by_contra hne
  let apart (c d : Comment) : Prop := c.stop ≤ d.pos ∨ d.stop ≤ c.pos
  have hsymm : Std.Symm apart := ⟨fun _ _ => Or.symm⟩
  have hapart : comments.Pairwise apart := h.apart.imp Or.inl
  have hcd := hapart.forall hc hd hne
  have hcnonempty := h.nonempty c hc
  have hdnonempty := h.nonempty d hd
  simp only [apart] at hcd
  omega

theorem Ordered.nodup {comments : List Comment} (h : Ordered comments) : comments.Nodup :=
  h.apart.imp_of_mem fun {c d} hc _ hcd heq => by
    have hnonempty := h.nonempty c hc
    rw [← heq] at hcd
    omega

theorem Ordered.sublist {found comments : List Comment} (h : Ordered comments)
    (hsub : found.Sublist comments) : Ordered found where
  apart := h.apart.sublist hsub
  nonempty c hc := h.nonempty c (hsub.subset hc)

/-- Comments that come one behind the other are known by which they are. -/
theorem Ordered.eq_of_mem_iff {cs ds : List Comment} (hcs : Ordered cs) (hds : Ordered ds)
    (h : ∀ c, c ∈ cs ↔ c ∈ ds) : cs = ds := by
  have hperm := (List.perm_ext_iff_of_nodup hcs.nodup hds.nodup).mpr h
  refine hperm.eq_of_pairwise (fun c d hc hd hcd hdc => ?_) hcs.apart hds.apart
  have hcnonempty := hcs.nonempty c hc
  have hdnonempty := hds.nonempty d hd
  omega

/-- A comment that is found ends in front of the ones found behind it. -/
theorem scan_apart (scanned : Scan) (pos : Nat) (bs : List UInt8) :
    (scan scanned pos bs).Pairwise fun c d => c.stop ≤ d.pos := by
  have hbehind {stop pos : Nat} (hstop : stop ≤ pos) (bs : List UInt8) :
      ∀ d ∈ scan .gap pos bs, stop ≤ d.pos := fun d hd =>
    hstop.trans (scan_bounds .gap pos bs trivial d hd).1
  fun_induction scan scanned pos bs with
  | case1 | case2 | case3 | case7 | case9 => assumption
  | case4 => exact .nil
  | case5 | case10 => exact List.pairwise_singleton _ _
  | case6 start pos a rest hbreak ih =>
    exact List.pairwise_cons.mpr ⟨hbehind (Nat.le_succ pos) rest, ih⟩
  | case8 start pos a b rest hab ih =>
    exact List.pairwise_cons.mpr ⟨hbehind (le_refl (pos + 2)) rest, ih⟩

/-- The comments of a gap lie in it and are not empty. -/
theorem scanGap_bounds {source : String} {pos stop : Nat} (h : pos ≤ stop) {c : Comment}
    (hc : c ∈ scanGap source pos stop) : pos ≤ c.pos ∧ c.pos < c.stop ∧ c.stop ≤ stop := by
  have hbounds := scan_bounds .gap pos _ trivial c hc
  simp only [Scan.begin, List.length_drop, List.length_take] at hbounds
  omega

/-- The search ends at the last candidate that satisfies a condition which exactly the candidates
    below a bound satisfy; if there is none, it ends where it began. -/
theorem lastCandidate_eq {p : Nat → Bool} {bound fuel base size : Nat} (hsize : 0 < size)
    (hfuel : size ≤ fuel + 1) (hp : ∀ i < base + size, p i = decide (i < bound)) :
    lastCandidate p fuel base size = max base (min bound (base + size) - 1) := by
  induction fuel generalizing base size with
  | zero =>
    rw [lastCandidate]
    omega
  | succ fuel ih =>
    rw [lastCandidate]
    split_ifs with hone
    · omega
    · have hmiddle := hp (base + size / 2) (by omega)
      simp only [hmiddle, decide_eq_true_iff]
      split_ifs with hhalf
      · rw [ih (by omega) (by omega) fun i hi => hp i (by omega)]
        omega
      · rw [ih (by omega) (by omega) fun i hi => hp i (by omega)]
        omega

/-- If a condition holds of the entries below a bound and of no others, then their number is
    found. -/
theorem leadingCount_eq {p : Comment → Bool} {comments : Array Comment} {bound : Nat}
    (hbound : bound ≤ comments.size)
    (h : ∀ i c, comments[i]? = some c → p c = decide (i < bound)) :
    leadingCount p comments = bound := by
  rcases Nat.eq_zero_or_pos comments.size with hempty | hpos
  · rw [leadingCount, if_pos hempty]
    omega
  · have htest (i : Nat) (hi : i < comments.size) :
        (comments[i]?.map p).getD false = decide (i < bound) := by
      have hget : comments[i]? = some comments[i] := Array.getElem?_eq_getElem hi
      rw [hget, Option.map_some, Option.getD_some, h i _ hget]
    have hbase : lastCandidate (fun i => (comments[i]?.map p).getD false) comments.size 0
        comments.size = bound - 1 := by
      have hp (i : Nat) (hi : i < 0 + comments.size) :
          (comments[i]?.map p).getD false = decide (i < bound) := htest i (by omega)
      rw [lastCandidate_eq hpos (Nat.le_succ _) hp]
      omega
    have hlast : bound - 1 < comments.size := by omega
    simp only [leadingCount, if_neg hpos.ne', hbase, htest _ hlast, decide_eq_true_iff]
    split_ifs <;> omega

/-- A condition that holds of an entry only if it holds of those in front of it holds below a
    bound and not from there on. -/
theorem exists_bound {p : Comment → Bool} {comments : List Comment}
    (h : comments.Pairwise fun c d => p d = true → p c = true) :
    ∃ bound ≤ comments.length, ∀ i c, comments[i]? = some c → p c = decide (i < bound) := by
  induction comments with
  | nil => exact ⟨0, le_refl 0, fun i c hc => by cases hc⟩
  | cons head rest ih =>
    obtain ⟨hhead, hrest⟩ := List.pairwise_cons.mp h
    obtain ⟨bound, hbound, hp⟩ := ih hrest
    cases hfirst : p head with
    | true =>
      refine ⟨bound + 1, Nat.succ_le_succ hbound, fun i c hc => ?_⟩
      cases i with
      | zero =>
        obtain rfl := Option.some.inj hc
        simpa using hfirst
      | succ i => simpa using hp i c hc
    | false =>
      refine ⟨0, Nat.zero_le _, fun i c hc => ?_⟩
      have hnot : p c ≠ true := by
        rcases List.mem_cons.mp (List.mem_of_getElem? hc) with rfl | hmem
        · exact Bool.eq_false_iff.mp hfirst
        · exact fun hc => Bool.false_ne_true (hfirst.symm.trans (hhead c hmem hc))
      simpa using hnot

/-- The searches in a table whose comments come one behind the other find those that lie in a
    range. -/
theorem mem_inRange_iff {comments : Array Comment} (h : Ordered comments.toList) {pos stop : Nat}
    {c : Comment} : c ∈ inRange comments pos stop ↔ c ∈ comments ∧ pos ≤ c.pos ∧ c.stop ≤ stop := by
  have hbefore : comments.toList.Pairwise fun c d =>
      decide (d.pos < pos) = true → decide (c.pos < pos) = true :=
    h.apart.imp_of_mem fun {c d} hc _ hcd => by
      have hnonempty := h.nonempty c hc
      simp only [decide_eq_true_iff]
      omega
  have hinside : comments.toList.Pairwise fun c d =>
      decide (d.stop ≤ stop) = true → decide (c.stop ≤ stop) = true :=
    h.apart.imp_of_mem fun {c d} _ hd hcd => by
      have hnonempty := h.nonempty d hd
      simp only [decide_eq_true_iff]
      omega
  obtain ⟨first, hfirst, hpos⟩ := exists_bound hbefore
  obtain ⟨last, hlast, hstop⟩ := exists_bound hinside
  simp only [Array.getElem?_toList, Array.length_toList] at hpos hstop hfirst hlast
  have hrange : c ∈ inRange comments pos stop ↔
      ∃ i, first ≤ i ∧ i < last ∧ comments[i]? = some c := by
    simp only [inRange, leadingCount_eq hfirst hpos, leadingCount_eq hlast hstop]
    split_ifs with hempty
    · simp only [List.not_mem_nil, false_iff, not_exists]
      omega
    · rw [Array.mem_toList_iff, Array.mem_iff_getElem?]
      simp only [Array.getElem?_extract]
      constructor
      · rintro ⟨i, hi⟩
        split_ifs at hi with hlt
        · exact ⟨first + i, by omega, by omega, hi⟩
      · rintro ⟨i, hi, hlt, hget⟩
        exact ⟨i - first, by rw [if_pos (by omega), Nat.add_sub_cancel' hi, hget]⟩
  rw [hrange, Array.mem_iff_getElem?]
  constructor
  · rintro ⟨i, hi, hlt, hget⟩
    have hi' := hpos i c hget
    have hlt' := hstop i c hget
    rw [decide_eq_decide] at hi' hlt'
    exact ⟨⟨i, hget⟩, by omega, by omega⟩
  · rintro ⟨⟨i, hget⟩, hc⟩
    have hi' := hpos i c hget
    have hlt' := hstop i c hget
    rw [decide_eq_decide] at hi' hlt'
    exact ⟨i, by omega, by omega, hget⟩

end TypeLint.Text.Comment
