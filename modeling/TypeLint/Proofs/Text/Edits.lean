import TypeLint.Proofs.Text.Slices
import TypeLint.Proofs.Text.Patch

namespace TypeLint

open Text

namespace TextEdit

/-- The edit replaces a range of the text, and the range begins and ends between characters. -/
structure Fits (e : TextEdit) (text : String) : Prop where
  le : e.start ≤ e.stop
  within : e.stop ≤ byteLength text
  start : isBoundary text e.start = true
  stop : isBoundary text e.stop = true

/-- In the order of the ranges, the later one of two edits begins at or behind the end of the
    earlier one. -/
def Apart (a b : TextEdit) : Prop :=
  (rangeLE a.range b.range = true → a.stop ≤ b.start) ∧
    (rangeLE b.range a.range = true → b.stop ≤ a.start)

theorem Apart.symm {a b : TextEdit} (h : Apart a b) : Apart b a := ⟨h.2, h.1⟩

instance : Std.Symm Apart := ⟨fun _ _ => Apart.symm⟩

/-- The edit replaces nothing. -/
def IsInsertion (e : TextEdit) : Prop := e.start = e.stop

/-- The text with what is new in place of the range of the edit, if that is a range of the text. -/
def replaceIn? (e : TextEdit) (text : String) : Option String := do
  let front ← slice? text 0 e.start
  let _ ← slice? text e.start e.stop
  let behind ← slice? text e.stop (byteLength text)
  some (front ++ e.newText ++ behind)

theorem replaceIn?_append {e : TextEdit} {front old behind : String}
    (hstart : e.start = byteLength front) (hstop : e.stop = byteLength (front ++ old)) :
    e.replaceIn? (front ++ old ++ behind) = some (front ++ e.newText ++ behind) := by
  have hfront := slice?_append "" front (old ++ behind)
  have hold := slice?_append front old behind
  have hbehind := slice?_append (front ++ old) behind ""
  rw [String.empty_append, ← String.append_assoc, byteLength_empty, Nat.zero_add] at hfront
  rw [← byteLength_append] at hold
  rw [String.append_empty, ← byteLength_append] at hbehind
  rw [replaceIn?, hstart, hstop, hfront, hold, hbehind]
  rfl

/-- Behind a front part of the text that ends before the edit, the edit cuts out its range. -/
theorem Fits.exists_append {e : TextEdit} {written rest : String}
    (h : e.Fits (written ++ rest)) (hcursor : byteLength written ≤ e.start) :
    ∃ kept old behind, rest = kept ++ old ++ behind ∧ e.start = byteLength (written ++ kept) ∧
      e.stop = byteLength (written ++ kept ++ old) := by
  obtain ⟨front, behind, htext, hfront⟩ := isBoundary_iff.mp h.start
  obtain ⟨front', behind', htext', hfront'⟩ := isBoundary_iff.mp h.stop
  obtain ⟨kept, rfl, rfl⟩ := exists_append_of_le htext (hfront ▸ hcursor)
  obtain ⟨old, rfl, rfl⟩ := exists_append_of_le (htext.symm.trans htext') (by
    rw [hfront, hfront']
    exact h.le)
  exact ⟨kept, old, behind', (String.append_assoc ..).symm, hfront.symm, hfront'.symm⟩

end TextEdit

/-- The text after one range at a time has been replaced, from the last one to the first. -/
def replaceAll? (text : String) : List TextEdit → Option String
  | [] => some text
  | e :: rest => (replaceAll? text rest).bind e.replaceIn?

/-- The number of bytes that edits take out of a text. -/
def removedBytes (edits : List TextEdit) : Nat := (edits.map fun e => e.stop - e.start).sum

/-- The number of bytes that edits put into a text. -/
def insertedBytes (edits : List TextEdit) : Nat := (edits.map fun e => byteLength e.newText).sum

namespace Fix

/-- Behind what has been written, applying edits that come one behind the other gives what replacing
    one range at a time gives. -/
theorem exists_applyFrom {text : String} {edits : List TextEdit}
    (hfits : ∀ e ∈ edits, e.Fits text) (hordered : edits.Pairwise fun a b => a.stop ≤ b.start)
    {written rest : String} (htext : text = written ++ rest)
    (hcursor : ∀ e ∈ edits, byteLength written ≤ e.start) :
    ∃ added : String, applyFrom text (byteLength written) edits = .ok added.toList ∧
      replaceAll? text edits = some (written ++ added) ∧
      byteLength added + removedBytes edits = byteLength rest + insertedBytes edits := by
  induction edits generalizing written rest with
  | nil =>
    have hrest := sliceChars?_append written.toList rest.toList []
    rw [List.append_nil, byteCount_toList, byteCount_toList, ← byteLength_append,
      ← String.toList_append] at hrest
    refine ⟨rest, ?_, htext ▸ rfl, rfl⟩
    rw [applyFrom, htext, hrest]
    rfl
  | cons e edits ih =>
    obtain ⟨hfirst, hordered⟩ := List.pairwise_cons.mp hordered
    obtain ⟨he, hfits⟩ := List.forall_mem_cons.mp hfits
    obtain ⟨kept, old, behind, rfl, hstart, hstop⟩ :=
      (htext ▸ he).exists_append (hcursor e (List.mem_cons_self ..))
    have htext' : text = written ++ kept ++ old ++ behind := by
      rw [htext, String.append_assoc, String.append_assoc, String.append_assoc]
    obtain ⟨added, happly, hreplace, hbytes⟩ :=
      ih hfits hordered htext' fun e' he' => hstop ▸ hfirst e' he'
    have hkept : sliceChars? text.toList (byteLength written) e.start = some kept.toList := by
      have hslice := sliceChars?_append written.toList kept.toList (old ++ behind).toList
      rwa [← String.toList_append, ← String.toList_append, byteCount_toList, byteCount_toList,
        ← byteLength_append, ← hstart, ← String.append_assoc, ← htext'] at hslice
    refine ⟨kept ++ e.newText ++ added, ?_, ?_, ?_⟩
    · rw [Patch.applyFrom_cons he.start he.stop hkept, hstop, happly, Except.map,
        String.toList_append, String.toList_append]
    · rw [replaceAll?, hreplace, Option.bind_some, TextEdit.replaceIn?_append hstart hstop]
      simp only [String.append_assoc]
    · rw [byteLength_append] at hstart hstop
      simp only [removedBytes, insertedBytes, List.map_cons, List.sum_cons, byteLength_append]
        at hbytes hstart hstop ⊢
      omega

theorem boundaries_of_applyFrom {text : String} {edits : List TextEdit} {cursor : Nat}
    {written : List Char} (h : applyFrom text cursor edits = .ok written) :
    ∀ e ∈ edits, isBoundary text e.start = true ∧ isBoundary text e.stop = true := by
  induction edits generalizing cursor written with
  | nil => exact List.forall_mem_nil _
  | cons e edits ih =>
    cases hstart : isBoundary text e.start with
    | false =>
      rw [applyFrom, hstart] at h
      cases h
    | true =>
      cases hstop : isBoundary text e.stop with
      | false =>
        rw [applyFrom, hstart, hstop] at h
        cases h
      | true =>
        rw [applyFrom, hstart, hstop] at h
        cases hrest : applyFrom text e.stop edits with
        | error error =>
          rw [hrest] at h
          cases h
        | ok rest => exact List.forall_mem_cons.mpr ⟨⟨hstart, hstop⟩, ih hrest⟩

/-- That neighbours in the order of the ranges do not overlap is enough for all of them. -/
theorem overlap?_eq_none_iff {ranges : List (Nat × Nat)}
    (hsorted : ranges.Pairwise fun a b => rangeLE a b = true) (hle : ∀ r ∈ ranges, r.1 ≤ r.2) :
    overlap? ranges = none ↔ ranges.Pairwise fun a b => a.2 ≤ b.1 := by
  refine ⟨fun h => ?_, overlap?_eq_none⟩
  induction ranges with
  | nil => exact .nil
  | cons first rest ih =>
    obtain ⟨hfirst, hsorted⟩ := List.pairwise_cons.mp hsorted
    obtain ⟨-, hle⟩ := List.forall_mem_cons.mp hle
    cases rest with
    | nil => exact List.pairwise_singleton ..
    | cons second rest =>
      rw [overlap?] at h
      split at h
      · cases h
      · next hnear =>
        have hrest := ih hsorted hle h
        refine List.pairwise_cons.mpr ⟨List.forall_mem_cons.mpr ⟨by omega, fun r hr => ?_⟩, hrest⟩
        have hsecond := (List.pairwise_cons.mp hrest).1 r hr
        have hrange := hle second (List.mem_cons_self ..)
        omega

theorem pairwise_sortedEdits (f : Fix) :
    f.sortedEdits.Pairwise fun a b => rangeLE a.range b.range = true :=
  List.pairwise_mergeSort (fun a b c => rangeLE_trans a.range b.range c.range)
    (fun a b => rangeLE_total a.range b.range) f.edits

theorem sortedEdits_perm (f : Fix) : f.sortedEdits.Perm f.edits := List.mergeSort_perm ..

/-- In the order of their ranges, edits are apart exactly if each ends before the next ones. -/
theorem pairwise_apart_iff {edits : List TextEdit}
    (hsorted : edits.Pairwise fun a b => rangeLE a.range b.range = true)
    (hle : ∀ e ∈ edits, e.start ≤ e.stop) :
    edits.Pairwise TextEdit.Apart ↔ edits.Pairwise fun a b => a.stop ≤ b.start := by
  constructor
  · exact fun h => (h.and hsorted).imp fun ⟨hapart, hsorted⟩ => hapart.1 hsorted
  · refine fun h => h.imp_of_mem fun {a b} ha hb hab => ⟨fun _ => hab, fun hba => ?_⟩
    have hleft := hle a ha
    have hright := hle b hb
    rw [rangeLE_iff] at hba
    simp only [TextEdit.range] at hba
    omega

theorem validate_eq_ok_iff (f : Fix) (length : Nat) :
    f.validate length = .ok () ↔
      (∀ e ∈ f.edits, e.start ≤ e.stop ∧ e.stop ≤ length) ∧ f.edits.Pairwise TextEdit.Apart := by
  have hmisplaced : misplaced? length (f.edits.map TextEdit.range) = none ↔
      ∀ e ∈ f.edits, e.start ≤ e.stop ∧ e.stop ≤ length := by
    rw [misplaced?, List.find?_eq_none, List.forall_mem_map]
    simp only [Bool.or_eq_true, decide_eq_true_eq, not_or, Nat.not_lt, gt_iff_lt]
    rfl
  rw [validate, ← hmisplaced]
  cases hplace : misplaced? length (f.edits.map TextEdit.range) with
  | some r => simp
  | none =>
    have hle : ∀ e ∈ f.sortedEdits, e.start ≤ e.stop := fun e he =>
      (hmisplaced.mp hplace e (f.sortedEdits_perm.mem_iff.mp he)).1
    have hranges : (f.edits.map TextEdit.range).mergeSort rangeLE =
        f.sortedEdits.map TextEdit.range :=
      (List.map_mergeSort (r := fun a b => rangeLE (TextEdit.range a) b.range)
        fun _ _ _ _ => rfl).symm
    have hoverlap : overlap? (f.sortedEdits.map TextEdit.range) = none ↔
        f.edits.Pairwise TextEdit.Apart := by
      rw [overlap?_eq_none_iff (List.pairwise_map.mpr f.pairwise_sortedEdits)
          (List.forall_mem_map.mpr hle), List.pairwise_map,
        ← f.sortedEdits_perm.pairwise_iff TextEdit.Apart.symm,
        pairwise_apart_iff f.pairwise_sortedEdits hle]
      rfl
    simp only [hranges, true_and, ← hoverlap]
    cases overlap? (f.sortedEdits.map TextEdit.range) <;> simp

/-- The edits of a fix in the order of their ranges, where edits of the same range keep the order in
    which they are given. -/
structure Arranged (f : Fix) (edits : List TextEdit) : Prop where
  perm : edits.Perm f.edits
  sorted : edits.Pairwise fun a b => rangeLE a.range b.range = true
  stable : ∀ r, edits.filter (·.range = r) = f.edits.filter (·.range = r)

theorem arranged_sortedEdits (f : Fix) : f.Arranged f.sortedEdits where
  perm := f.sortedEdits_perm
  sorted := f.pairwise_sortedEdits
  stable r := by
    have hself (n : Nat × Nat) : rangeLE n n = true := rangeLE_iff.mpr (.inr ⟨rfl, Nat.le_refl _⟩)
    have hequal : (f.edits.filter (·.range = r)).Pairwise
        fun a b => rangeLE a.range b.range = true := by
      refine List.pairwise_of_forall_mem_list fun a ha b hb => ?_
      rw [of_decide_eq_true (List.mem_filter.mp ha).2, of_decide_eq_true (List.mem_filter.mp hb).2]
      exact hself r
    have hsub : (f.edits.filter (·.range = r)).Sublist f.sortedEdits :=
      List.sublist_mergeSort (fun a b c => rangeLE_trans a.range b.range c.range)
        (fun a b => rangeLE_total a.range b.range) hequal List.filter_sublist
    have hfilter := hsub.filter (·.range = r)
    rw [List.filter_filter] at hfilter
    simp only [Bool.and_self] at hfilter
    exact (hfilter.eq_of_length (f.sortedEdits_perm.filter _).length_eq.symm).symm

theorem map_range_eq {edits edits' : List TextEdit} (hperm : edits.Perm edits')
    (hsorted : edits.Pairwise fun a b => rangeLE a.range b.range = true)
    (hsorted' : edits'.Pairwise fun a b => rangeLE a.range b.range = true) :
    edits.map TextEdit.range = edits'.map TextEdit.range := by
  have hranges : (edits.map TextEdit.range).Pairwise fun a b => rangeLE a b = true :=
    List.pairwise_map.mpr hsorted
  have hranges' : (edits'.map TextEdit.range).Pairwise fun a b => rangeLE a b = true :=
    List.pairwise_map.mpr hsorted'
  refine List.Perm.eq_of_pairwise (fun a b _ _ hab hba => ?_) hranges hranges' (hperm.map _)
  rw [rangeLE_iff] at hab hba
  exact Prod.ext (by omega) (by omega)

/-- Edits in the order of their ranges are known from those of each range. -/
theorem eq_of_filter_eq {edits edits' : List TextEdit}
    (hsorted : edits.Pairwise fun a b => rangeLE a.range b.range = true)
    (hsorted' : edits'.Pairwise fun a b => rangeLE a.range b.range = true)
    (hsame : ∀ r, edits.filter (·.range = r) = edits'.filter (·.range = r)) : edits = edits' := by
  have hmem {r : Nat × Nat} {l l' : List TextEdit} {e : TextEdit} (he : e ∈ l) (hr : e.range = r)
      (hfilter : l.filter (·.range = r) = l'.filter (·.range = r)) : ∃ e' ∈ l', e'.range = r := by
    have hfound : e ∈ l'.filter (·.range = r) :=
      hfilter ▸ List.mem_filter.mpr ⟨he, decide_eq_true hr⟩
    exact ⟨e, (List.mem_filter.mp hfound).1, hr⟩
  have hhead {e : TextEdit} {l : List TextEdit} {r : Nat × Nat}
      (h : (e :: l).Pairwise fun a b => rangeLE a.range b.range = true)
      (hr : ∃ e' ∈ e :: l, e'.range = r) : rangeLE e.range r = true := by
    obtain ⟨e', he', rfl⟩ := hr
    rcases List.mem_cons.mp he' with rfl | he'
    · exact rangeLE_iff.mpr (.inr ⟨rfl, Nat.le_refl _⟩)
    · exact (List.pairwise_cons.mp h).1 e' he'
  induction edits generalizing edits' with
  | nil =>
    refine (List.eq_nil_iff_forall_not_mem.mpr fun e he => ?_).symm
    obtain ⟨e', he', -⟩ := hmem he rfl (hsame e.range).symm
    cases he'
  | cons e edits ih =>
    cases edits' with
    | nil =>
      obtain ⟨e', he', -⟩ := hmem (List.mem_cons_self ..) rfl (hsame e.range)
      cases he'
    | cons e' edits' =>
      have hle := hhead hsorted' (hmem (List.mem_cons_self ..) rfl (hsame e.range))
      have hle' := hhead hsorted (hmem (List.mem_cons_self ..) rfl (hsame e'.range).symm)
      have hrange : e.range = e'.range := by
        rw [rangeLE_iff] at hle hle'
        exact Prod.ext (by omega) (by omega)
      obtain rfl : e = e' := by
        have hfilter := hsame e.range
        rw [List.filter_cons_of_pos (by simp),
          List.filter_cons_of_pos (by simp [hrange])] at hfilter
        exact (List.cons.inj hfilter).1
      refine congrArg (e :: ·) (ih (List.pairwise_cons.mp hsorted).2
        (List.pairwise_cons.mp hsorted').2 fun r => ?_)
      have hfilter := hsame r
      by_cases hr : e.range = r
      · rw [List.filter_cons_of_pos (by simp [hr]), List.filter_cons_of_pos (by simp [hr])]
          at hfilter
        exact (List.cons.inj hfilter).2
      · rwa [List.filter_cons_of_neg (by simp [hr]), List.filter_cons_of_neg (by simp [hr])]
          at hfilter

/-- Edits that are apart from each other and of the same range are insertions, or the same. -/
theorem eq_of_range_eq {edits : List TextEdit} (hapart : edits.Pairwise TextEdit.Apart)
    {a b : TextEdit} (ha : a ∈ edits) (hb : b ∈ edits) (hrange : a.range = b.range)
    (hlt : a.start < a.stop) : a = b := by
  by_contra hne
  have hself : rangeLE a.range b.range = true :=
    rangeLE_iff.mpr (.inr ⟨congrArg Prod.fst hrange, (congrArg Prod.snd hrange).le⟩)
  have hle : a.stop ≤ b.start := (hapart.forall ha hb hne).1 hself
  have hstart : a.start = b.start := congrArg Prod.fst hrange
  omega

/-- The edits are the same, or insertions at the same offset. -/
def Interchanged (a b : TextEdit) : Prop :=
  a = b ∨ a.IsInsertion ∧ b.IsInsertion ∧ a.start = b.start

section

variable {f f' : Fix} {edits edits' : List TextEdit}

/-- Giving the edits in another order interchanges insertions at the same offset. -/
theorem Arranged.interchanged (hapart : f.edits.Pairwise TextEdit.Apart)
    (hle : ∀ e ∈ f.edits, e.start ≤ e.stop) (hperm : f'.edits.Perm f.edits)
    (h : f.Arranged edits) (h' : f'.Arranged edits') : List.Forall₂ Interchanged edits edits' := by
  have hsame : edits.Perm edits' := h.perm.trans (hperm.symm.trans h'.perm.symm)
  have hranges := map_range_eq hsame h.sorted h'.sorted
  rw [← List.forall₂_eq_eq_eq, List.forall₂_map_left_iff, List.forall₂_map_right_iff,
    List.forall₂_iff_zip] at hranges
  refine List.forall₂_iff_zip.mpr ⟨hranges.1, fun {a b} hab => ?_⟩
  have hrange : a.range = b.range := hranges.2 hab
  obtain ⟨ha, hb⟩ := List.of_mem_zip hab
  have ha := h.perm.mem_iff.mp ha
  have hb := hperm.mem_iff.mp (h'.perm.mem_iff.mp hb)
  have hstart : a.start = b.start := congrArg Prod.fst hrange
  have hstop : a.stop = b.stop := congrArg Prod.snd hrange
  rcases Nat.eq_or_lt_of_le (hle a ha) with hinsertion | hlt
  · exact .inr ⟨hinsertion, hstart.symm.trans (hinsertion.trans hstop), hstart⟩
  · exact .inl (eq_of_range_eq hapart ha hb hrange hlt)

/-- The order does not matter for the edits of a range that is not empty. -/
theorem filter_range_eq (hapart : f.edits.Pairwise TextEdit.Apart)
    (hle : ∀ e ∈ f.edits, e.start ≤ e.stop) (hperm : f'.edits.Perm f.edits)
    (hinsertions : ∀ offset, f'.edits.filter (·.range = (offset, offset)) =
      f.edits.filter (·.range = (offset, offset))) (r : Nat × Nat) :
    f'.edits.filter (·.range = r) = f.edits.filter (·.range = r) := by
  by_cases hempty : r.1 = r.2
  · have hr : r = (r.1, r.1) := Prod.ext rfl hempty.symm
    rw [hr]
    exact hinsertions r.1
  · have hequal {a b : TextEdit} (ha : a ∈ f.edits.filter (·.range = r))
        (hb : b ∈ f.edits.filter (·.range = r)) : a = b := by
      obtain ⟨ha, har⟩ := List.mem_filter.mp ha
      obtain ⟨hb, hbr⟩ := List.mem_filter.mp hb
      have har : a.range = r := of_decide_eq_true har
      refine eq_of_range_eq hapart ha hb (har.trans (of_decide_eq_true hbr).symm) ?_
      exact Nat.lt_of_le_of_ne (hle a ha) fun heq => hempty (har ▸ heq)
    have hfilter := hperm.filter (·.range = r)
    have hpair : (f.edits.filter (·.range = r)).Pairwise Eq :=
      List.pairwise_of_forall_mem_list fun a ha b hb => hequal ha hb
    have hpair' : (f'.edits.filter (·.range = r)).Pairwise Eq :=
      List.pairwise_of_forall_mem_list fun a ha b hb =>
        hequal (hfilter.mem_iff.mp ha) (hfilter.mem_iff.mp hb)
    exact List.Perm.eq_of_pairwise (fun a b _ _ hab _ => hab) hpair' hpair hfilter

end

theorem fits_of_validate {f : Fix} {text : String} (hvalid : f.validate (byteLength text) = .ok ())
    (hboundary : ∀ e ∈ f.edits, isBoundary text e.start = true ∧ isBoundary text e.stop = true) :
    ∀ e ∈ f.edits, e.Fits text := fun e he =>
  have hrange := ((f.validate_eq_ok_iff _).mp hvalid).1 e he
  ⟨hrange.1, hrange.2, (hboundary e he).1, (hboundary e he).2⟩

/-- A fix that can be applied, the result and its length. -/
theorem exists_apply {f : Fix} {text : String} (hfits : ∀ e ∈ f.edits, e.Fits text)
    (hapart : f.edits.Pairwise TextEdit.Apart) :
    ∃ result, f.apply text = .ok result ∧ replaceAll? text f.sortedEdits = some result ∧
      byteLength result + removedBytes f.edits = byteLength text + insertedBytes f.edits := by
  have hsorted : f.sortedEdits.Pairwise fun a b => a.stop ≤ b.start :=
    (pairwise_apart_iff f.pairwise_sortedEdits fun e he =>
      (hfits e (f.sortedEdits_perm.mem_iff.mp he)).le).mp
        ((f.sortedEdits_perm.pairwise_iff TextEdit.Apart.symm).mpr hapart)
  have htext : text = "" ++ text := String.empty_append.symm
  obtain ⟨result, happly, hreplace, hbytes⟩ :=
    exists_applyFrom (fun e he => hfits e (f.sortedEdits_perm.mem_iff.mp he)) hsorted htext
      fun e _ => Nat.zero_le _
  have hvalid : f.validate (byteLength text) = .ok () :=
    (f.validate_eq_ok_iff _).mpr ⟨fun e he => ⟨(hfits e he).le, (hfits e he).within⟩, hapart⟩
  rw [String.empty_append] at hreplace
  rw [byteLength_empty] at happly
  refine ⟨result, ?_, hreplace, ?_⟩
  · rw [apply, hvalid, happly]
    exact congrArg Except.ok String.ofList_toList
  · rwa [removedBytes, insertedBytes, (f.sortedEdits_perm.map _).sum_eq,
      (f.sortedEdits_perm.map _).sum_eq] at hbytes

theorem apply_eq_ok {f : Fix} {text result : String} (h : f.apply text = .ok result) :
    (∀ e ∈ f.edits, e.Fits text) ∧ f.edits.Pairwise TextEdit.Apart := by
  rw [apply] at h
  cases hvalid : f.validate (byteLength text) with
  | error error =>
    rw [hvalid] at h
    cases h
  | ok _ =>
    rw [hvalid] at h
    cases happly : applyFrom text 0 f.sortedEdits with
    | error error =>
      rw [happly] at h
      cases h
    | ok written =>
      refine ⟨fits_of_validate hvalid fun e he => ?_, ((f.validate_eq_ok_iff _).mp hvalid).2⟩
      exact boundaries_of_applyFrom happly e (f.sortedEdits_perm.mem_iff.mpr he)

/-- A fix can be applied exactly if its edits replace ranges of the text that are apart from each
    other. The result is that of replacing one range at a time, from the last one to the first,
    where insertions at the same offset keep their order, and it is as long as the edits say. Giving
    the edits in another order interchanges insertions at the same offset and changes nothing
    else. -/
theorem apply_spec (f : Fix) (text : String) :
    ((∃ result, f.apply text = .ok result) ↔
      (∀ e ∈ f.edits, e.Fits text) ∧ f.edits.Pairwise TextEdit.Apart) ∧
    ∀ result, f.apply text = .ok result →
      byteLength result + removedBytes f.edits = byteLength text + insertedBytes f.edits ∧
      ∃ edits, f.Arranged edits ∧ replaceAll? text edits = some result ∧
        ∀ f' : Fix, f'.edits.Perm f.edits →
          ∃ edits' result', f'.Arranged edits' ∧ List.Forall₂ Interchanged edits edits' ∧
            f'.apply text = .ok result' ∧ replaceAll? text edits' = some result' ∧
            ((∀ offset, f'.edits.filter (·.range = (offset, offset)) =
              f.edits.filter (·.range = (offset, offset))) → edits' = edits ∧ result' = result) := by
  refine ⟨⟨fun ⟨result, h⟩ => apply_eq_ok h, fun ⟨hfits, hapart⟩ => ?_⟩, fun result h => ?_⟩
  · obtain ⟨result, h, -⟩ := exists_apply hfits hapart
    exact ⟨result, h⟩
  · obtain ⟨hfits, hapart⟩ := apply_eq_ok h
    obtain ⟨result, h', hreplace, hbytes⟩ := exists_apply hfits hapart
    obtain rfl := Except.ok.inj (h'.symm.trans h)
    refine ⟨hbytes, f.sortedEdits, f.arranged_sortedEdits, hreplace, fun f' hperm => ?_⟩
    obtain ⟨result', h'', hreplace', -⟩ :=
      exists_apply (f := f') (fun e he => hfits e (hperm.mem_iff.mp he))
        ((hperm.pairwise_iff TextEdit.Apart.symm).mpr hapart)
    have hle (e : TextEdit) (he : e ∈ f.edits) : e.start ≤ e.stop := (hfits e he).le
    refine ⟨f'.sortedEdits, result', f'.arranged_sortedEdits,
      f.arranged_sortedEdits.interchanged hapart hle hperm f'.arranged_sortedEdits, h'', hreplace',
      fun hinsertions => ?_⟩
    have hedits : f'.sortedEdits = f.sortedEdits := by
      refine eq_of_filter_eq f'.pairwise_sortedEdits f.pairwise_sortedEdits fun r => ?_
      rw [f'.arranged_sortedEdits.stable, f.arranged_sortedEdits.stable,
        filter_range_eq hapart hle hperm hinsertions]
    rw [hedits] at hreplace'
    exact ⟨hedits, Option.some.inj (hreplace'.symm.trans hreplace)⟩

end Fix

end TypeLint
