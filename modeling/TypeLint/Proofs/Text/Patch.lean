import TypeLint.Edit
import TypeLint.Proofs.Text.Slices

namespace TypeLint

open Text

/-- Edits of a file that turn an old text, which begins at an offset of the file, into a new
    one. -/
inductive Patch (file : String) : Nat → String → String → List TextEdit → Prop where
  | keep (offset : Nat) (text : String) : Patch file offset text text []
  | change (offset : Nat) (old new : String) :
    Patch file offset old new [⟨file, offset, offset + byteLength old, new⟩]
  | append {offset : Nat} {old new old' new' : String} {edits edits' : List TextEdit}
    (front : Patch file offset old new edits)
    (behind : Patch file (offset + byteLength old) old' new' edits') :
    Patch file offset (old ++ old') (new ++ new') (edits ++ edits')

namespace Patch

variable {file : String} {offset : Nat} {old new : String} {edits : List TextEdit}

theorem append_at {offset' : Nat} {old' new' : String} {edits' : List TextEdit}
    (front : Patch file offset old new edits) (hoffset : offset' = offset + byteLength old)
    (behind : Patch file offset' old' new' edits') :
    Patch file offset (old ++ old') (new ++ new') (edits ++ edits') :=
  .append front (hoffset ▸ behind)

/-- The edits lie in the old text. -/
theorem within (h : Patch file offset old new edits) :
    ∀ e ∈ edits, offset ≤ e.start ∧ e.start ≤ e.stop ∧ e.stop ≤ offset + byteLength old := by
  induction h with
  | keep offset text => simp
  | change offset old new => simp
  | append front behind ihfront ihbehind =>
    intro e he
    rw [byteLength_append]
    rcases List.mem_append.mp he with he | he
    · have hbounds := ihfront e he
      omega
    · have hbounds := ihbehind e he
      omega

/-- Every edit begins behind the ends of the edits in front of it. -/
theorem ordered (h : Patch file offset old new edits) :
    edits.Pairwise fun a b => a.stop ≤ b.start := by
  induction h with
  | keep offset text => exact .nil
  | change offset old new => exact List.pairwise_singleton ..
  | append front behind ihfront ihbehind =>
    refine List.pairwise_append.mpr ⟨ihfront, ihbehind, fun a ha b hb => ?_⟩
    have hfront := front.within a ha
    have hbehind := behind.within b hb
    omega

/-- Applying an edit at boundaries of a text writes what has been kept so far and what is new. -/
theorem applyFrom_cons {text : String} {cursor : Nat} {e : TextEdit} {kept : List Char}
    (hstart : isBoundary text e.start = true) (hstop : isBoundary text e.stop = true)
    (hkept : sliceChars? text.toList cursor e.start = some kept) (rest : List TextEdit) :
    Fix.applyFrom text cursor (e :: rest) =
      (Fix.applyFrom text e.stop rest).map (kept ++ e.newText.toList ++ ·) := by
  rw [Fix.applyFrom, hstart, hstop, hkept]
  cases Fix.applyFrom text e.stop rest <;> rfl

/-- Applying the edits to a whole text writes the new text in place of the old one. What lies
    between the cursor and the next edit is still to be written. -/
theorem applyFrom_eq (h : Patch file offset old new edits) (written kept after : String)
    (hoffset : offset = byteLength (written ++ kept)) :
    ∃ written' kept' added : String, written ++ kept ++ old = written' ++ kept' ∧
      kept ++ new = added ++ kept' ∧
      ∀ rest, Fix.applyFrom (written ++ kept ++ old ++ after) (byteLength written)
          (edits ++ rest) =
        (Fix.applyFrom (written ++ kept ++ old ++ after) (byteLength written') rest).map
          (added.toList ++ ·) := by
  induction h generalizing written kept after with
  | keep offset text =>
    refine ⟨written, kept ++ text, "", by rw [String.append_assoc], by rw [String.empty_append],
      fun rest => ?_⟩
    rw [List.nil_append]
    cases Fix.applyFrom (written ++ kept ++ text ++ after) (byteLength written) rest <;> rfl
  | change offset old new =>
    refine ⟨written ++ kept ++ old, "", kept ++ new, by rw [String.append_empty],
      by rw [String.append_empty], fun rest => ?_⟩
    subst hoffset
    have hstart := isBoundary_append (written ++ kept) (old ++ after)
    have hstop := isBoundary_append (written ++ kept ++ old) after
    have hkept := sliceChars?_append written.toList kept.toList (old ++ after).toList
    rw [← String.append_assoc] at hstart
    rw [← String.toList_append, ← String.toList_append, byteCount_toList, byteCount_toList,
      ← byteLength_append, ← String.append_assoc] at hkept
    rw [byteLength_append (written ++ kept)] at hstop ⊢
    rw [List.singleton_append, applyFrom_cons hstart hstop hkept, String.toList_append]
  | @append offset old new old' new' edits edits' front behind ihfront ihbehind =>
    obtain ⟨written₁, kept₁, added₁, hold₁, hnew₁, happly₁⟩ :=
      @ihfront written kept (old' ++ after) hoffset
    obtain ⟨written₂, kept₂, added₂, hold₂, hnew₂, happly₂⟩ :=
      @ihbehind written₁ kept₁ after
        (by rw [← hold₁, hoffset, ← byteLength_append])
    refine ⟨written₂, kept₂, added₁ ++ added₂, ?_, ?_, fun rest => ?_⟩
    · rw [← String.append_assoc, hold₁, hold₂]
    · rw [← String.append_assoc, hnew₁, String.append_assoc, hnew₂, String.append_assoc]
    · rw [← hold₁] at happly₂
      simp only [← String.append_assoc] at happly₁ happly₂ ⊢
      rw [List.append_assoc, happly₁, happly₂]
      cases Fix.applyFrom (written ++ kept ++ old ++ old' ++ after) (byteLength written₂) rest with
      | error e => rfl
      | ok result => simp [Except.map]

end Patch

theorem rangeLE_iff {a b : Nat × Nat} :
    rangeLE a b = true ↔ a.1 < b.1 ∨ a.1 = b.1 ∧ a.2 ≤ b.2 := by
  simp [rangeLE]

theorem rangeLE_trans (a b c : Nat × Nat) (hab : rangeLE a b = true) (hbc : rangeLE b c = true) :
    rangeLE a c = true := by
  rw [rangeLE_iff] at *
  omega

theorem rangeLE_total (a b : Nat × Nat) : (rangeLE a b || rangeLE b a) = true := by
  rw [Bool.or_eq_true, rangeLE_iff, rangeLE_iff]
  omega

namespace Fix

theorem overlap?_eq_none {ranges : List (Nat × Nat)}
    (h : ranges.Pairwise fun a b => a.2 ≤ b.1) : overlap? ranges = none := by
  induction ranges with
  | nil => rfl
  | cons first rest ih =>
    cases rest with
    | nil => rfl
    | cons second rest =>
      obtain ⟨hfirst, hrest⟩ := List.pairwise_cons.mp h
      rw [overlap?, if_neg (Nat.not_lt.mpr (hfirst second (List.mem_cons_self ..))), ih hrest]

/-- A fix whose edits are in order those of a patch validates and turns the old text into the new
    one. -/
theorem apply_of_patch {f : Fix} {file old new : String}
    (h : Patch file 0 old new f.sortedEdits) :
    f.validate (byteLength old) = .ok () ∧ f.apply old = .ok new := by
  have hmisplaced : misplaced? (byteLength old) (f.edits.map TextEdit.range) = none := by
    rw [misplaced?, List.find?_eq_none]
    intro r hr
    obtain ⟨e, he, rfl⟩ := List.mem_map.mp hr
    have hbounds := h.within e (List.mem_mergeSort.mpr he)
    have hright : e.start ≤ e.stop ∧ e.stop ≤ byteLength old := by omega
    simp [TextEdit.range, hright]
  have hoverlap : overlap? ((f.edits.map TextEdit.range).mergeSort rangeLE) = none := by
    rw [← List.map_mergeSort (r := fun a b => rangeLE a.range b.range) fun _ _ _ _ => rfl]
    exact overlap?_eq_none (List.pairwise_map.mpr h.ordered)
  have hvalid : f.validate (byteLength old) = .ok () := by
    simp only [validate, hmisplaced, hoverlap]
  obtain ⟨written, kept, added, hold, hnew, happly⟩ :=
    h.applyFrom_eq "" "" "" rfl
  have hrest := sliceChars?_append written.toList kept.toList []
  simp only [String.empty_append, String.append_empty] at hold hnew happly
  have hwritten : applyFrom old 0 f.sortedEdits = .ok new.toList := by
    rw [← List.append_nil f.sortedEdits]
    refine (happly []).trans ?_
    rw [List.append_nil, byteCount_toList, byteCount_toList, ← byteLength_append, ← hold,
      ← String.toList_append, ← hold] at hrest
    simp only [applyFrom, hrest, hnew, Option.getD_some, Except.map, String.toList_append]
  refine ⟨hvalid, ?_⟩
  rw [apply, hvalid, hwritten]
  simp only [bind, Except.bind, pure, Except.pure, String.ofList_toList]

/-- Edits that come in the order of their ranges stay in their order. -/
theorem sortedEdits_eq_self {f : Fix} (h : f.edits.Pairwise fun a b => a.stop ≤ b.start)
    (hranges : ∀ e ∈ f.edits, e.start ≤ e.stop) : f.sortedEdits = f.edits := by
  refine List.mergeSort_of_pairwise (h.imp_of_mem fun {a b} ha hb hab => ?_)
  have hleft := hranges a ha
  have hright := hranges b hb
  rw [rangeLE_iff]
  simp only [TextEdit.range]
  omega

/-- A fix with the edits of a patch in any order validates and turns the old text into the new
    one, if no edit of the patch is an insertion. -/
theorem apply_of_perm {f : Fix} {file old new : String} {edits : List TextEdit}
    (h : Patch file 0 old new edits) (hedits : ∀ e ∈ edits, e.start < e.stop)
    (hperm : f.edits.Perm edits) :
    f.validate (byteLength old) = .ok () ∧ f.apply old = .ok new := by
  have hsorted : f.sortedEdits = edits := by
    have hordered : edits.Pairwise fun a b => a.start < b.start :=
      h.ordered.imp_of_mem fun {a b} ha _ hab => (hedits a ha).trans_le hab
    have hbefore : edits.Pairwise fun a b => rangeLE a.range b.range = true :=
      hordered.imp fun hab => rangeLE_iff.mpr (.inl hab)
    have hafter : f.sortedEdits.Pairwise fun a b => rangeLE a.range b.range = true :=
      List.pairwise_mergeSort (fun a b c => rangeLE_trans a.range b.range c.range)
        (fun a b => rangeLE_total a.range b.range) f.edits
    refine List.Perm.eq_of_pairwise (fun a b ha hb hab hba => ?_) hafter hbefore
      ((List.mergeSort_perm _ _).trans hperm)
    refine List.inj_on_of_nodup_map (f := TextEdit.start)
      (List.pairwise_map.mpr (hordered.imp fun hab => Nat.ne_of_lt hab))
      (hperm.mem_iff.mp (List.mem_mergeSort.mp ha)) hb ?_
    rw [rangeLE_iff] at hab hba
    simp only [TextEdit.range] at hab hba
    omega
  exact apply_of_patch (hsorted ▸ h)

end Fix

end TypeLint
