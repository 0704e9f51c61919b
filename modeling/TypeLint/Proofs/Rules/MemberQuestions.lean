import TypeLint.Proofs.Types.Made
import TypeLint.Rules.MemberNullability

namespace TypeLint.Rules.MemberNullability

open TypeLint.Types TypeLint.Types.Store

variable {s : Store} {object key : TypeId}

theorem answers_anyType {question : TypeId → Store → Result Bool × Store}
    {answer : TypeId → Result Bool} {ids : List TypeId}
    (h : ∀ id ∈ ids, s.Answers (question id) (answer id)) :
    s.Answers (anyType question ids) (ids.anyM answer) := by
  induction ids with
  | nil => exact fun s' _ => ⟨rfl, .refl s'⟩
  | cons id rest ih =>
    intro s' hs
    obtain ⟨hanswer, hgrown⟩ := h id List.mem_cons_self s' hs
    have hrest := ih (fun other hother => h other (List.mem_cons_of_mem _ hother)) _
      (hs.trans hgrown)
    rw [anyType, List.anyM, ← hanswer]
    rcases hasked : question id s' with ⟨c | yes, s''⟩
    · rw [hasked] at hgrown
      exact ⟨rfl, hgrown⟩
    · rw [hasked] at hgrown hrest
      cases yes with
      | true => exact ⟨rfl, hgrown⟩
      | false => exact ⟨hrest.1, hgrown.trans hrest.2⟩

/-- Answers that are there stay when more is answered. -/
theorem anyM_eq_ok_of_imp {ids : List TypeId} {answer answer' : TypeId → Result Bool}
    (himp : ∀ id yes, answer id = .ok yes → answer' id = .ok yes) {yes : Bool}
    (h : ids.anyM answer = .ok yes) : ids.anyM answer' = .ok yes := by
  induction ids with
  | nil => exact h
  | cons id rest ih =>
    rw [List.anyM] at h ⊢
    obtain ⟨first, hfirst, h⟩ := Result.bind_eq_ok_iff.mp h
    refine Result.bind_eq_ok_iff.mpr ⟨first, himp id first hfirst, ?_⟩
    cases first with
    | true => exact h
    | false => exact ih h

theorem forall_of_anyM_eq_ok_false {ids : List TypeId} {answer : TypeId → Result Bool}
    (h : ids.anyM answer = .ok false) : ∀ id ∈ ids, answer id = .ok false := by
  induction ids with
  | nil => exact List.forall_mem_nil _
  | cons id rest ih =>
    rw [List.anyM] at h
    obtain ⟨first, hfirst, h⟩ := Result.bind_eq_ok_iff.mp h
    cases first with
    | true => cases h
    | false => exact List.forall_mem_cons.mpr ⟨hfirst, ih h⟩

theorem exists_of_anyM_eq_error {ids : List TypeId} {answer : TypeId → Result Bool} {c : Crash}
    (h : ids.anyM answer = .error c) : ∃ id ∈ ids, answer id = .error c := by
  induction ids with
  | nil => cases h
  | cons id rest ih =>
    rw [List.anyM] at h
    cases hfirst : answer id with
    | error c' =>
      rw [hfirst] at h
      exact ⟨id, List.mem_cons_self, hfirst.trans h⟩
    | ok first =>
      rw [hfirst] at h
      cases first with
      | true => cases h
      | false =>
        obtain ⟨other, hother, hc⟩ := ih h
        exact ⟨other, List.mem_cons_of_mem id hother, hc⟩

theorem anyM_congr {ids : List TypeId} {answer answer' : TypeId → Result Bool}
    (h : ∀ id ∈ ids, answer id = answer' id) : ids.anyM answer = ids.anyM answer' := by
  induction ids with
  | nil => rfl
  | cons id rest ih =>
    obtain ⟨hid, hrest⟩ := List.forall_mem_cons.mp h
    rw [List.anyM, List.anyM, hid, ih hrest]

section

variable (h : s.Closed)

include h

theorem propertyIn_nullable_eq {s' : Store} (hs : s.Extends s') (name : String)
    {parts : List TypeId} (hparts : ∀ part ∈ parts, s.Known part) :
    (s'.propertyIn name parts).1.map (s'.propertyIn name parts).2.isNullable =
      (s.propertyIn name parts).1.map (s.propertyIn name parts).2.isNullable := by
  induction parts with
  | nil => rfl
  | cons part rest ih =>
    have hpart := hparts part List.mem_cons_self
    rw [propertyIn, propertyIn, hs.ownProperty?_eq hpart, hs.tupleElements?_eq hpart]
    split
    · next p hp =>
      have hknown := h.known_of_ownProperty? hp
      split_ifs
      · simp only [Option.map_some, isNullable_union_undefined h.initial,
          isNullable_union_undefined (h.initial.trans hs), hs.unionMembers_eq hknown]
      · exact congrArg some (hs.isNullable_eq h hknown)
    · split
      · next elements index helements _ =>
        cases hid : elements[index]? with
        | none => rfl
        | some id =>
          exact congrArg some (hs.isNullable_eq h
            (h.known_of_mem_tupleElements? helements (List.mem_of_getElem? hid)))
      · exact ih fun other hother => hparts other (List.mem_cons_of_mem _ hother)

theorem answers_namedPropertyNullable (hobject : s.Known object) (name : String) :
    s.Answers (namedPropertyNullable · object name) (namedPropertyNullable s object name).1 := by
  intro s' hs
  refine ⟨?_, s'.extends_propertyType object name⟩
  simp only [namedPropertyNullable, propertyType, hs.intersectionMembers_eq hobject]
  exact propertyIn_nullable_eq h hs name
    fun part hpart => h.known_of_mem_intersectionMembers hobject hpart

theorem answers_memberNullable (name : String) (hobject : s.Known object) :
    s.Answers (memberNullable name object)
      (.ok ((namedPropertyNullable s object name).1.getD
        (s.indexType? object TypeId.string).isSome)) := by
  intro s' hs
  obtain ⟨hanswer, hgrown⟩ := (answers_namedPropertyNullable h hobject name).getD
    (fun s => (s.indexType? object TypeId.string).isSome)
    (fun s' hs => by rw [hs.indexType?_eq h hobject]) s' hs
  dsimp only at hanswer hgrown
  rw [memberNullable, ← hanswer]
  rcases hasked : namedPropertyNullable s' object name with ⟨nullable?, s''⟩
  rw [hasked] at hgrown
  cases nullable? <;> exact ⟨rfl, hgrown⟩

/-- The answer to whether reading a key that is no union may give a nullish value. -/
def keyAnswer (s : Store) (object key : TypeId) : Bool :=
  ((keyName? s key).bind fun name => (namedPropertyNullable s object name).1).getD
    ((s.indexKeys object).contains key)

theorem answers_keyNullable (hobject : s.Known object) (hkey : s.Known key) :
    s.Answers (keyNullable object key) (keyAnswer s object key) := by
  intro s' hs
  have hindex (s'' : Store) (hs'' : s.Extends s'') :
      (s''.indexKeys object).contains key = (s.indexKeys object).contains key := by
    rw [hs''.indexKeys_eq h hobject]
  have hname : keyName? s' key = keyName? s key := by
    rw [keyName?, keyName?, hs.literalValue?_eq hkey]
  rw [keyNullable, keyAnswer, hname]
  cases keyName? s key with
  | none => exact ⟨hindex s' hs, .refl s'⟩
  | some name =>
    obtain ⟨hanswer, hgrown⟩ := (answers_namedPropertyNullable h hobject name).getD
      (fun s => (s.indexKeys object).contains key) hindex s' hs
    dsimp only at hanswer hgrown ⊢
    rcases hasked : namedPropertyNullable s' object name with ⟨nullable?, s''⟩
    rw [hasked] at hanswer hgrown
    cases nullable? <;> exact ⟨hanswer, hgrown⟩

/-- The answer to whether reading a key may give a nullish value, down to a number of levels. -/
def keyAnswerTo (s : Store) (object : TypeId) : Nat → TypeId → Result Bool
  | 0, _ => .error .endless
  | depth + 1, key =>
    if s.isUnion key then (s.unionMembers key).anyM (keyAnswerTo s object depth)
    else .ok (keyAnswer s object key)

theorem answers_propertyNullableTo (hobject : s.Known object) (depth : Nat) (hkey : s.Known key) :
    s.Answers (propertyNullableTo object depth key) (keyAnswerTo s object depth key) := by
  induction depth generalizing key with
  | zero => exact fun s' _ => ⟨rfl, .refl s'⟩
  | succ depth ih =>
    intro s' hs
    rw [propertyNullableTo, keyAnswerTo, hs.isUnion_eq hkey, hs.unionMembers_eq hkey]
    split_ifs
    · exact answers_anyType (fun part hpart => ih (h.known_of_mem_unionMembers hkey hpart)) s' hs
    · obtain ⟨hanswer, hgrown⟩ := answers_keyNullable h hobject hkey s' hs
      exact ⟨congrArg Except.ok hanswer, hgrown⟩

omit h in
theorem keyAnswerTo_mono (object : TypeId) {depth : Nat} {yes : Bool}
    (hyes : keyAnswerTo s object depth key = .ok yes) :
    keyAnswerTo s object (depth + 1) key = .ok yes := by
  induction depth generalizing key yes with
  | zero => cases hyes
  | succ depth ih =>
    rw [keyAnswerTo] at hyes ⊢
    split_ifs at hyes ⊢
    · exact anyM_eq_ok_of_imp (fun _ _ => ih) hyes
    · exact hyes

omit h in
theorem keyAnswerTo_eq_error (object : TypeId) {depth : Nat} {c : Crash}
    (herror : keyAnswerTo s object depth key = .error c) : c = .endless := by
  induction depth generalizing key with
  | zero => exact (Except.error.inj herror).symm
  | succ depth ih =>
    rw [keyAnswerTo] at herror
    split_ifs at herror
    obtain ⟨part, -, hpart⟩ := exists_of_anyM_eq_error herror
    exact ih hpart

theorem keyAnswerTo_succ_congr {depth depth' : Nat}
    (heq : ∀ key, s.Known key → keyAnswerTo s object depth key = keyAnswerTo s object depth' key)
    (hkey : s.Known key) :
    keyAnswerTo s object (depth + 1) key = keyAnswerTo s object (depth' + 1) key := by
  rw [keyAnswerTo, keyAnswerTo,
    anyM_congr fun part hpart => heq part (h.known_of_mem_unionMembers hkey hpart)]

/-- More levels than there are types make no difference: the keys with an answer become more with
    each level until they stay the same. -/
theorem keyAnswerTo_of_le (object : TypeId) {depth : Nat} (hdepth : s.size ≤ depth)
    (hkey : s.Known key) : keyAnswerTo s object depth key = keyAnswerTo s object s.size key := by
  let answered (depth : Nat) : Finset TypeId :=
    (Finset.range s.size).filter fun key => (keyAnswerTo s object depth key).isOk
  have hle {depth depth' : Nat} (hle : depth ≤ depth') {key : TypeId} {yes : Bool}
      (hyes : keyAnswerTo s object depth key = .ok yes) :
      keyAnswerTo s object depth' key = .ok yes :=
    Nat.le_induction hyes (fun _ _ => keyAnswerTo_mono object) depth' hle
  have hmono : Monotone answered := fun depth depth' hdepth key hkey => by
    obtain ⟨hknown, hok⟩ := Finset.mem_filter.mp hkey
    cases hyes : keyAnswerTo s object depth key with
    | error c =>
      rw [hyes] at hok
      cases hok
    | ok yes => exact Finset.mem_filter.mpr ⟨hknown, by rw [hle hdepth hyes]; rfl⟩
  -- If no key gets an answer by more levels, then no answer changes by them.
  have hsame {depth depth' : Nat} (hdepth : depth ≤ depth')
      (hcard : (answered depth).card = (answered depth').card) (key : TypeId)
      (hkey : s.Known key) : keyAnswerTo s object depth key = keyAnswerTo s object depth' key := by
    have heq := Finset.eq_of_subset_of_card_le (hmono hdepth) hcard.ge
    cases hfirst : keyAnswerTo s object depth key with
    | ok yes => rw [hle hdepth hfirst]
    | error c =>
      cases hsecond : keyAnswerTo s object depth' key with
      | error c' => rw [keyAnswerTo_eq_error object hfirst, keyAnswerTo_eq_error object hsecond]
      | ok yes =>
        have hmem : key ∈ answered depth := by
          rw [heq]
          exact Finset.mem_filter.mpr ⟨Finset.mem_range.mpr hkey, by rw [hsecond]; rfl⟩
        have hok := (Finset.mem_filter.mp hmem).2
        rw [hfirst] at hok
        cases hok
  have hstable (depth : Nat) (hcard : (answered depth).card = (answered (depth + 1)).card) :
      (answered (depth + 1)).card = (answered (depth + 2)).card :=
    congrArg Finset.card (Finset.filter_congr fun key hkey => by
      rw [keyAnswerTo_succ_congr h (hsame (Nat.le_succ depth) hcard) (Finset.mem_range.mp hkey)])
  have hcard : (answered depth).card = (answered s.size).card :=
    Nat.stabilises_of_monotone (fun _ _ hle => Finset.card_le_card (hmono hle))
      (fun depth => (Finset.card_filter_le _ _).trans_eq (Finset.card_range _)) hstable hdepth
  exact (hsame hdepth hcard.symm key hkey).symm

theorem answers_propertyNullable (hobject : s.Known object) (hkey : s.Known key) :
    s.Answers (propertyNullable object key) (keyAnswerTo s object s.size key) := by
  intro s' hs
  have hsize : s.size ≤ s'.size := hs.size_le
  rw [← keyAnswerTo_of_le h object (Nat.le_succ_of_le hsize) hkey]
  exact answers_propertyNullableTo h hobject (s'.size + 1) hkey s' hs

end

end TypeLint.Rules.MemberNullability
