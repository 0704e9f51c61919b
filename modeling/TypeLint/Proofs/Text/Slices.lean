import Mathlib
import TypeLint.Text.LineMap

namespace TypeLint.Text

@[simp] theorem byteLength_empty : byteLength "" = 0 := rfl

@[simp] theorem byteLength_append (a b : String) :
    byteLength (a ++ b) = byteLength a + byteLength b :=
  String.utf8ByteSize_append

theorem byteLength_eq_zero_iff {s : String} : byteLength s = 0 ↔ s = "" :=
  String.utf8ByteSize_eq_zero_iff

theorem byteCount_append (xs ys : List Char) :
    byteCount (xs ++ ys) = byteCount xs + byteCount ys := by
  induction xs with
  | nil => simp [byteCount]
  | cons c xs ih =>
    simp only [List.cons_append, byteCount, ih]
    omega

@[simp] theorem byteCount_toList (s : String) : byteCount s.toList = byteLength s := by
  have hofList (cs : List Char) : byteLength (String.ofList cs) = byteCount cs := by
    induction cs with
    | nil => rfl
    | cons c cs ih =>
      have hcons : String.ofList (c :: cs) = String.singleton c ++ String.ofList cs := by
        rw [← String.toList_inj]
        simp
      rw [hcons, byteLength_append, ih, byteCount]
      exact congrArg (· + byteCount cs) String.utf8ByteSize_singleton
  rw [← hofList, String.ofList_toList]

/-- A text splits where its front part ends. -/
theorem splitAt?_append (xs ys : List Char) :
    splitAt? (xs ++ ys) (byteCount xs) = some (xs, ys) := by
  induction xs with
  | nil => simp [byteCount, splitAt?]
  | cons c xs ih =>
    have hsize := c.utf8Size_pos
    obtain ⟨n, hn⟩ : ∃ n, byteCount (c :: xs) = n + 1 :=
      ⟨byteCount (c :: xs) - 1, by simp only [byteCount]; omega⟩
    rw [hn, List.cons_append, splitAt?]
    simp only [byteCount] at hn
    have hrest : n + 1 - c.utf8Size = byteCount xs := by omega
    rw [if_pos (by omega), hrest, ih]
    rfl

theorem sliceChars?_append (xs ys zs : List Char) :
    sliceChars? (xs ++ ys ++ zs) (byteCount xs) (byteCount xs + byteCount ys) = some ys := by
  have hfront := splitAt?_append (xs ++ ys) zs
  rw [byteCount_append] at hfront
  rw [sliceChars?, if_pos (Nat.le_add_right ..), hfront]
  simp [splitAt?_append]

/-- The middle part of a text is what lies between the offsets of its ends. -/
theorem slice?_append (a b c : String) :
    slice? (a ++ b ++ c) (byteLength a) (byteLength a + byteLength b) = some b := by
  have h := sliceChars?_append a.toList b.toList c.toList
  simp only [byteCount_toList] at h
  rw [slice?, String.toList_append, String.toList_append, h]
  simp

theorem isBoundary_append (a b : String) : isBoundary (a ++ b) (byteLength a) = true := by
  have h := splitAt?_append a.toList b.toList
  rw [byteCount_toList] at h
  simp [isBoundary, h]

theorem bytes_append (a b : String) : bytes (a ++ b) = bytes a ++ bytes b := by
  simp [bytes]

theorem length_bytes (s : String) : (bytes s).length = byteLength s := by
  have h (cs : List Char) : (cs.flatMap String.utf8EncodeChar).length = byteCount cs := by
    induction cs with
    | nil => rfl
    | cons c cs ih => simp [byteCount, ih]
  rw [bytes, h, byteCount_toList]

/-- The bytes between the offsets of the ends of the middle part of a text are its bytes. -/
theorem bytes_slice (a b c : String) :
    ((bytes (a ++ b ++ c)).take (byteLength a + byteLength b)).drop (byteLength a) = bytes b := by
  rw [bytes_append, bytes_append, ← length_bytes a, ← length_bytes b, ← List.length_append,
    List.take_left, List.drop_left]

theorem eq_append_of_splitAt? {cs : List Char} {n : Nat} {front behind : List Char}
    (h : splitAt? cs n = some (front, behind)) : cs = front ++ behind ∧ byteCount front = n := by
  induction cs generalizing n front with
  | nil =>
    cases n with
    | zero =>
      cases h
      exact ⟨rfl, rfl⟩
    | succ n => cases h
  | cons c rest ih =>
    cases n with
    | zero =>
      cases h
      exact ⟨rfl, rfl⟩
    | succ n =>
      rw [splitAt?] at h
      split at h
      · next hsize =>
        obtain ⟨⟨before, after⟩, hrest, heq⟩ := Option.map_eq_some_iff.mp h
        cases heq
        obtain ⟨rfl, hcount⟩ := ih hrest
        refine ⟨rfl, ?_⟩
        rw [byteCount, hcount]
        omega
      · cases h

/-- An offset is a boundary exactly if a front part of the text ends there. -/
theorem isBoundary_iff {s : String} {n : Nat} :
    isBoundary s n = true ↔ ∃ front behind, s = front ++ behind ∧ byteLength front = n := by
  constructor
  · intro h
    obtain ⟨⟨front, behind⟩, hsplit⟩ := Option.isSome_iff_exists.mp h
    obtain ⟨htext, hcount⟩ := eq_append_of_splitAt? hsplit
    refine ⟨String.ofList front, String.ofList behind, ?_, ?_⟩
    · rw [← String.toList_inj, String.toList_append, String.toList_ofList, String.toList_ofList,
        htext]
    · rw [← byteCount_toList, String.toList_ofList, hcount]
  · rintro ⟨front, behind, rfl, rfl⟩
    exact isBoundary_append front behind

theorem isBoundary_zero (s : String) : isBoundary s 0 = true :=
  isBoundary_iff.mpr ⟨"", s, String.empty_append.symm, rfl⟩

/-- The shorter one of two front parts of a text is a front part of the other one. -/
theorem exists_append_of_le {front behind front' behind' : String}
    (h : front ++ behind = front' ++ behind') (hle : byteLength front ≤ byteLength front') :
    ∃ middle, front' = front ++ middle ∧ behind = middle ++ behind' := by
  rw [← String.toList_inj, String.toList_append, String.toList_append,
    List.append_eq_append_iff] at h
  rcases h with ⟨middle, hfront, hbehind⟩ | ⟨middle, hfront, hbehind⟩
  · refine ⟨String.ofList middle, ?_, ?_⟩
    · rw [← String.toList_inj, String.toList_append, String.toList_ofList, hfront]
    · rw [← String.toList_inj, String.toList_append, String.toList_ofList, hbehind]
  · have hempty : String.ofList middle = "" := by
      have hlength : byteLength front = byteLength front' + byteLength (String.ofList middle) := by
        rw [← byteLength_append]
        congr 1
        rw [← String.toList_inj, String.toList_append, String.toList_ofList, hfront]
      exact byteLength_eq_zero_iff.mp (by omega)
    obtain rfl : middle = [] := by
      rw [← String.toList_ofList (l := middle), hempty]
      rfl
    rw [List.append_nil] at hfront
    refine ⟨"", ?_, ?_⟩
    · rw [String.append_empty, ← String.toList_inj, hfront]
    · rw [String.empty_append, ← String.toList_inj, hbehind]
      rfl

/-- A character with an ASCII byte in it is that byte. -/
theorem utf8EncodeChar_eq_singleton {c : Char} {b : UInt8} (hb : b ∈ String.utf8EncodeChar c)
    (hascii : b < 128) : String.utf8EncodeChar c = [b] := by
  have hlt : b.toNat < 128 := hascii
  -- The bytes of longer characters are sums with a second summand of at least 128.
  have hlong (n m : Nat) (hm : 128 ≤ m) (hn : n + m < 256)
      (heq : b = UInt8.ofNat (n + m)) : False := by
    rw [heq, UInt8.toNat_ofNat_of_lt' hn] at hlt
    omega
  rw [String.utf8EncodeChar] at hb ⊢
  split_ifs at hb ⊢ with hone htwo hthree
  · rw [List.mem_singleton.mp hb]
  · simp only [List.mem_cons, List.not_mem_nil, or_false] at hb
    rcases hb with heq | heq
    · exact (hlong _ 192 (by omega) (by omega) heq).elim
    · exact (hlong _ 128 (by omega) (by omega) heq).elim
  · simp only [List.mem_cons, List.not_mem_nil, or_false] at hb
    rcases hb with heq | heq | heq
    · exact (hlong _ 224 (by omega) (by omega) heq).elim
    · exact (hlong _ 128 (by omega) (by omega) heq).elim
    · exact (hlong _ 128 (by omega) (by omega) heq).elim
  · simp only [List.mem_cons, List.not_mem_nil, or_false] at hb
    rcases hb with heq | heq | heq | heq
    · exact (hlong _ 240 (by omega) (by omega) heq).elim
    · exact (hlong _ 128 (by omega) (by omega) heq).elim
    · exact (hlong _ 128 (by omega) (by omega) heq).elim
    · exact (hlong _ 128 (by omega) (by omega) heq).elim

theorem eq_ofNat_of_utf8EncodeChar {c : Char} {b : UInt8} (h : String.utf8EncodeChar c = [b]) :
    c = Char.ofNat b.toNat := by
  rw [String.utf8EncodeChar] at h
  split_ifs at h with hone
  · have hlt : c.val.toNat < UInt8.size := Nat.lt_of_le_of_lt hone (by decide)
    rw [← (List.cons.inj h).1, UInt8.toNat_ofNat_of_lt' hlt]
    exact (Char.ofNat_toNat c).symm
  all_goals cases (List.cons.inj h).2

/-- A text whose bytes begin with an ASCII byte begins with its character. -/
theorem exists_cons_of_ascii {cs : List Char} {b : UInt8} {bs : List UInt8}
    (h : cs.flatMap String.utf8EncodeChar = b :: bs) (hascii : b < 128) :
    ∃ rest, cs = Char.ofNat b.toNat :: rest ∧ rest.flatMap String.utf8EncodeChar = bs := by
  cases cs with
  | nil => cases h
  | cons c rest =>
    rw [List.flatMap_cons] at h
    have hmem : b ∈ String.utf8EncodeChar c := by
      have hsize : (String.utf8EncodeChar c).length = c.utf8Size := by simp
      have hne : String.utf8EncodeChar c ≠ [] :=
        List.ne_nil_of_length_pos (hsize ▸ c.utf8Size_pos)
      obtain ⟨first, others, heq⟩ := List.exists_cons_of_ne_nil hne
      rw [heq] at h ⊢
      obtain rfl := (List.cons.inj h).1
      exact List.mem_cons_self
    have hsingle := utf8EncodeChar_eq_singleton hmem hascii
    rw [hsingle] at h
    exact ⟨rest, by rw [eq_ofNat_of_utf8EncodeChar hsingle], (List.cons.inj h).2⟩

theorem exists_append_cons_of_ascii {cs : List Char} {i : Nat} {b : UInt8}
    (hb : (cs.flatMap String.utf8EncodeChar)[i]? = some b) (hascii : b < 128) :
    ∃ front c behind, cs = front ++ c :: behind ∧ byteCount front = i ∧ c.utf8Size = 1 := by
  induction cs generalizing i with
  | nil => cases hb
  | cons c cs ih =>
    have hsize : (String.utf8EncodeChar c).length = c.utf8Size := by simp
    rw [List.flatMap_cons] at hb
    by_cases hi : i < c.utf8Size
    · rw [List.getElem?_append_left (hsize.symm ▸ hi)] at hb
      have hsingle := utf8EncodeChar_eq_singleton (List.mem_of_getElem? hb) hascii
      rw [hsingle, List.length_singleton] at hsize
      refine ⟨[], c, cs, rfl, ?_, hsize.symm⟩
      rw [byteCount]
      omega
    · rw [List.getElem?_append_right (hsize.symm ▸ Nat.le_of_not_lt hi), hsize] at hb
      obtain ⟨front, c', behind, rfl, hcount, hsize'⟩ := ih hb
      refine ⟨c :: front, c', behind, rfl, ?_, hsize'⟩
      rw [byteCount, hcount]
      omega

/-- There are boundaries in front of an ASCII byte and behind it. -/
theorem isBoundary_of_ascii {s : String} {i : Nat} {b : UInt8} (hb : (bytes s)[i]? = some b)
    (hascii : b < 128) : isBoundary s i = true ∧ isBoundary s (i + 1) = true := by
  obtain ⟨front, c, behind, hcs, hcount, hsize⟩ := exists_append_cons_of_ascii hb hascii
  have htext : s = String.ofList front ++ (String.singleton c ++ String.ofList behind) := by
    rw [← String.toList_inj, hcs]
    simp
  have hfront : byteLength (String.ofList front) = i := by
    rw [← byteCount_toList, String.toList_ofList, hcount]
  have hmiddle : byteLength (String.singleton c) = 1 :=
    String.utf8ByteSize_singleton.trans hsize
  refine ⟨isBoundary_iff.mpr ⟨_, _, htext, hfront⟩, isBoundary_iff.mpr
    ⟨String.ofList front ++ String.singleton c, String.ofList behind, ?_, ?_⟩⟩
  · rw [htext, String.append_assoc]
  · rw [byteLength_append, hfront, hmiddle]

end TypeLint.Text
