import TypeLint.Proofs.Program.Standing

namespace TypeLint.Text

/-- A text does not split inside one of its characters. -/
theorem splitAt?_inside (cs rest : List Char) (c : Char) {k : Nat} (hpos : 0 < k)
    (hlt : k < c.utf8Size) : splitAt? (cs ++ c :: rest) (byteCount cs + k) = none := by
  induction cs with
  | nil =>
    obtain ⟨n, rfl⟩ := Nat.exists_eq_succ_of_ne_zero hpos.ne'
    rw [byteCount, Nat.zero_add, List.nil_append, splitAt?, if_neg (by omega)]
  | cons d cs ih =>
    have hsize := d.utf8Size_pos
    obtain ⟨n, hn⟩ : ∃ n, byteCount (d :: cs) + k = n + 1 :=
      ⟨byteCount (d :: cs) + k - 1, by omega⟩
    have hrest : n + 1 - d.utf8Size = byteCount cs + k := by
      rw [← hn, byteCount]
      omega
    rw [hn, List.cons_append, splitAt?, hrest, ih, Option.map_none, ite_self]

end TypeLint.Text

namespace TypeLint.Program

open Syntax Writer Text

namespace TypeText

mutual

/-- The text of a type, read off its parts. -/
def spelling : TypeText → String
  | keyword _ text => text
  | literal _ text _ => text
  | name text => text
  | array element => element.spelling ++ "[]"
  | union parts => spellingIn " | " parts
  | intersection parts => spellingIn " & " parts

/-- The texts of several types with a separator between them. -/
def spellingIn (separator : String) : List TypeText → String
  | [] => ""
  | [part] => part.spelling
  | part :: rest => part.spelling ++ separator ++ spellingIn separator rest

end

mutual

/-- The first quoted text whose contents cannot be cut out. -/
def cutText? : TypeText → Option String
  | keyword _ _ => none
  | literal _ text value => if value.isNone then some text else none
  | name _ => none
  | array element => element.cutText?
  | union parts => cutTextIn? parts
  | intersection parts => cutTextIn? parts

/-- The first quoted text in several types whose contents cannot be cut out. -/
def cutTextIn? : List TypeText → Option String
  | [] => none
  | part :: rest => part.cutText?.or (cutTextIn? rest)

end

/-- A tree with a lead and a body has been written: what was pending stands in front of the text, and
nothing is pending behind it. -/
structure Puts (l l' : Layout) (lead body text : String) (cut : Option String) : Prop where
  lead : lead = l.pending
  body : body = text
  pending : l'.pending = ""
  cutText : l'.cutText = l.cutText.or cut

end TypeText

mutual

/-- A type is written as its text. -/
theorem TypeText.puts_write (t : TypeText) (ht : t.Proper) (l : Layout) :
    Puts l (t.write.run l).2 (t.write.run l).1.lead (t.write.run l).1.body t.spelling
      t.cutText? := by
  cases t with
  | keyword kind text => exact ⟨rfl, rfl, rfl, Option.or_none.symm⟩
  | name text => exact ⟨rfl, String.append_empty, rfl, Option.or_none.symm⟩
  | literal kind text value =>
    rw [TypeText.write, run_literalType]
    cases value with
    | none => exact ⟨rfl, String.append_empty, rfl, rfl⟩
    | some value => exact ⟨rfl, String.append_empty, rfl, Option.or_none.symm⟩
  | array element =>
    obtain ⟨hlead, hbody, hpending, hcut⟩ := TypeText.puts_write element ht l
    simp only [TypeText.write, run_bind, run_token, run_pure]
    refine ⟨hlead, ?_, rfl, hcut⟩
    simp only [branch, Green.body, Green.bodyAll, Green.textAll, hbody, hpending]
    rfl
  | union parts => exact TypeText.puts_writeParts .barToken parts ht.1 ht.2 l
  | intersection parts => exact TypeText.puts_writeParts .ampersandToken parts ht.1 ht.2 l

theorem TypeText.puts_writeParts (separator : Kind) (parts : List TypeText) (hne : parts ≠ [])
    (h : TypeText.ProperIn parts) (l : Layout) :
    let written := (TypeText.writeParts separator parts).run l
    Puts l written.2 (Green.leadAll written.1) (Green.bodyAll written.1)
      (spellingIn (" " ++ ((separator.text?).getD "" ++ " ")) parts) (cutTextIn? parts) := by
  match parts with
  | [part] =>
    obtain ⟨hlead, hbody, hpending, hcut⟩ := TypeText.puts_write part h.1 l
    refine ⟨hlead, ?_, hpending, ?_⟩
    · exact (String.append_empty).trans hbody
    · exact hcut.trans (congrArg _ Option.or_none.symm)
  | part :: next :: rest =>
    obtain ⟨hlead, hbody, hpending, hcut⟩ := TypeText.puts_write part h.1 l
    let l' := (((part.write.run l).2.withTrivia " ").behind ((separator.text?).getD "")).withTrivia " "
    obtain ⟨hlead', hbody', hpending', hcut'⟩ :=
      TypeText.puts_writeParts separator (next :: rest) (List.cons_ne_nil _ _) h.2 l'
    refine ⟨hlead, ?_, hpending', ?_⟩
    · change (part.write.run l).1.body ++ (((part.write.run l).2.withTrivia " ").pending ++
        (separator.text?).getD "" ++
          Green.textAll ((TypeText.writeParts separator (next :: rest)).run l').1) = _
      rw [Green.textAll_eq, hlead', hbody', hbody]
      simp only [l', Layout.withTrivia, Layout.behind, hpending, String.empty_append, spellingIn,
        String.append_assoc]
    · rw [cutTextIn?, ← Option.or_assoc, ← hcut]
      exact hcut'

end

namespace TypeText

theorem spelling_ofAtom (cs : List Char) : (ofAtom cs).spelling = String.ofList cs := by
  unfold ofAtom
  dsimp only
  split_ifs
  · rfl
  · rfl
  · rfl
  · rfl
  · rfl
  · split <;> rfl

theorem spelling_ofReversed (cs : List Char) :
    (ofReversed cs).spelling = String.ofList cs.reverse := by
  fun_induction ofReversed cs with
  | case1 rest ih => simp [spelling, ih]
  | case2 cs => exact spelling_ofAtom _

theorem spellingIn_map {separator : List Char} {read : List Char → TypeText}
    (hread : ∀ cs, (read cs).spelling = String.ofList cs) (parts : List (List Char)) :
    spellingIn (String.ofList separator) (parts.map read) =
      String.ofList (separator.intercalate parts) := by
  match parts with
  | [] => rfl
  | [part] => simp [spellingIn, hread]
  | part :: next :: rest =>
    have hrest : spellingIn (String.ofList separator) ((next :: rest).map read) =
        String.ofList (separator.intercalate (next :: rest)) :=
      spellingIn_map hread (next :: rest)
    rw [List.map_cons] at hrest
    rw [List.map_cons, List.map_cons, spellingIn, hrest, hread, List.intercalate_cons_cons,
      String.ofList_append, String.ofList_append]
    simp

theorem spelling_composite {separator : List Char} {make : List TypeText → TypeText}
    {read : List Char → TypeText} (hne : separator ≠ [])
    (hmake : ∀ parts, (make parts).spelling = spellingIn (String.ofList separator) parts)
    (hread : ∀ cs, (read cs).spelling = String.ofList cs) (cs : List Char) :
    (composite make ((splitAround separator cs).map read)).spelling = String.ofList cs := by
  have hspelling (parts : List TypeText) :
      (composite make parts).spelling = spellingIn (String.ofList separator) parts := by
    unfold composite
    split
    · rfl
    · exact hmake _
  rw [hspelling, spellingIn_map hread, splitAround, intercalate_splitFrom hne, List.drop_zero]

/-- What a text is read as has the text as its spelling. -/
theorem spelling_ofText (text : String) : (ofText text).spelling = text := by
  have hintersection (cs : List Char) : (ofIntersection cs).spelling = String.ofList cs :=
    spelling_composite (List.cons_ne_nil _ _) (fun _ => rfl)
      (fun part => by rw [spelling_ofReversed, List.reverse_reverse]) cs
  have hunion : (ofText text).spelling = String.ofList text.toList :=
    spelling_composite (List.cons_ne_nil _ _) (fun _ => rfl) hintersection text.toList
  rwa [String.ofList_toList] at hunion

/-- The part of a text in front of the brackets at its end, in reverse. -/
def withoutBrackets : List Char → List Char
  | ']' :: '[' :: rest => withoutBrackets rest
  | cs => cs

/-- The parts of a type text between its separators, without the brackets behind them. -/
def atoms (text : String) : List (List Char) :=
  ((splitAround bar text.toList).flatMap (splitAround ampersand)).map fun part =>
    (withoutBrackets part.reverse).reverse

/-- The part does not both begin with a quotation mark and end in a character of several bytes. -/
def IsCuttable (atom : List Char) : Prop :=
  startsWith isQuote atom = true → ∀ c ∈ atom.getLast?, c.utf8Size = 1

/-- What stands between the first and the last byte of a text that begins with a quotation mark can
be cut out exactly if the last character is a single byte. -/
theorem quotedValue?_eq_none_iff {quote : Char} (hquote : quote.utf8Size = 1) (cs : List Char) :
    quotedValue? (String.ofList (quote :: cs)) = none ↔
      ∃ c ∈ (quote :: cs).getLast?, c.utf8Size ≠ 1 := by
  have hlength : byteLength (String.ofList (quote :: cs)) = 1 + byteCount cs := by
    rw [← byteCount_toList, String.toList_ofList, byteCount, hquote]
  rw [quotedValue?, slice?, Option.map_eq_none_iff, hlength, String.toList_ofList,
    Nat.add_sub_cancel_left]
  rcases cs.eq_nil_or_concat with rfl | ⟨front, last, rfl⟩
  · simp [sliceChars?, splitAt?, byteCount, hquote]
  · have hlast : (quote :: front.concat last).getLast? = some last := by
      rw [List.concat_eq_append, ← List.cons_append, List.getLast?_concat]
    have hcount : byteCount (front.concat last) = byteCount front + last.utf8Size := by
      rw [List.concat_eq_append, byteCount_append, byteCount, byteCount, Nat.add_zero]
    have hpos := last.utf8Size_pos
    have hfront : byteCount [quote] = 1 := hquote
    simp only [hlast, Option.mem_def, Option.some.injEq, exists_eq_left']
    by_cases hsingle : last.utf8Size = 1
    · have hcut := sliceChars?_append [quote] front [last]
      rw [hfront] at hcut
      have hstop : max (byteCount (front.concat last)) 1 = 1 + byteCount front := by omega
      rw [hstop, List.concat_eq_append,
        show quote :: (front ++ [last]) = [quote] ++ front ++ [last] from rfl, hcut]
      simp [hsingle]
    · have hstop : max (byteCount (front.concat last)) 1 =
          byteCount (quote :: front) + (last.utf8Size - 1) := by
        rw [byteCount, hquote]
        omega
      have hcut := splitAt?_inside (quote :: front) [] last (k := last.utf8Size - 1) (by omega)
        (by omega)
      rw [hstop, List.concat_eq_append, ← List.cons_append, sliceChars?, hcut]
      simp [hsingle]

theorem isQuote_iff {c : Char} : isQuote c = true ↔ c = '\x27' ∨ c = '\x22' := by
  rw [isQuote, Bool.or_eq_true, beq_iff_eq, beq_iff_eq]

theorem cutText?_ofAtom_eq_none_iff (cs : List Char) :
    (ofAtom cs).cutText? = none ↔ IsCuttable cs := by
  have hword {word : String} (hplain : startsWith isQuote word.toList = false)
      (h : (String.ofList cs == word) = true) : IsCuttable cs := fun hquote => by
    rw [← eq_of_beq h, String.toList_ofList, hquote] at hplain
    cases hplain
  unfold ofAtom
  dsimp only
  split_ifs with hnull htrue hfalse hquote hdigit
  · exact iff_of_true rfl (hword (by decide) hnull)
  · exact iff_of_true rfl (hword (by decide) htrue)
  · exact iff_of_true rfl (hword (by decide) hfalse)
  · cases cs with
    | nil => cases hquote
    | cons quote rest =>
      have hsize : quote.utf8Size = 1 := by
        rcases isQuote_iff.mp hquote with rfl | rfl <;> rfl
      have hcut := quotedValue?_eq_none_iff hsize rest
      rw [IsCuttable, cutText?, forall_prop_of_true hquote]
      cases hvalue : quotedValue? (String.ofList (quote :: rest)) with
      | none =>
        obtain ⟨c, hc, hne⟩ := hcut.mp hvalue
        simpa using ⟨c, hc, hne⟩
      | some value =>
        rw [hvalue] at hcut
        simpa using hcut
  · exact iff_of_true rfl fun h => (hquote h).elim
  · refine iff_of_true ?_ fun h => (hquote h).elim
    split <;> rfl

theorem cutText?_ofReversed_eq_none_iff (cs : List Char) :
    (ofReversed cs).cutText? = none ↔ IsCuttable (withoutBrackets cs).reverse := by
  fun_induction ofReversed cs with
  | case1 rest ih => exact ih
  | case2 cs hcs =>
    rw [withoutBrackets.eq_2 _ hcs]
    exact cutText?_ofAtom_eq_none_iff _

theorem cutTextIn?_eq_none_iff (parts : List TypeText) :
    cutTextIn? parts = none ↔ ∀ part ∈ parts, part.cutText? = none := by
  induction parts with
  | nil => simp [cutTextIn?]
  | cons part rest ih => rw [cutTextIn?, Option.or_eq_none_iff, ih, List.forall_mem_cons]

theorem cutText?_composite_eq_none_iff {make : List TypeText → TypeText}
    (hmake : ∀ parts, (make parts).cutText? = cutTextIn? parts) (parts : List TypeText) :
    (composite make parts).cutText? = none ↔ ∀ part ∈ parts, part.cutText? = none := by
  unfold composite
  split
  · rw [List.forall_mem_singleton]
  · rw [hmake, cutTextIn?_eq_none_iff]

/-- The contents of all quoted texts can be cut out exactly if each part is cuttable. -/
theorem cutText?_ofText_eq_none_iff (text : String) :
    (ofText text).cutText? = none ↔ ∀ atom ∈ atoms text, IsCuttable atom := by
  rw [ofText, cutText?_composite_eq_none_iff fun _ => rfl, atoms, List.forall_mem_map,
    List.forall_mem_map, List.forall_mem_flatMap]
  refine forall₂_congr fun part _ => ?_
  rw [ofIntersection, cutText?_composite_eq_none_iff fun _ => rfl, List.forall_mem_map]
  exact forall₂_congr fun atom _ => cutText?_ofReversed_eq_none_iff _

end TypeText

/-- Writing a type writes its text, and fails exactly at a part that is not cuttable. -/
theorem puts_writeType (text : String) (l : Layout) :
    TypeText.Puts l ((writeType text).run l).2 ((writeType text).run l).1.lead
      ((writeType text).run l).1.body text (TypeText.ofText text).cutText? := by
  have hputs := TypeText.puts_write (.ofText text) (TypeText.ofText_proper text) l
  rwa [TypeText.spelling_ofText] at hputs

/-- A text is written as a type without failing exactly if no part of it between separators and
brackets begins with a quotation mark and ends in a character of several bytes. Wherever it is
written in a program that builds, the text of its node in the file is the text. -/
theorem typeText_round_trip (text : String) :
    (∀ l, ((writeType text).run l).2.cutText = none ↔
      l.cutText = none ∧ ∀ atom ∈ TypeText.atoms text, TypeText.IsCuttable atom) ∧
    ∀ fileName p b, build fileName p = .ok b →
      (Stands (.typeNode text) p → ∃ x ∈ (wholeSpot p).all, IsSpotOf (.typeNode text) x) ∧
      ∀ x ∈ (wholeSpot p).all, IsSpotOf (.typeNode text) x → b.file.nodeText x.ref = text := by
  refine ⟨fun l => ?_, fun fileName p b hb => ⟨exists_isSpotOf, fun x hx hspot => ?_⟩⟩
  · rw [(puts_writeType text l).cutText, Option.or_eq_none_iff,
      TypeText.cutText?_ofText_eq_none_iff]
  · obtain ⟨labels, l, hgreen⟩ := hspot
    rw [(shown_of_build hb).1.nodeText_eq hx, hgreen, body_relabeled]
    exact (puts_writeType text l).body

/-- A type text with an empty part, brackets and quoted contents of several bytes. -/
def accentedType : String := "\x27é ü\x27[] & T |  | \x22é\x22"

/-- `a satisfies T` behind a type on its own, which has a label. -/
def accentedTypes : TypeLint.Program :=
  [.statement (.expression (.binary (.labeled "t" (.typeNode accentedType)) .commaToken
    (.satisfiesType (.identifier "a") "T")))]

theorem stands_accentedTypes : Stands (.typeNode accentedType) accentedTypes := fun q hq => by
  simp only [accentedTypes, Item.everyIn, Stmt.every, Expr.every, Bool.and_eq_true] at hq
  exact hq.1.1.2.2

theorem typeText_round_trip_accented :
    ∃ b x, build "a.ts" accentedTypes = .ok b ∧ Stands (.typeNode accentedType) accentedTypes ∧
      (∀ atom ∈ TypeText.atoms accentedType, TypeText.IsCuttable atom) ∧
      x ∈ (wholeSpot accentedTypes).all ∧ IsSpotOf (.typeNode accentedType) x ∧
      b.file.nodeText x.ref = accentedType := by
  obtain ⟨b, hb⟩ := exists_build "a.ts" (p := accentedTypes) (by decide +kernel)
  obtain ⟨hcut, htext⟩ := typeText_round_trip accentedType
  obtain ⟨hspots, hround⟩ := htext "a.ts" accentedTypes b hb
  obtain ⟨x, hx, hspot⟩ := hspots stands_accentedTypes
  exact ⟨b, x, hb, stands_accentedTypes, ((hcut .start).mp (by decide +kernel)).2, hx, hspot,
    hround x hx hspot⟩

/-- A type text that begins with a quotation mark and ends in a character of two bytes makes the
building fail. -/
theorem build_type_cut :
    build "a.ts" [.statement (.expression (.typeNode "\x27é"))] = .error ⟨"\x27é"⟩ := by
  rw [build_eq, show (lay [.statement (.expression (.typeNode "\x27é"))]).2.cutText =
    some "\x27é" by decide]

end TypeLint.Program
