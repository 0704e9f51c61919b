import TypeLint.Proofs.Program.Standing

namespace TypeLint.Program

open Syntax

/-- What a backslash and the character behind it stand for. -/
def escaped? : Char → Option Char
  | '\x27' => some '\x27'
  | '\\' => some '\\'
  | 'n' => some '\n'
  | 'r' => some '\r'
  | _ => none

/-- What stands in front of the closing quote. Nothing may stand behind the quote, and a line may
    not end in front of it. -/
def quotedRest? : List Char → Option (List Char)
  | [] => none
  | '\\' :: c :: rest => do
    let value ← escaped? c
    let others ← quotedRest? rest
    return value :: others
  | c :: rest =>
    if c = '\x27' then if rest.isEmpty then some [] else none
    else if c = '\\' ∨ c = '\n' ∨ c = '\r' then none
    else (quotedRest? rest).map (c :: ·)

/-- The string that a literal between single quotes denotes, if it is well formed. -/
def denotedString? (literal : String) : Option String :=
  match literal.toList with
  | '\x27' :: rest => (quotedRest? rest).map String.ofList
  | _ => none

theorem quotedRest?_backslash (c : Char) (rest : List Char) :
    quotedRest? ('\\' :: c :: rest) =
      (escaped? c).bind fun value => (quotedRest? rest).map (value :: ·) := by
  rw [quotedRest?]
  cases escaped? c <;> cases quotedRest? rest <;> rfl

theorem quotedRest?_plain {c : Char} (rest : List Char) (hquote : c ≠ '\x27') (hslash : c ≠ '\\')
    (hfeed : c ≠ '\n') (hreturn : c ≠ '\r') :
    quotedRest? (c :: rest) = (quotedRest? rest).map (c :: ·) := by
  rw [quotedRest?.eq_3 c rest fun _ _ hc => (hslash hc).elim, if_neg hquote,
    if_neg (by simp [hslash, hfeed, hreturn])]

/-- An escaped character denotes itself in front of whatever stands behind it. -/
theorem quotedRest?_escapeStringChar (c : Char) (rest : List Char) :
    quotedRest? (escapeStringChar c ++ rest) = (quotedRest? rest).map (c :: ·) := by
  unfold escapeStringChar
  split_ifs with hquote hslash hfeed hreturn
  · rw [eq_of_beq hquote]
    exact quotedRest?_backslash '\x27' rest
  · rw [eq_of_beq hslash]
    exact quotedRest?_backslash '\\' rest
  · rw [eq_of_beq hfeed]
    exact quotedRest?_backslash 'n' rest
  · rw [eq_of_beq hreturn]
    exact quotedRest?_backslash 'r' rest
  · rw [beq_iff_eq] at hquote hslash hfeed hreturn
    exact quotedRest?_plain rest hquote hslash hfeed hreturn

theorem quotedRest?_escaped (cs : List Char) :
    quotedRest? (cs.flatMap escapeStringChar ++ ['\x27']) = some cs := by
  induction cs with
  | nil => rfl
  | cons c cs ih =>
    rw [List.flatMap_cons, List.append_assoc, quotedRest?_escapeStringChar, ih, Option.map_some]

theorem denotedString?_quoteString (value : String) :
    denotedString? (quoteString value) = some value := by
  rw [denotedString?, quoteString, String.toList_ofList, List.cons_append]
  simp only [quotedRest?_escaped, Option.map_some, String.ofList_toList]

theorem quoteString_injective : Function.Injective quoteString := fun v w h => by
  have hv := denotedString?_quoteString v
  rw [h, denotedString?_quoteString] at hv
  exact (Option.some.inj hv).symm

variable {p : TypeLint.Program} {f : SourceFile} {v : String} {x : Spot}

theorem body_of_isSpotOf_string (hx : IsSpotOf (.string v) x) : x.green.body = quoteString v := by
  obtain ⟨labels, l, hgreen⟩ := hx
  rw [hgreen, body_relabeled]
  rfl

/-- The tokens of the string literals of a file: wherever a program has an expression `string v`,
    its file has a token of a string literal, and every such token is well formed and denotes `v`.
    Two of them have the same text only if they are written for the same string. -/
theorem string_tokens_denote {fileName : String} {b : Built} (hb : build fileName p = .ok b) :
    (∀ v, Stands (.string v) p →
      ∃ x ∈ (wholeSpot p).all, IsSpotOf (.string v) x ∧
        b.file.tree.kind? x.ref = some .stringLiteral) ∧
    ∀ x ∈ (wholeSpot p).all, ∀ v, IsSpotOf (.string v) x →
      denotedString? (b.file.nodeText x.ref) = some v ∧
      ∀ y ∈ (wholeSpot p).all, ∀ w, IsSpotOf (.string w) y →
        (b.file.nodeText y.ref = b.file.nodeText x.ref ↔ w = v) := by
  have hf := (shown_of_build hb).1
  have htext {x : Spot} {v : String} (hx : x ∈ (wholeSpot p).all) (hv : IsSpotOf (.string v) x) :
      b.file.nodeText x.ref = quoteString v := by
    rw [hf.nodeText_eq hx, body_of_isSpotOf_string hv]
  refine ⟨fun v hv => ?_, fun x hx v hv => ⟨?_, fun y hy w hw => ?_⟩⟩
  · obtain ⟨x, hx, hspot⟩ := exists_isSpotOf hv
    refine ⟨x, hx, hspot, ?_⟩
    obtain ⟨labels, l, hgreen⟩ := hspot
    rw [hf.shows.kind?_eq hx, hgreen, kind_relabeled]
    rfl
  · rw [htext hx hv, denotedString?_quoteString]
  · rw [htext hx hv, htext hy hw, quoteString_injective.eq_iff]

/-- A string with a backslash in front of a quote, of a letter and of the ends of lines. -/
def mixedString : String := "a\\\x27\\n\n\r\\"

example : quoteString mixedString = "\x27a\\\\\\\x27\\\\n\\n\\r\\\\\x27" := by decide

/-- `'it\'s' + 'a\\\'\\n\n\r\\';` -/
def joinedStrings : TypeLint.Program :=
  [.statement (.expression (.binary (.string "it\x27s") .plusToken (.string mixedString)))]

theorem stands_joinedStrings : Stands (.string mixedString) joinedStrings := fun q hq => by
  simp only [joinedStrings, Item.everyIn, Stmt.every, Expr.every, Bool.and_eq_true] at hq
  exact hq.1.2

theorem string_tokens_denote_mixed :
    ∃ b x, build "a.ts" joinedStrings = .ok b ∧ Stands (.string mixedString) joinedStrings ∧
      x ∈ (wholeSpot joinedStrings).all ∧ IsSpotOf (.string mixedString) x ∧
      denotedString? (b.file.nodeText x.ref) = some mixedString := by
  obtain ⟨b, hb⟩ := exists_build "a.ts" (p := joinedStrings) (by decide +kernel)
  obtain ⟨hstands, htokens⟩ := string_tokens_denote hb
  obtain ⟨x, hx, hspot, -⟩ := hstands mixedString stands_joinedStrings
  exact ⟨b, x, hb, stands_joinedStrings, hx, hspot, (htokens x hx mixedString hspot).1⟩

end TypeLint.Program
