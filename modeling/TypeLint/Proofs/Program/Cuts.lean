import TypeLint.Proofs.Program.Surroundings

namespace TypeLint.Syntax

open Text

namespace Lexeme

/-- A point right behind what stands in front of it. -/
def point : Lexeme := ⟨"", .dotToken, "."⟩

theorem not_merges_point {a : Lexeme} (h : a.kind = .identifier) : ¬ point.Merges a := by
  rintro ⟨-, ⟨-, hmark, -⟩ | ⟨hword, -⟩ | ⟨hinteger, -⟩⟩
  · rw [h] at hmark
    cases hmark
  · cases hword
  · cases hinteger

end Lexeme

open Lexeme

/-- Some lexemes in a row, and what becomes of the others without them. -/
structure Cut (lexemes : List Lexeme) where
  front : List Lexeme
  /-- The first one that is cut out. -/
  first : Lexeme
  /-- The others that are cut out. -/
  others : List Lexeme
  behind : List Lexeme
  /-- The trivia in front of what is cut out, as far as it stays. -/
  kept : String
  dropped : String
  /-- A point is put in the place of what is cut out. -/
  pointed : Bool
  lexemes_eq : lexemes = front ++ (first :: others ++ behind)
  lead_eq : first.lead = kept ++ dropped
  behind_ne : behind ≠ []

namespace Cut

variable {lexemes : List Lexeme} (c : Cut lexemes)

/-- What stands behind the front afterwards. -/
def rest : List Lexeme := led c.kept (if c.pointed then point :: c.behind else c.behind)

/-- The lexemes that remain. -/
def remaining : List Lexeme := c.front ++ c.rest

/-- The edit of the text. -/
def edit (file : String) : TextEdit :=
  ⟨file, byteLength (spelled c.front) + byteLength c.kept,
    byteLength (spelled c.front) + byteLength (spelled (c.first :: c.others)),
    if c.pointed then "." else ""⟩

/-- Two tokens that meet after the cut stand at an end of an expression, or a name stands behind a
    point. -/
structure Seamed : Prop where
  around : ∀ a ∈ c.front.getLast?, ∀ b ∈ c.rest.head?, a.Around b
  named : c.pointed = true → ∀ name ∈ c.behind.head?, name.kind = .identifier

theorem spelled_rest :
    spelled c.rest = c.kept ++ ((if c.pointed then "." else "") ++ spelled c.behind) := by
  rw [rest]
  cases c.pointed with
  | false => rw [if_neg Bool.false_ne_true, if_neg Bool.false_ne_true, spelled_led _ c.behind_ne,
      String.empty_append]
  | true =>
    rw [if_pos rfl, if_pos rfl, spelled_led _ (List.cons_ne_nil _ _)]
    rfl

/-- Applying the edit leaves the text of what remains. -/
theorem apply_eq {fix : Fix} {file : String} (h : fix.edits = [c.edit file]) :
    fix.apply (spelled lexemes) = .ok (spelled c.remaining) := by
  let removed := c.dropped ++ c.first.text ++ spelled c.others
  have hcut : spelled (c.first :: c.others) = c.kept ++ removed := by
    simp only [spelled, c.lead_eq, removed, String.append_assoc]
  have hpatch : Patch file 0 (spelled c.front ++ (c.kept ++ (removed ++ spelled c.behind)))
      (spelled c.front ++ (c.kept ++ ((if c.pointed then "." else "") ++ spelled c.behind)))
      [c.edit file] := by
    rw [edit, hcut, byteLength_append, ← Nat.add_assoc]
    exact .append_at (.keep 0 _) (Nat.zero_add _).symm (.append_at (.keep _ c.kept) rfl
      (.append_at (.change _ removed _) rfl (.keep _ (spelled c.behind))))
  have hold : spelled lexemes = spelled c.front ++ (c.kept ++ (removed ++ spelled c.behind)) := by
    refine (congrArg spelled c.lexemes_eq).trans ?_
    rw [spelled_append, spelled_append, hcut, String.append_assoc]
  have hsorted : fix.sortedEdits = [c.edit file] := by
    rw [Fix.sortedEdits, h, List.mergeSort_singleton]
  rw [remaining, spelled_append, spelled_rest, hold]
  exact (Fix.apply_of_patch (hsorted ▸ hpatch)).2

theorem apart_rest (h : Apart lexemes) (hseam : c.Seamed) : Apart c.rest := by
  have hbehind : Apart c.behind := by
    have hall : Apart (c.front ++ (c.first :: c.others ++ c.behind)) := c.lexemes_eq ▸ h
    rw [Apart, List.isChain_append, List.isChain_append] at hall
    exact hall.2.1.2.1
  rw [rest, isChain_led_iff]
  cases hpointed : c.pointed with
  | false => exact hbehind
  | true =>
    refine List.isChain_cons.mpr ⟨fun name hname => not_merges_point ?_, hbehind⟩
    exact hseam.named hpointed name hname

theorem isSpelled_of_mem_rest (h : ∀ a ∈ lexemes, a.IsSpelled) :
    ∀ b ∈ c.rest.head?, b.IsSpelled := by
  rw [rest]
  cases c.pointed with
  | true =>
    rintro _ ⟨⟩ spelling hspelling
    exact Option.some.inj hspelling
  | false =>
    rw [if_neg Bool.false_ne_true]
    cases hbehind : c.behind with
    | nil => simp [led]
    | cons b behind =>
      rintro _ ⟨⟩
      have hmem : b ∈ c.front ++ (c.first :: c.others ++ c.behind) := by simp [hbehind]
      exact h b (c.lexemes_eq ▸ hmem)

/-- What remains of tokens that do not merge does not merge, unless the two that meet are glued. -/
theorem apart_remaining_iff (h : Apart lexemes) (hspelled : ∀ a ∈ lexemes, a.IsSpelled)
    (hseam : c.Seamed) :
    Apart c.remaining ↔ ∀ a ∈ c.front.getLast?, ∀ b ∈ c.rest.head?, ¬ a.Glued b := by
  have hfront : Apart c.front := by
    have hall : Apart (c.front ++ (c.first :: c.others ++ c.behind)) := c.lexemes_eq ▸ h
    exact (List.isChain_append.mp hall).1
  have hmeet (a : Lexeme) (ha : a ∈ c.front.getLast?) (b : Lexeme) (hb : b ∈ c.rest.head?) :
      a.Merges b ↔ a.Glued b := by
    refine (hseam.around a ha b hb).merges_iff (hspelled a ?_) (c.isSpelled_of_mem_rest hspelled b hb)
    have hmem : a ∈ c.front ++ (c.first :: c.others ++ c.behind) :=
      List.mem_append_left _ (List.mem_of_getLast? ha)
    exact c.lexemes_eq ▸ hmem
  rw [remaining, Apart, List.isChain_append]
  constructor
  · rintro ⟨-, -, hchain⟩ a ha b hb
    exact fun hglued => hchain a ha b hb ((hmeet a ha b hb).mpr hglued)
  · exact fun hglued => ⟨hfront, c.apart_rest h hseam, fun a ha b hb hmerges =>
      hglued a ha b hb ((hmeet a ha b hb).mp hmerges)⟩

end Cut

end TypeLint.Syntax
