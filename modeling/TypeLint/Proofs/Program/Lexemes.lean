import TypeLint.Proofs.Program.Lossless
import TypeLint.Proofs.Program.RemovalPatch

namespace TypeLint.Syntax

open Text

/-- A token with the trivia in front of it. -/
structure Lexeme where
  lead : String
  kind : Kind
  text : String
  deriving DecidableEq, Repr

namespace Lexeme

/-- The text of lexemes one behind the other. -/
def spelled : List Lexeme → String
  | [] => ""
  | a :: rest => a.lead ++ a.text ++ spelled rest

theorem spelled_append (as bs : List Lexeme) : spelled (as ++ bs) = spelled as ++ spelled bs := by
  induction as with
  | nil => exact String.empty_append.symm
  | cons a as ih => simp only [List.cons_append, spelled, ih, String.append_assoc]

/-- Lexemes with more trivia in front of the first one. -/
def led (trivia : String) : List Lexeme → List Lexeme
  | [] => []
  | a :: rest => ⟨trivia ++ a.lead, a.kind, a.text⟩ :: rest

theorem spelled_led (trivia : String) {as : List Lexeme} (h : as ≠ []) :
    spelled (led trivia as) = trivia ++ spelled as := by
  cases as with
  | nil => exact absurd rfl h
  | cons a as => simp only [led, spelled, String.append_assoc]

/-- A kind with a fixed spelling is spelled so. -/
def IsSpelled (a : Lexeme) : Prop := ∀ spelling, a.kind.text? = some spelling → a.text = spelling

end Lexeme

namespace Green

mutual

/-- The tokens of a tree. -/
def lexemes : Green → List Lexeme
  | token lead kind text _ _ => [⟨lead, kind, text⟩]
  | node _ _ _ children _ => lexemesAll children

/-- The tokens of trees one behind the other. -/
def lexemesAll : List Green → List Lexeme
  | [] => []
  | g :: gs => g.lexemes ++ lexemesAll gs

end

mutual

/-- The kind of the first token of a tree. -/
def firstKind : Green → Kind
  | token _ kind _ _ _ => kind
  | node _ _ _ children _ => firstKindAll children

/-- The kind of the first token of trees one behind the other. -/
def firstKindAll : List Green → Kind
  | [] => .unknown
  | g :: _ => g.firstKind

end

mutual

/-- The kind of the last token of a tree. -/
def lastKind : Green → Kind
  | token _ kind _ _ _ => kind
  | node _ _ _ children _ => lastKindAll children

/-- The kind of the last token of trees one behind the other. -/
def lastKindAll : List Green → Kind
  | [] => .unknown
  | [g] => g.lastKind
  | _ :: next :: gs => lastKindAll (next :: gs)

end

theorem lexemesAll_append (gs hs : List Green) :
    lexemesAll (gs ++ hs) = lexemesAll gs ++ lexemesAll hs := by
  induction gs with
  | nil => rfl
  | cons g gs ih => rw [List.cons_append, lexemesAll, lexemesAll, ih, List.append_assoc]

theorem lexemesAll_singleton (g : Green) : lexemesAll [g] = g.lexemes := by
  rw [lexemesAll, lexemesAll, List.append_nil]

@[simp] theorem lastKindAll_append (gs : List Green) (g : Green) (hs : List Green) :
    lastKindAll (gs ++ g :: hs) = lastKindAll (g :: hs) := by
  induction gs with
  | nil => rfl
  | cons first gs ih =>
    rw [List.cons_append, ← ih]
    cases gs <;> rfl

mutual

theorem spelled_lexemes (g : Green) : Lexeme.spelled g.lexemes = g.text := by
  cases g with
  | token lead kind text payload labels =>
    rw [lexemes, Lexeme.spelled, Lexeme.spelled, String.append_empty]
    rfl
  | node kind flags payload children labels => exact spelled_lexemesAll children

theorem spelled_lexemesAll (gs : List Green) : Lexeme.spelled (lexemesAll gs) = textAll gs := by
  cases gs with
  | nil => rfl
  | cons g gs =>
    rw [lexemesAll, Lexeme.spelled_append, spelled_lexemes g, spelled_lexemesAll gs, textAll]

end

mutual

/-- The first token of a tree holds the trivia in front of the tree. -/
theorem exists_lexemes_eq_cons (g : Green) (h : g.Every Solid) :
    ∃ a rest, g.lexemes = a :: rest ∧ a.lead = g.lead ∧ a.kind = g.firstKind := by
  cases g with
  | token lead kind text payload labels => exact ⟨_, [], rfl, rfl, rfl⟩
  | node kind flags payload children labels => exact exists_lexemesAll_eq_cons children h.2 h.1

theorem exists_lexemesAll_eq_cons (gs : List Green) (h : EveryIn Solid gs) (hne : gs ≠ []) :
    ∃ a rest, lexemesAll gs = a :: rest ∧ a.lead = leadAll gs ∧ a.kind = firstKindAll gs := by
  cases gs with
  | nil => exact absurd rfl hne
  | cons g gs =>
    obtain ⟨a, rest, hlexemes, hlead, hkind⟩ := exists_lexemes_eq_cons g h.1
    exact ⟨a, rest ++ lexemesAll gs, by rw [lexemesAll, hlexemes, List.cons_append], hlead, hkind⟩

end

mutual

theorem exists_lexemes_eq_concat (g : Green) (h : g.Every Solid) :
    ∃ front a, g.lexemes = front ++ [a] ∧ a.kind = g.lastKind := by
  cases g with
  | token lead kind text payload labels => exact ⟨[], _, rfl, rfl⟩
  | node kind flags payload children labels => exact exists_lexemesAll_eq_concat children h.2 h.1

theorem exists_lexemesAll_eq_concat (gs : List Green) (h : EveryIn Solid gs) (hne : gs ≠ []) :
    ∃ front a, lexemesAll gs = front ++ [a] ∧ a.kind = lastKindAll gs := by
  match gs with
  | [] => exact absurd rfl hne
  | [g] =>
    rw [lexemesAll_singleton]
    exact exists_lexemes_eq_concat g h.1
  | g :: next :: gs =>
    obtain ⟨front, a, hlexemes, hkind⟩ :=
      exists_lexemesAll_eq_concat (next :: gs) h.2 (List.cons_ne_nil _ _)
    exact ⟨g.lexemes ++ front, a, by rw [lexemesAll, hlexemes, List.append_assoc], hkind⟩

end

end Green

/-- The tokens of a file with the trivia in front of them. -/
def SourceFile.lexemes (f : SourceFile) : List Lexeme :=
  (f.tree.tokens f.root).filterMap fun r => (f.tree.get? r).map fun n =>
    ⟨slice f.text n.pos n.start, n.kind, slice f.text n.start n.stop⟩

namespace Spot

/-- The lexeme of the outermost node. -/
def lexeme (s : Spot) : Lexeme := ⟨s.green.lead, s.green.kind, s.green.body⟩

/-- The lexemes of a tree are those of its tokens. -/
theorem map_lexeme_tokens (s : Spot) (h : s.green.Every Green.KindFits) :
    s.tokens.map lexeme = s.green.lexemes := by
  induction s using inductionOnChildren with
  | step s ih =>
    have hrow (first offset : Nat) (parent : NodeRef) (gs : List Green)
        (h : ∀ x ∈ row first offset parent gs, x.tokens.map lexeme = x.green.lexemes) :
        ((row first offset parent gs).flatMap tokens).map lexeme = Green.lexemesAll gs := by
      induction gs generalizing first offset with
      | nil => rfl
      | cons g gs ih =>
        rw [row_cons, List.forall_mem_cons] at h
        rw [row_cons, List.flatMap_cons, List.map_append, h.1, ih _ _ h.2, Green.lexemesAll]
    rw [tokens_eq h.self]
    cases hs : s.green with
    | token lead kind text payload labels =>
      simp [Green.isLeaf, lexeme, hs, Green.lexemes, Green.lead, Green.kind, Green.body]
    | node kind flags payload gs labels =>
      have hchildren := hrow s.first s.offset s.ref gs
      rw [← children_of_node hs] at hchildren
      exact hchildren fun x hx => ih x hx (h.of_mem_all (children_subset_all s.self_mem_all hx))

/-- The leading trivia of a spot lies between the offset and the start of its node. -/
theorem slice?_lead_of_mem_all {s x : Spot} (hs : s.offset = 0) (hx : x ∈ s.all) :
    slice? s.green.text x.offset x.start = some x.green.lead := by
  obtain ⟨before, after, htext, hoffset⟩ := exists_text_eq hx
  rw [hs, Nat.zero_add] at hoffset
  have h := slice?_append before x.green.lead (x.green.body ++ after)
  simp only [htext, start, hoffset, x.green.text_eq, String.append_assoc] at h ⊢
  exact h

end Spot

end TypeLint.Syntax

namespace TypeLint.Program

open Syntax Text Green

variable {p : TypeLint.Program} {f : SourceFile}

/-- The lexemes of a file that is built from a program are those of its tree. -/
theorem Shown.lexemes_eq (hf : Shown p f) (hp : Disciplined p) :
    f.lexemes = (whole p).lexemes := by
  have hself := (wholeSpot p).self_mem_all
  have htokens : (wholeSpot p).tokens.map Spot.lexeme = (whole p).lexemes :=
    (wholeSpot p).map_lexeme_tokens (whole_kindFits hp)
  rw [SourceFile.lexemes, hf.root, hf.shows.tokens_eq hself, List.filterMap_map, ← htokens,
    ← List.filterMap_eq_map]
  refine List.filterMap_congr fun x hx => ?_
  have hall := mem_all_of_mem_tokens hx
  have hlead : slice f.text x.offset x.start = x.green.lead := by
    rw [slice, hf.text]
    exact congrArg (Option.getD · "") (Spot.slice?_lead_of_mem_all (s := wholeSpot p) rfl hall)
  have hbody : slice f.text x.start x.stop = x.green.body := by
    rw [slice, hf.text]
    exact congrArg (Option.getD · "") (slice?_body_whole hall)
  rw [Function.comp_apply, hf.shows.get?_eq hall]
  simp only [Option.map_some, Spot.node, Spot.lexeme, hlead, hbody, Function.comp_apply]

mutual

/-- The tokens of a tree that a layout makes are spelled as their kinds are. -/
theorem isSpelled_of_mem_lexemes (g : Green) (h : Formed g) : ∀ a ∈ g.lexemes, a.IsSpelled := by
  cases g with
  | token lead kind text payload labels =>
    exact List.forall_mem_singleton.mpr fun spelling => TokenForm.text_eq h
  | node kind flags payload children labels => exact isSpelled_of_mem_lexemesAll children h.2

theorem isSpelled_of_mem_lexemesAll (gs : List Green) (h : FormedAll gs) :
    ∀ a ∈ lexemesAll gs, a.IsSpelled := by
  cases gs with
  | nil => exact List.forall_mem_nil _
  | cons g gs =>
    exact List.forall_mem_append.mpr
      ⟨isSpelled_of_mem_lexemes g h.1, isSpelled_of_mem_lexemesAll gs h.2⟩

end

theorem solid_of_formed {g : Green} (h : Formed g) : g.Every Solid := h.imp fun _ => solid_of_hasForm

end TypeLint.Program
