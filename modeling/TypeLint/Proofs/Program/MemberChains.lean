import TypeLint.Proofs.Program.StringLiterals

namespace TypeLint.Program

open Syntax

/-- The keywords that a chain may begin with. -/
def wordKinds : List Kind := [.thisKeyword, .nullKeyword, .trueKeyword, .falseKeyword]

/-- The kinds of names and of literals without parts. -/
def valuedKinds : List Kind :=
  [.identifier, .stringLiteral, .numericLiteral, .bigIntLiteral, .noSubstitutionTemplateLiteral]

/-- What a chain begins with: a keyword, or a name or literal with its contents. -/
inductive Leaf where
  | word (kind : Kind) (h : kind ∈ wordKinds)
  | valued (kind : Kind) (h : kind ∈ valuedKinds) (value : String)

/-- A chain of member accesses, each with whether it is an optional one. -/
inductive Chain where
  | leaf (l : Leaf)
  | property (receiver : Chain) (optional : Bool) (name : String)
  | element (receiver : Chain) (optional : Bool) (index : Chain)

namespace Chain

/-- How many accesses lie inside one another. -/
def height : Chain → Nat
  | leaf _ => 0
  | property receiver _ _ => receiver.height + 1
  | element receiver _ index => max receiver.height index.height + 1

end Chain

/-- The kind and the text of a token. -/
abbrev TokenText := Option Kind × String

/-- A token with a fixed spelling. -/
def markText (kind : Kind) : TokenText := (some kind, (kind.text?).getD "")

/-- The spelling of a name or literal with the given contents. -/
def spelling (kind : Kind) (value : String) : String :=
  match kind with
  | .stringLiteral => quoteString value
  | .noSubstitutionTemplateLiteral => "\x60" ++ value ++ "\x60"
  | _ => value

theorem spelling_injective (kind : Kind) : Function.Injective (spelling kind) := by
  intro v w h
  simp only [spelling] at h
  split at h
  · exact quoteString_injective h
  · rw [String.append_left_inj, String.append_right_inj] at h
    exact h
  · exact h

namespace Leaf

/-- The kind of the token. -/
def kind : Leaf → Kind
  | word kind _ => kind
  | valued kind _ _ => kind

/-- The token. -/
def token : Leaf → TokenText
  | word kind _ => markText kind
  | valued kind _ value => (some kind, spelling kind value)

theorem token_fst (l : Leaf) : l.token.1 = some l.kind := by cases l <;> rfl

theorem kind_mem (l : Leaf) : l.kind ∈ wordKinds ++ valuedKinds := by
  cases l with
  | word kind h => exact List.mem_append_left _ h
  | valued kind h value => exact List.mem_append_right _ h

/-- The name of a member is a leaf itself. -/
def name (text : String) : Leaf := valued .identifier (by decide) text

theorem token_name (text : String) : (name text).token = (some .identifier, text) := rfl

theorem name_injective : Function.Injective name := fun _ _ h => (valued.inj h).2

theorem kind_ne_access (l : Leaf) :
    l.kind ≠ .propertyAccessExpression ∧ l.kind ≠ .elementAccessExpression := by
  have hmem := l.kind_mem
  constructor
  · intro h
    rw [h] at hmem
    exact absurd hmem (by decide)
  · intro h
    rw [h] at hmem
    exact absurd hmem (by decide)

/-- What leaves of one kind have besides it: keywords nothing, the others their contents. -/
theorem cases_of_kind_eq {l l' : Leaf} (h : l.kind = l'.kind) :
    (∃ kind hword, l = word kind hword ∧ l' = word kind hword) ∨
      ∃ kind hvalued value value',
        l = valued kind hvalued value ∧ l' = valued kind hvalued value' := by
  have hapart {kind : Kind} (hword : kind ∈ wordKinds) (hvalued : kind ∈ valuedKinds) : False := by
    revert hword hvalued
    cases kind <;> decide
  cases l with
  | word kind hword =>
    cases l' with
    | word kind' hword' =>
      obtain rfl : kind = kind' := h
      exact .inl ⟨kind, hword, rfl, rfl⟩
    | valued kind' hvalued value =>
      obtain rfl : kind = kind' := h
      exact (hapart hword hvalued).elim
  | valued kind hvalued value =>
    cases l' with
    | word kind' hword =>
      obtain rfl : kind = kind' := h
      exact (hapart hword hvalued).elim
    | valued kind' hvalued' value' =>
      obtain rfl : kind = kind' := h
      exact .inr ⟨kind, hvalued, value, value', rfl, rfl⟩

theorem token_injective : Function.Injective token := by
  intro l l' h
  have hkind : l.kind = l'.kind := by
    rw [← Option.some.injEq, ← token_fst, ← token_fst, h]
  rcases cases_of_kind_eq hkind with ⟨kind, hword, rfl, rfl⟩ |
    ⟨kind, hvalued, value, value', rfl, rfl⟩
  · rfl
  · rw [spelling_injective kind (congrArg Prod.snd h)]

end Leaf

/-- The token in front of the name of a member. -/
def dotText (optional : Bool) : TokenText :=
  markText (if optional then .questionDotToken else .dotToken)

/-- The token in front of the bracket of an optional access to an element. -/
def questionText (optional : Bool) : List TokenText :=
  if optional then [markText .questionDotToken] else []

namespace Chain

/-- The kind of the outermost node. -/
def kind : Chain → Kind
  | leaf l => l.kind
  | property .. => .propertyAccessExpression
  | element .. => .elementAccessExpression

/-- The tokens of a chain, the last one first. -/
def backwards : Chain → List TokenText
  | leaf l => [l.token]
  | property receiver optional name =>
    (some .identifier, name) :: dotText optional :: receiver.backwards
  | element receiver optional index =>
    markText .closeBracketToken :: (index.backwards ++
      markText .openBracketToken :: (questionText optional ++ receiver.backwards))

/-- The tokens do not begin with one that leads up to the name of a member. -/
def Apart (tokens : List TokenText) : Prop := ∀ optional, tokens.head? ≠ some (dotText optional)

theorem dotText_injective : Function.Injective dotText := by
  intro optional optional' h
  revert h
  cases optional <;> cases optional' <;> decide

theorem token_ne_markText (l : Leaf) {kind : Kind} (h : kind ∉ wordKinds ++ valuedKinds) :
    l.token ≠ markText kind := by
  intro heq
  have hkind : l.kind = kind := by
    rw [← Option.some.injEq, ← Leaf.token_fst, heq]
    rfl
  exact h (hkind ▸ l.kind_mem)

theorem apart_mark {kind : Kind} (h : kind ≠ .dotToken ∧ kind ≠ .questionDotToken)
    (rest : List TokenText) : Apart (markText kind :: rest) := by
  intro optional heq
  have hkind : kind = if optional then .questionDotToken else .dotToken :=
    Option.some.inj (congrArg Prod.fst (Option.some.inj heq))
  cases optional
  · exact h.1 hkind
  · exact h.2 hkind

/-- A chain does not end with a dot. -/
theorem apart_backwards (c : Chain) (rest : List TokenText) : Apart (c.backwards ++ rest) := by
  intro optional
  have hdot :
      (if optional then Kind.questionDotToken else .dotToken) ∉ wordKinds ++ valuedKinds := by
    cases optional <;> decide
  cases c with
  | leaf l => exact fun h => token_ne_markText l hdot (Option.some.inj h)
  | property receiver opt name =>
    intro h
    have hkind := congrArg Prod.fst (Option.some.inj h)
    revert hkind
    cases optional <;> nofun
  | element receiver opt index => exact apart_mark (by decide) _ optional

/-- The tokens of a chain, read from its end, settle the chain and where it begins, unless what
    stands in front of it is a dot. -/
theorem backwards_append_inj {c d : Chain} {rest rest' : List TokenText}
    (h : c.backwards ++ rest = d.backwards ++ rest') (hrest : Apart rest) (hrest' : Apart rest') :
    c = d ∧ rest = rest' := by
  have hclose : Kind.closeBracketToken ∉ wordKinds ++ valuedKinds := by decide
  induction c generalizing d rest rest' with
  | leaf l =>
    cases d with
    | leaf l' =>
      obtain ⟨htoken, rfl⟩ := List.cons.inj h
      exact ⟨by rw [Leaf.token_injective htoken], rfl⟩
    | property receiver optional name =>
      obtain ⟨-, rfl⟩ := List.cons.inj h
      exact (hrest optional rfl).elim
    | element receiver optional index =>
      exact (token_ne_markText l hclose (List.cons.inj h).1).elim
  | property receiver optional name ih =>
    cases d with
    | leaf l =>
      obtain ⟨-, hrest⟩ := List.cons.inj h
      exact (hrest' optional (congrArg List.head? hrest.symm)).elim
    | property receiver' optional' name' =>
      obtain ⟨hname, h⟩ := List.cons.inj h
      obtain ⟨hdot, h⟩ := List.cons.inj h
      obtain ⟨rfl, rfl⟩ := ih h hrest hrest'
      obtain rfl : name = name' := congrArg Prod.snd hname
      obtain rfl := dotText_injective hdot
      exact ⟨rfl, rfl⟩
    | element receiver' optional' index =>
      have hkind := congrArg Prod.fst (List.cons.inj h).1
      cases hkind
  | element receiver optional index ihreceiver ihindex =>
    cases d with
    | leaf l => exact (token_ne_markText l hclose (List.cons.inj h).1.symm).elim
    | property receiver' optional' name =>
      have hkind := congrArg Prod.fst (List.cons.inj h).1
      cases hkind
    | element receiver' optional' index' =>
      simp only [backwards, List.cons_append, List.append_assoc] at h
      obtain ⟨rfl, hinner⟩ :=
        ihindex (List.cons.inj h).2 (apart_mark (by decide) _) (apart_mark (by decide) _)
      have houter := (List.cons.inj hinner).2
      -- only an optional access has `?.` in front of its bracket, and no receiver ends with it
      cases optional <;> cases optional'
      · obtain ⟨rfl, rfl⟩ := ihreceiver houter hrest hrest'
        exact ⟨rfl, rfl⟩
      · exact (apart_backwards receiver rest true (congrArg List.head? houter)).elim
      · exact (apart_backwards receiver' rest' true (congrArg List.head? houter.symm)).elim
      · obtain ⟨rfl, rfl⟩ := ihreceiver (List.cons.inj houter).2 hrest hrest'
        exact ⟨rfl, rfl⟩

/-- Different chains have different tokens. -/
theorem backwards_injective : Function.Injective backwards := by
  intro c d h
  have hnil : Apart [] := fun _ => nofun
  exact (backwards_append_inj (congrArg (· ++ []) h) hnil hnil).1

end Chain

end TypeLint.Program
