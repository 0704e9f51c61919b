import Mathlib.Data.List.Infix
import TypeLint.Proofs.Types.Connective

namespace TypeLint.Types

/-- A keyword, by its place among the types that every store begins with. -/
abbrev Keyword := Fin TypeId.named.length

namespace Keyword

/-- The keyword as it is written. -/
def name (k : Keyword) : String := (TypeId.named.get k).1

/-- The type of the keyword. -/
def type (k : Keyword) : TypeId := (TypeId.named.get k).2

/-- No keyword begins with another one. -/
theorem eq_of_begins : ∀ k k' : Keyword, k.name.toList <+: k'.name.toList → k = k' := by
  decide

/-- A keyword begins with a letter. -/
theorem exists_cons (k : Keyword) : ∃ c cs, k.name.toList = c :: cs ∧ c.isAlpha = true := by
  have hall : ∀ k : Keyword, k.name.toList ≠ [] ∧ k.name.toList.all Char.isAlpha = true := by
    decide
  obtain ⟨c, cs, hcs⟩ := List.exists_cons_of_ne_nil (hall k).1
  exact ⟨c, cs, hcs, List.all_eq_true.mp (hall k).2 c (hcs ▸ List.mem_cons_self)⟩

theorem name_append_ne (k : Keyword) {bracket : Char} {rest rest' : List Char}
    (hbracket : bracket.isAlpha = false) : k.name.toList ++ rest ≠ bracket :: rest' := by
  obtain ⟨c, cs, hcs, hletter⟩ := k.exists_cons
  rw [hcs]
  intro h
  rw [(List.cons_eq_cons.mp h).1, hbracket] at hletter
  cases hletter

theorem name_append_inj {k k' : Keyword} {rest rest' : List Char}
    (h : k.name.toList ++ rest = k'.name.toList ++ rest') : k = k' ∧ rest = rest' := by
  have hk : k = k' := by
    rcases List.prefix_or_prefix_of_prefix (List.prefix_append _ rest) ⟨rest', h.symm⟩ with
      hprefix | hprefix
    · exact eq_of_begins k k' hprefix
    · exact (eq_of_begins k' k hprefix).symm
  subst hk
  exact ⟨rfl, List.append_cancel_left h⟩

end Keyword

/-- The sign between what a connective puts together. -/
def Connective.sign : Connective → String
  | union => " | "
  | intersection => " & "

mutual

/-- A text as it is read from left to right. -/
inductive Phrase where
  /-- An operand with brackets behind it, and nothing more. -/
  | last (operand : Operand) (brackets : Nat)
  /-- An operand with brackets behind it, a sign, and the rest. -/
  | join (operand : Operand) (brackets : Nat) (c : Connective) (rest : Phrase)
  /-- A function, which takes the rest for what it returns. -/
  | arrow (returned : Phrase)

/-- The part of a phrase that brackets and signs stand behind. -/
inductive Operand where
  | word (k : Keyword)
  | tuple (elements : List Phrase)
  | group (inner : Phrase)

end

/-- Some pairs of brackets. -/
def brackets : Nat → List Char
  | 0 => []
  | n + 1 => '[' :: ']' :: brackets n

mutual

/-- The text that is read as the phrase. -/
def Phrase.spelled : Phrase → List Char
  | .last operand n => operand.spelled ++ brackets n
  | .join operand n c rest => operand.spelled ++ (brackets n ++ (c.sign.toList ++ rest.spelled))
  | .arrow returned => "() => ".toList ++ returned.spelled

/-- The text that is read as the operand. -/
def Operand.spelled : Operand → List Char
  | .word k => k.name.toList
  | .tuple [] => ['[', ']']
  | .tuple (first :: rest) => '[' :: (first.spelled ++ Phrase.spelledAfter rest)
  | .group inner => '(' :: (inner.spelled ++ [')'])

/-- The text behind an element of a tuple, up to the end of the tuple. -/
def Phrase.spelledAfter : List Phrase → List Char
  | [] => [']']
  | first :: rest => ',' :: ' ' :: (first.spelled ++ Phrase.spelledAfter rest)

end

section

variable (operand : Operand) (n : Nat) (c : Connective) (rest returned : Phrase)

theorem Phrase.spelled_last : (last operand n).spelled = operand.spelled ++ brackets n := rfl

theorem Phrase.spelled_join : (join operand n c rest).spelled =
    operand.spelled ++ (brackets n ++ (c.sign.toList ++ rest.spelled)) := rfl

theorem Phrase.spelled_arrow : (arrow returned).spelled = "() => ".toList ++ returned.spelled := rfl

end

/-- What can stand behind a phrase: nothing, or the end of what it stands in. -/
def Closes (rest : List Char) : Prop := ∀ c ∈ rest.head?, c = ',' ∨ c = ']' ∨ c = ')'

variable {rest rest' : List Char} {n n' : Nat}

theorem closes_nil : Closes [] := fun _ h => by cases h

theorem closes_spelledAfter (ps : List Phrase) (rest : List Char) :
    Closes (Phrase.spelledAfter ps ++ rest) := by
  cases ps with
  | nil =>
    rw [Phrase.spelledAfter]
    rintro c ⟨⟩
    exact .inr (.inl rfl)
  | cons p ps =>
    rw [Phrase.spelledAfter]
    rintro c ⟨⟩
    exact .inl rfl

theorem closes_parenthesis (rest : List Char) : Closes (')' :: rest) := by
  rintro c ⟨⟩
  exact .inr (.inr rfl)

/-- An operand begins neither with the end of something nor, unless it is a group, as a function. -/
theorem Operand.exists_cons (o : Operand) :
    ∃ c cs, o.spelled = c :: cs ∧ c ≠ ')' ∧ c ≠ ']' ∧ (c = '(' → ∃ inner, o = .group inner) := by
  match o with
  | .word k =>
    obtain ⟨c, cs, hcs, hletter⟩ := k.exists_cons
    rw [Operand.spelled]
    refine ⟨c, cs, hcs, ?_, ?_, ?_⟩ <;> rintro rfl <;> exact absurd hletter (by decide)
  | .tuple [] | .tuple (_ :: _) =>
    rw [Operand.spelled]
    exact ⟨'[', _, rfl, by decide, by decide, fun h => absurd h (by decide)⟩
  | .group inner =>
    rw [Operand.spelled]
    exact ⟨'(', _, rfl, by decide, by decide, fun _ => ⟨inner, rfl⟩⟩

/-- A phrase does not begin with the end of something. -/
theorem Phrase.exists_cons (p : Phrase) : ∃ c cs, p.spelled = c :: cs ∧ c ≠ ')' ∧ c ≠ ']' := by
  match p with
  | .last o n =>
    obtain ⟨c, cs, hcs, hparen, hbracket, -⟩ := o.exists_cons
    exact ⟨c, cs ++ brackets n, by rw [Phrase.spelled_last, hcs, List.cons_append], hparen,
      hbracket⟩
  | .join o n sign rest =>
    obtain ⟨c, cs, hcs, hparen, hbracket, -⟩ := o.exists_cons
    exact ⟨c, _, by rw [Phrase.spelled_join, hcs, List.cons_append], hparen, hbracket⟩
  | .arrow returned => exact ⟨'(', _, by rw [Phrase.spelled_arrow]; rfl, by decide, by decide⟩

/-- No operand begins as a function does. -/
theorem Operand.spelled_append_ne_arrow (o : Operand) (rest returned : List Char) :
    o.spelled ++ rest ≠ "() => ".toList ++ returned := by
  intro h
  obtain ⟨c, cs, hcs, -, -, hgroup⟩ := o.exists_cons
  have hcons : c :: (cs ++ rest) = '(' :: (" => ".toList.cons ')' ++ returned) := by
    rwa [hcs] at h
  obtain ⟨rfl, htail⟩ := List.cons_eq_cons.mp hcons
  obtain ⟨inner, rfl⟩ := hgroup rfl
  obtain ⟨first, others, hinner, hparen, -⟩ := inner.exists_cons
  rw [Operand.spelled, hinner] at hcs
  obtain ⟨-, rfl⟩ := List.cons_eq_cons.mp hcs
  exact hparen (List.cons_eq_cons.mp htail).1

theorem brackets_append_inj (h : brackets n ++ rest = brackets n' ++ rest')
    (hrest : rest.head? ≠ some '[') (hrest' : rest'.head? ≠ some '[') : n = n' ∧ rest = rest' := by
  induction n generalizing n' with
  | zero =>
    cases n' with
    | zero => exact ⟨rfl, h⟩
    | succ n' => exact absurd (congrArg List.head? h) hrest
  | succ n ih =>
    cases n' with
    | zero => exact absurd (congrArg List.head? h).symm hrest'
    | succ n' =>
      obtain ⟨rfl, hrest⟩ := ih (List.tail_eq_of_cons_eq (List.tail_eq_of_cons_eq h))
      exact ⟨rfl, hrest⟩

theorem Closes.head_ne (h : Closes rest) : rest.head? ≠ some '[' ∧ rest.head? ≠ some ' ' := by
  constructor <;> intro hhead <;> rcases h _ hhead with hc | hc | hc <;> exact absurd hc (by decide)

theorem Connective.sign_append_head (c : Connective) (rest : List Char) :
    (c.sign.toList ++ rest).head? = some ' ' := by
  cases c <;> rfl

theorem Connective.sign_append_inj {c c' : Connective}
    (h : c.sign.toList ++ rest = c'.sign.toList ++ rest') : c = c' ∧ rest = rest' := by
  have hlength (c : Connective) : c.sign.toList.length = 3 := by cases c <;> rfl
  have hsign : ∀ c c' : Connective, c.sign.toList = c'.sign.toList → c = c' := by
    rintro (_ | _) (_ | _) <;> decide
  obtain ⟨hc, hrest⟩ := List.append_inj h ((hlength c).trans (hlength c').symm)
  exact ⟨hsign c c' hc, hrest⟩

-- An operand ends by itself. A phrase could go on with brackets or a sign, so what stands behind it
-- has to begin with neither.
mutual

theorem Phrase.spelled_append_inj (p q : Phrase) (rest rest' : List Char)
    (h : p.spelled ++ rest = q.spelled ++ rest') (hrest : Closes rest) (hrest' : Closes rest') :
    p = q ∧ rest = rest' := by
  have hsign (c : Connective) (after : List Char) :
      (c.sign.toList ++ after).head? ≠ some '[' := by
    rw [c.sign_append_head]
    decide
  match p, q with
  | .last o n, .last o' n' =>
    simp only [Phrase.spelled_last, List.append_assoc] at h
    obtain ⟨rfl, hbrackets⟩ := Operand.spelled_append_inj o o' _ _ h
    obtain ⟨rfl, rfl⟩ := brackets_append_inj hbrackets hrest.head_ne.1 hrest'.head_ne.1
    exact ⟨rfl, rfl⟩
  | .last o n, .join o' n' c' p' =>
    simp only [Phrase.spelled_last, Phrase.spelled_join, List.append_assoc] at h
    obtain ⟨rfl, hbrackets⟩ := Operand.spelled_append_inj o o' _ _ h
    obtain ⟨-, rfl⟩ := brackets_append_inj hbrackets hrest.head_ne.1 (hsign c' _)
    exact absurd (c'.sign_append_head _) hrest.head_ne.2
  | .join o n c p, .last o' n' =>
    simp only [Phrase.spelled_last, Phrase.spelled_join, List.append_assoc] at h
    obtain ⟨rfl, hbrackets⟩ := Operand.spelled_append_inj o o' _ _ h
    obtain ⟨-, rfl⟩ := brackets_append_inj hbrackets (hsign c _) hrest'.head_ne.1
    exact absurd (c.sign_append_head _) hrest'.head_ne.2
  | .join o n c p, .join o' n' c' p' =>
    simp only [Phrase.spelled_join, List.append_assoc] at h
    obtain ⟨rfl, hbrackets⟩ := Operand.spelled_append_inj o o' _ _ h
    obtain ⟨rfl, hsigns⟩ := brackets_append_inj hbrackets (hsign c _) (hsign c' _)
    obtain ⟨rfl, hphrases⟩ := Connective.sign_append_inj hsigns
    obtain ⟨rfl, rfl⟩ := Phrase.spelled_append_inj p p' rest rest' hphrases hrest hrest'
    exact ⟨rfl, rfl⟩
  | .arrow p, .arrow p' =>
    simp only [Phrase.spelled_arrow, List.append_assoc] at h
    obtain ⟨rfl, rfl⟩ := Phrase.spelled_append_inj p p' rest rest' (List.append_cancel_left h)
      hrest hrest'
    exact ⟨rfl, rfl⟩
  | .arrow p, .last o n | .arrow p, .join o n _ _ =>
    simp only [Phrase.spelled_last, Phrase.spelled_join, Phrase.spelled_arrow,
      List.append_assoc] at h
    exact absurd h.symm (o.spelled_append_ne_arrow _ _)
  | .last o n, .arrow p' | .join o n _ _, .arrow p' =>
    simp only [Phrase.spelled_last, Phrase.spelled_join, Phrase.spelled_arrow,
      List.append_assoc] at h
    exact absurd h (o.spelled_append_ne_arrow _ _)

theorem Operand.spelled_append_inj (o o' : Operand) (rest rest' : List Char)
    (h : o.spelled ++ rest = o'.spelled ++ rest') : o = o' ∧ rest = rest' := by
  match o, o' with
  | .word k, .word k' =>
    simp only [Operand.spelled] at h
    obtain ⟨rfl, rfl⟩ := Keyword.name_append_inj h
    exact ⟨rfl, rfl⟩
  | .word k, .tuple [] | .word k, .tuple (_ :: _) | .word k, .group _ =>
    simp only [Operand.spelled] at h
    exact absurd h (k.name_append_ne (by decide))
  | .tuple [], .word k | .tuple (_ :: _), .word k | .group _, .word k =>
    simp only [Operand.spelled] at h
    exact absurd h.symm (k.name_append_ne (by decide))
  | .tuple [], .group _ | .tuple (_ :: _), .group _ =>
    simp only [Operand.spelled] at h
    exact absurd (List.cons_eq_cons.mp h).1 (by decide)
  | .group _, .tuple [] | .group _, .tuple (_ :: _) =>
    simp only [Operand.spelled] at h
    exact absurd (List.cons_eq_cons.mp h).1 (by decide)
  | .tuple [], .tuple [] =>
    simp only [Operand.spelled] at h
    exact ⟨rfl, List.append_cancel_left h⟩
  | .tuple [], .tuple (q :: qs) =>
    simp only [Operand.spelled] at h
    obtain ⟨c, cs, hcs, -, hbracket⟩ := q.exists_cons
    rw [hcs] at h
    exact absurd (congrArg (·[1]?) h) (by simpa using Ne.symm hbracket)
  | .tuple (p :: ps), .tuple [] =>
    simp only [Operand.spelled] at h
    obtain ⟨c, cs, hcs, -, hbracket⟩ := p.exists_cons
    rw [hcs] at h
    exact absurd (congrArg (·[1]?) h) (by simpa using hbracket)
  | .tuple (p :: ps), .tuple (q :: qs) =>
    simp only [Operand.spelled, List.cons_append, List.append_assoc] at h
    obtain ⟨rfl, hafter⟩ := Phrase.spelled_append_inj p q _ _ (List.tail_eq_of_cons_eq h)
      (closes_spelledAfter ps _) (closes_spelledAfter qs _)
    obtain ⟨rfl, rfl⟩ := Phrase.spelledAfter_append_inj ps qs rest rest' hafter
    exact ⟨rfl, rfl⟩
  | .group p, .group q =>
    simp only [Operand.spelled, List.cons_append, List.append_assoc] at h
    obtain ⟨rfl, hafter⟩ := Phrase.spelled_append_inj p q _ _ (List.tail_eq_of_cons_eq h)
      (closes_parenthesis _) (closes_parenthesis _)
    exact ⟨rfl, List.tail_eq_of_cons_eq hafter⟩

theorem Phrase.spelledAfter_append_inj (ps qs : List Phrase) (rest rest' : List Char)
    (h : Phrase.spelledAfter ps ++ rest = Phrase.spelledAfter qs ++ rest') :
    ps = qs ∧ rest = rest' := by
  match ps, qs with
  | [], [] =>
    simp only [Phrase.spelledAfter] at h
    exact ⟨rfl, List.tail_eq_of_cons_eq h⟩
  | [], q :: qs =>
    simp only [Phrase.spelledAfter] at h
    exact absurd (List.cons_eq_cons.mp h).1 (by decide)
  | p :: ps, [] =>
    simp only [Phrase.spelledAfter] at h
    exact absurd (List.cons_eq_cons.mp h).1 (by decide)
  | p :: ps, q :: qs =>
    simp only [Phrase.spelledAfter, List.cons_append, List.append_assoc] at h
    obtain ⟨rfl, hafter⟩ := Phrase.spelled_append_inj p q _ _
      (List.tail_eq_of_cons_eq (List.tail_eq_of_cons_eq h)) (closes_spelledAfter ps _)
      (closes_spelledAfter qs _)
    obtain ⟨rfl, rfl⟩ := Phrase.spelledAfter_append_inj ps qs rest rest' hafter
    exact ⟨rfl, rfl⟩

end

/-- No text is read in two ways. -/
theorem Phrase.spelled_inj {p q : Phrase} : p.spelled = q.spelled ↔ p = q :=
  ⟨fun h => (Phrase.spelled_append_inj p q [] [] (by rw [h]) closes_nil closes_nil).1,
    fun h => h ▸ rfl⟩

namespace Phrase

variable {c c' : Connective}

/-- The phrase with a further pair of brackets behind it. -/
def bracketed : Phrase → Phrase
  | last operand n => last operand (n + 1)
  | join operand n c rest => join operand n c rest.bracketed
  | arrow returned => arrow returned.bracketed

/-- The phrase with a sign and a second one behind it. -/
def followed : Phrase → Connective → Phrase → Phrase
  | last operand n, c, next => join operand n c next
  | join operand n c' rest, c, next => join operand n c' (rest.followed c next)
  | arrow returned, c, next => arrow (returned.followed c next)

/-- Some phrases with signs between them. -/
def joined (c : Connective) (first : Phrase) : List Phrase → Phrase
  | [] => first
  | second :: rest => first.followed c (joined c second rest)

/-- The phrase ends in what a function returns, which would take what stands behind it. -/
def isOpen : Phrase → Bool
  | last _ _ => false
  | join _ _ _ rest => rest.isOpen
  | arrow _ => true

/-- The sign of the connective stands between operands of the phrase, in front of any function. -/
def hasSign (c : Connective) : Phrase → Bool
  | last _ _ => false
  | join _ _ c' rest => c' = c || rest.hasSign c
  | arrow _ => false

/-- The connective that puts the phrase together: signs of intersections bind tighter. -/
def connective? (p : Phrase) : Option Connective :=
  if p.hasSign .union then some .union
  else if p.hasSign .intersection then some .intersection
  else none

variable {p q : Phrase}

theorem brackets_succ (n : Nat) : brackets (n + 1) = brackets n ++ ['[', ']'] := by
  induction n with
  | zero => rfl
  | succ n ih => exact congrArg (fun more => '[' :: ']' :: more) ih

theorem spelled_bracketed (p : Phrase) : p.bracketed.spelled = p.spelled ++ ['[', ']'] := by
  match p with
  | last o n => simp only [bracketed, spelled_last, brackets_succ, List.append_assoc]
  | join o n c rest => simp only [bracketed, spelled_join, spelled_bracketed rest, List.append_assoc]
  | arrow returned =>
    simp only [bracketed, spelled_arrow, spelled_bracketed returned, List.append_assoc]

theorem spelled_followed (p q : Phrase) :
    (p.followed c q).spelled = p.spelled ++ (c.sign.toList ++ q.spelled) := by
  match p with
  | last o n => simp only [followed, spelled_last, spelled_join, List.append_assoc]
  | join o n c' rest =>
    simp only [followed, spelled_join, spelled_followed rest, List.append_assoc]
  | arrow returned =>
    simp only [followed, spelled_arrow, spelled_followed returned, List.append_assoc]

theorem followed_assoc (p q next : Phrase) :
    (p.followed c q).followed c' next = p.followed c (q.followed c' next) := by
  match p with
  | last o n => rw [followed, followed, followed]
  | join o n c'' rest => rw [followed, followed, followed, followed_assoc rest]
  | arrow returned => rw [followed, followed, followed, followed_assoc returned]

theorem spelled_joined (first : Phrase) (rest : List Phrase) :
    (joined c first rest).spelled = c.sign.toList.intercalate ((first :: rest).map spelled) := by
  induction rest generalizing first with
  | nil => simp [joined]
  | cons second rest ih =>
    rw [joined, spelled_followed, ih, List.map_cons, List.map_cons, List.map_cons,
      List.intercalate_cons_cons, List.append_assoc]

theorem spelled_append_spelledAfter (first : Phrase) (rest : List Phrase) :
    first.spelled ++ spelledAfter rest =
      ", ".toList.intercalate ((first :: rest).map spelled) ++ [']'] := by
  induction rest generalizing first with
  | nil => simp [spelledAfter]
  | cons second rest ih =>
    rw [spelledAfter, ih, List.map_cons, List.map_cons, List.map_cons, List.intercalate_cons_cons,
      List.append_assoc, List.append_assoc]
    rfl

theorem spelled_tuple (elements : List Phrase) :
    (Operand.tuple elements).spelled =
      '[' :: (", ".toList.intercalate (elements.map spelled) ++ [']']) := by
  match elements with
  | [] => rw [Operand.spelled, List.map_nil, List.intercalate_nil, List.nil_append]
  | first :: rest => rw [Operand.spelled, spelled_append_spelledAfter]

theorem bracketed_inj (h : p.bracketed = q.bracketed) : p = q := by
  have hspelled : p.spelled ++ ['[', ']'] = q.spelled ++ ['[', ']'] := by
    rw [← spelled_bracketed, ← spelled_bracketed, h]
  exact spelled_inj.mp (List.append_cancel_right hspelled)

theorem hasSign_followed {p q : Phrase} (h : p.isOpen = false) : (p.followed c q).hasSign c = true := by
  match p with
  | last o n => simp [followed, hasSign]
  | join o n c' rest =>
    rw [followed, hasSign, hasSign_followed (p := rest) h, Bool.or_true]

theorem hasSign_followed_of_ne {p q : Phrase} (hne : c' ≠ c) (hp : p.hasSign c = false)
    (hq : q.hasSign c = false) : (p.followed c' q).hasSign c = false := by
  match p with
  | last o n => simp [followed, hasSign, hne, hq]
  | join o n c'' rest =>
    rw [hasSign, Bool.or_eq_false_iff] at hp
    rw [followed, hasSign, hp.1, hasSign_followed_of_ne hne hp.2 hq, Bool.or_false]
  | arrow returned => rfl

/-- A sign that a phrase does not have tells where the phrase ends. -/
theorem followed_inj {p p' q q' : Phrase} (hp : p.isOpen = false) (hp' : p'.isOpen = false)
    (hsign : p.hasSign c = false) (hsign' : p'.hasSign c = false)
    (h : p.followed c q = p'.followed c q') : p = p' ∧ q = q' := by
  match p, p' with
  | last o n, last o' n' =>
    obtain ⟨rfl, rfl, -, rfl⟩ := join.inj h
    exact ⟨rfl, rfl⟩
  | last o n, join o' n' c' rest' =>
    obtain ⟨-, -, rfl, -⟩ := join.inj h
    simp [hasSign] at hsign'
  | join o n c' rest, last o' n' =>
    obtain ⟨-, -, rfl, -⟩ := join.inj h
    simp [hasSign] at hsign
  | join o n c' rest, join o' n' c'' rest' =>
    obtain ⟨rfl, rfl, rfl, hrest⟩ := join.inj h
    have hp : rest.isOpen = false := hp
    have hp' : rest'.isOpen = false := hp'
    rw [hasSign, Bool.or_eq_false_iff] at hsign hsign'
    obtain ⟨rfl, rfl⟩ := followed_inj hp hp' hsign.2 hsign'.2 hrest
    exact ⟨rfl, rfl⟩
  | arrow _, _ => cases hp
  | _, arrow _ => cases hp'

/-- Phrases without a sign, of which none but the last is open, are told apart by this sign between
    them. -/
theorem joined_inj {ps qs : List Phrase} (hp : ∀ x ∈ (p :: ps).dropLast, x.isOpen = false)
    (hq : ∀ x ∈ (q :: qs).dropLast, x.isOpen = false) (hsign : ∀ x ∈ p :: ps, x.hasSign c = false)
    (hsign' : ∀ x ∈ q :: qs, x.hasSign c = false) (h : joined c p ps = joined c q qs) :
    p = q ∧ ps = qs := by
  induction ps generalizing p q qs with
  | nil =>
    cases qs with
    | nil => exact ⟨h, rfl⟩
    | cons q' qs =>
      rw [joined, joined] at h
      have hhas := hasSign_followed (c := c) (q := joined c q' qs) (hq q List.mem_cons_self)
      rw [← h, hsign p List.mem_cons_self] at hhas
      cases hhas
  | cons p' ps ih =>
    have hclosed := hp p List.mem_cons_self
    cases qs with
    | nil =>
      rw [joined, joined] at h
      have hhas := hasSign_followed (c := c) (q := joined c p' ps) hclosed
      rw [h, hsign' q List.mem_cons_self] at hhas
      cases hhas
    | cons q' qs =>
      rw [joined, joined] at h
      obtain ⟨rfl, hrest⟩ := followed_inj hclosed (hq q List.mem_cons_self)
        (hsign p List.mem_cons_self) (hsign' q List.mem_cons_self) h
      obtain ⟨rfl, rfl⟩ := ih (fun x hx => hp x (List.mem_cons_of_mem _ hx))
        (fun x hx => hq x (List.mem_cons_of_mem _ hx))
        (fun x hx => hsign x (List.mem_cons_of_mem _ hx))
        (fun x hx => hsign' x (List.mem_cons_of_mem _ hx)) hrest
      exact ⟨rfl, rfl⟩

theorem hasSign_joined_of_ne (hne : c' ≠ c) {ps : List Phrase}
    (hsign : ∀ x ∈ p :: ps, x.hasSign c = false) : (joined c' p ps).hasSign c = false := by
  induction ps generalizing p with
  | nil => exact hsign p List.mem_cons_self
  | cons p' ps ih =>
    exact hasSign_followed_of_ne hne (hsign p List.mem_cons_self)
      (ih fun x hx => hsign x (List.mem_cons_of_mem _ hx))

end Phrase

end TypeLint.Types
