namespace TypeLint

/-- How code ends without a result. -/
inductive Crash where
  /-- It panics: a text is cut inside of a character, or an offset falls below zero. -/
  | panic
  /-- It goes on for ever: a loop or a recursion comes round in a circle. -/
  | endless
  deriving DecidableEq, Repr

/-- The result of code that may crash. -/
abbrev Result : Type → Type := Except Crash

theorem Result.bind_eq_ok_iff {α β : Type} {result : Result α} {next : α → Result β} {b : β} :
    result >>= next = .ok b ↔ ∃ a, result = .ok a ∧ next a = .ok b := by
  cases result with
  | error c => exact ⟨nofun, fun ⟨a, ha, _⟩ => nomatch ha⟩
  | ok a => exact ⟨fun h => ⟨a, rfl, h⟩, fun ⟨a', ha', h⟩ => by cases ha'; exact h⟩

end TypeLint
