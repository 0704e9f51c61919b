import Mathlib
import TypeLint.Text.Units

namespace TypeLint.Text

/-- The UTF-16 units of a text. -/
def utf16 (text : String) : List Nat := text.toList.flatMap units

/-- A character is one unit that is no surrogate, or two surrogates that it can be told from. -/
theorem units_cases (c : Char) :
    (units c = [c.toNat] ∧ (c.toNat < 0xD800 ∨ 0xDFFF < c.toNat)) ∨
      ∃ high low, units c = [high, low] ∧ 0xD800 ≤ high ∧ high ≤ 0xDBFF ∧
        c.toNat = 0x10000 + (high - 0xD800) * 0x400 + (low - 0xDC00) := by
  have hvalid : c.toNat < 0xD800 ∨ 0xDFFF < c.toNat ∧ c.toNat < 0x110000 := c.valid
  rw [units]
  split_ifs with hbasic
  · exact .inl ⟨rfl, by omega⟩
  · exact .inr ⟨_, _, rfl, by omega, by omega, by omega⟩

theorem units_ne_nil (c : Char) : units c ≠ [] := by
  rcases units_cases c with ⟨h, -⟩ | ⟨_, _, h, -⟩ <;>
  · rw [h]
    exact List.cons_ne_nil _ _

/-- The first character can be read off units. -/
theorem units_append_inj {c d : Char} {cs ds : List Nat} (h : units c ++ cs = units d ++ ds) :
    c = d ∧ cs = ds := by
  rcases units_cases c with ⟨hc, hplain⟩ | ⟨high, low, hc, hlow, hhigh, hcode⟩ <;>
  rcases units_cases d with ⟨hd, hplain'⟩ | ⟨high', low', hd, hlow', hhigh', hcode'⟩ <;>
  rw [hc, hd] at h
  · obtain ⟨heq, hrest⟩ := List.cons.inj h
    exact ⟨Char.toNat_inj.mp heq, hrest⟩
  · have := (List.cons.inj h).1
    omega
  · have := (List.cons.inj h).1
    omega
  · obtain ⟨hfirst, h⟩ := List.cons.inj h
    obtain ⟨hsecond, hrest⟩ := List.cons.inj h
    exact ⟨Char.toNat_inj.mp (by rw [hcode, hcode', hfirst, hsecond]), hrest⟩

theorem flatMap_units_injective : Function.Injective (List.flatMap units) := by
  intro cs ds h
  induction cs generalizing ds with
  | nil =>
    cases ds with
    | nil => rfl
    | cons d ds => exact absurd (List.append_eq_nil_iff.mp h.symm).1 (units_ne_nil d)
  | cons c cs ih =>
    cases ds with
    | nil => exact absurd (List.append_eq_nil_iff.mp h).1 (units_ne_nil c)
    | cons d ds =>
      obtain ⟨rfl, hrest⟩ := units_append_inj h
      rw [ih hrest]

theorem utf16_injective : Function.Injective utf16 := fun _ _ h =>
  String.toList_injective (flatMap_units_injective h)

/-- Lists are compared in their lexicographic order. -/
theorem compareLists_compares (as bs : List Nat) : (compareLists as bs).Compares as bs := by
  induction as generalizing bs with
  | nil =>
    cases bs with
    | nil => rfl
    | cons b bs => exact List.nil_lt_cons b bs
  | cons a as ih =>
    cases bs with
    | nil => exact List.nil_lt_cons a as
    | cons b bs =>
      rw [compareLists]
      split_ifs with hlt hgt
      · exact List.cons_lt_cons_iff.mpr (.inl hlt)
      · exact List.cons_lt_cons_iff.mpr (.inl hgt)
      · obtain rfl : a = b := by omega
        have hrest := ih bs
        cases horder : compareLists as bs with
        | lt => exact List.cons_lt_cons_iff.mpr (.inr ⟨rfl, hrest.eq_lt.mp horder⟩)
        | eq => exact congrArg (a :: ·) (hrest.eq_eq.mp horder)
        | gt => exact List.cons_lt_cons_iff.mpr (.inr ⟨rfl, hrest.eq_gt.mp horder⟩)

theorem compareUnits_compares (a b : String) :
    (compareUnits a b).Compares (utf16 a) (utf16 b) := compareLists_compares _ _

end TypeLint.Text
