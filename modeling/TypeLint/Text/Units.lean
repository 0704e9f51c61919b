namespace TypeLint.Text

/-- The UTF-16 units of a character. -/
def units (c : Char) : List Nat :=
  if c.toNat < 0x10000 then [c.toNat]
  else [0xD800 + (c.toNat - 0x10000) / 0x400, 0xDC00 + (c.toNat - 0x10000) % 0x400]

/-- The order of two lists of numbers by the first place where they differ; a list that is
    continued by another comes before it. -/
def compareLists : List Nat → List Nat → Ordering
  | [], [] => .eq
  | [], _ :: _ => .lt
  | _ :: _, [] => .gt
  | a :: as, b :: bs => if a < b then .lt else if b < a then .gt else compareLists as bs

/-- The order of two texts by their UTF-16 units. -/
def compareUnits (a b : String) : Ordering :=
  compareLists (a.toList.flatMap units) (b.toList.flatMap units)

end TypeLint.Text
