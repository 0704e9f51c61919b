import TypeLint.Decimal.Double

namespace TypeLint

/-- The number `digits * 10 ^ exponent`. -/
structure Decimal where
  digits : Nat
  exponent : Int
  deriving DecidableEq, Repr, Inhabited

namespace Decimal

/-- The number of digits of a natural number; 0 has one. -/
def digitCount (n : Nat) : Nat := (Nat.toDigits 10 n).length

/-- The interval of reals that round to a positive number, all over one denominator. -/
structure Interval where
  low : Nat
  value : Nat
  high : Nat
  den : Nat
  /-- The ends belong to the interval. -/
  closed : Bool
  deriving DecidableEq, Repr

/-- The interval of `mantissa * 2 ^ exponent`. Below a power of two the numbers stand twice as
    close, so the interval reaches half as far down. -/
def Interval.ofMantissa (mantissa : Nat) (exponent : Int) : Interval :=
  let up := Nat.pow 2 exponent.toNat
  let down := if mantissa = Nat.pow 2 52 && exponent > -1074 then 1 else 2
  ⟨(4 * mantissa - down) * up, 4 * mantissa * up, (4 * mantissa + 2) * up,
    4 * Nat.pow 2 (-exponent).toNat, mantissa % 2 == 0⟩

/-- The interval with every numerator multiplied by `k`. -/
def Interval.scale (i : Interval) (k : Nat) : Interval :=
  { i with low := i.low * k, value := i.value * k, high := i.high * k }

/-- The fraction over the interval's denominator lies in the interval. -/
def Interval.holds (i : Interval) (n : Nat) : Bool :=
  if i.closed then i.low ≤ n && n ≤ i.high else i.low < n && n < i.high

/-- The power of ten at the first digit of `n / d`, for positive `n` and `d`. -/
def leadingPower (n d : Nat) : Int :=
  if n ≥ d then (digitCount (n / d) : Int) - 1
  else -(digitCount ((d + n - 1) / n - 1) : Int)

/-- Which of two equally near neighbours is taken. -/
inductive Tie where
  | up
  | even
  deriving DecidableEq, Repr

/-- The multiple of `10 ^ power` in the interval that is nearest to its value, if there is one. -/
def onGrid? (tie : Tie) (i : Interval) (power : Int) : Option Nat :=
  let i := i.scale (Nat.pow 10 (-power).toNat)
  let unit := i.den * Nat.pow 10 power.toNat
  let below := i.value / unit
  let rest := i.value % unit
  let lowFits := i.holds (below * unit)
  let highFits := i.holds ((below + 1) * unit)
  if lowFits && highFits then
    if 2 * rest < unit then some below
    else if 2 * rest > unit then some (below + 1)
    else if tie = .up || below % 2 = 1 then some (below + 1)
    else some below
  else if lowFits then some below
  else if highFits then some (below + 1)
  else none

/-- Moves trailing zeros of the digits into the exponent; `fuel` bounds their number. -/
def trimZeros : Nat → Nat → Int → Decimal
  | 0, digits, exponent => ⟨digits, exponent⟩
  | fuel + 1, digits, exponent =>
    if digits % 10 = 0 then trimZeros fuel (digits / 10) (exponent + 1) else ⟨digits, exponent⟩

/-- Tries grids of growing fineness, beginning at a power of ten; 17 digits always suffice. -/
def searchGrids (tie : Tie) (i : Interval) : Nat → Int → Decimal
  | 0, power => ⟨i.value / i.den, power⟩
  | fuel + 1, power =>
    match onGrid? tie i power with
    | some digits => trimZeros 17 digits power
    | none => searchGrids tie i fuel (power - 1)

/-- The shortest decimal that reads back as `mantissa * 2 ^ exponent`, for a positive mantissa. -/
def shortest (tie : Tie) (mantissa : Nat) (exponent : Int) : Decimal :=
  let i := Interval.ofMantissa mantissa exponent
  searchGrids tie i 17 (leadingPower i.value i.den)

end Decimal

end TypeLint
