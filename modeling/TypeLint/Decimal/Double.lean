namespace TypeLint

/-- A double-precision number by its bits. -/
structure Double where
  bits : UInt64
  deriving DecidableEq, Repr, Inhabited

namespace Double

/-- What the bits stand for. A finite number is `mantissa * 2 ^ exponent`. -/
inductive View where
  | nan
  | infinite (negative : Bool)
  | finite (negative : Bool) (mantissa : Nat) (exponent : Int)
  deriving DecidableEq, Repr

/-- The sign bit is set. -/
def isNegative (x : Double) : Bool := x.bits.toNat ≥ Nat.pow 2 63

/-- Sign, mantissa and exponent read off the bits. -/
def view (x : Double) : View :=
  let magnitude := x.bits.toNat % Nat.pow 2 63
  let fraction : Nat := magnitude % Nat.pow 2 52
  let biased : Nat := magnitude / Nat.pow 2 52
  if biased = 2047 then
    if fraction = 0 then .infinite x.isNegative else .nan
  else if biased = 0 then .finite x.isNegative fraction (-1074)
  else .finite x.isNegative (Nat.pow 2 52 + fraction) ((biased : Int) - 1075)

/-- The number with a sign and the 63 bits below it. -/
def ofMagnitude (negative : Bool) (magnitude : Nat) : Double :=
  ⟨UInt64.ofNat (magnitude + if negative then Nat.pow 2 63 else 0)⟩

/-- Zero with a sign. -/
def zero (negative : Bool) : Double := ofMagnitude negative 0

/-- Infinity with a sign. -/
def infinity (negative : Bool) : Double := ofMagnitude negative (2047 * Nat.pow 2 52)

/-- The not-a-number that readers of text produce, with a sign. -/
def nan (negative : Bool) : Double := ofMagnitude negative (4095 * Nat.pow 2 51)

/-- `n / d` rounded to an integer, a half to the even neighbour. -/
def roundQuotient (n d : Nat) : Nat :=
  let q := n / d
  let twice := 2 * (n % d)
  if twice > d || (twice == d && q % 2 == 1) then q + 1 else q

/-- The integer nearest to `num / den * 2 ^ (-e)`. -/
def scaled (num den : Nat) (e : Int) : Nat :=
  if e ≥ 0 then roundQuotient num (den * Nat.pow 2 e.toNat)
  else roundQuotient (num * Nat.pow 2 (-e).toNat) den

/-- The exponent of the last mantissa bit of a number near `num / den`: the mantissa has 53 bits
    unless the exponent is the least there is. -/
def unitExponent (num den : Nat) : Int :=
  let estimate : Int := (num.log2 : Int) - (den.log2 : Int)
  let below : Bool :=
    if estimate ≥ 0 then num < den * Nat.pow 2 estimate.toNat
    else num * Nat.pow 2 (-estimate).toNat < den
  max ((if below then estimate - 1 else estimate) - 52) (-1074)

/-- The number nearest to `num / den`, ties to the even one; beyond the largest finite number it
    is infinity. -/
def ofRatio (negative : Bool) (num den : Nat) : Double :=
  if num = 0 then zero negative
  else
    let e := unitExponent num den
    let mantissa := scaled num den e
    let magnitude :=
      if mantissa < Nat.pow 2 52 then mantissa
      else (e + 1075).toNat * Nat.pow 2 52 + (mantissa - Nat.pow 2 52)
    if magnitude ≥ 2047 * Nat.pow 2 52 then infinity negative else ofMagnitude negative magnitude

/-- The number nearest to a natural number. -/
def ofNat (n : Nat) : Double := ofRatio false n 1

/-- The number nearest to `digits * 10 ^ exponent`. Exponents far outside the range of doubles
    are decided without writing out the power. -/
def ofDecimal (negative : Bool) (digits : Nat) (exponent : Int) : Double :=
  if digits = 0 then zero negative
  else
    let leading : Int := exponent + (Nat.toDigits 10 digits).length
    if leading > 400 then infinity negative
    else if leading < -400 then zero negative
    else if exponent ≥ 0 then ofRatio negative (digits * Nat.pow 10 exponent.toNat) 1
    else ofRatio negative digits (Nat.pow 10 (-exponent).toNat)

/-- The magnitude of a finite number as a fraction. -/
def toRatio (x : Double) : Nat × Nat :=
  match x.view with
  | .finite _ mantissa exponent =>
    (mantissa * Nat.pow 2 exponent.toNat, Nat.pow 2 (-exponent).toNat)
  | _ => (0, 1)

/-- The rounded product of two finite numbers that are not negative. -/
def mul (x y : Double) : Double :=
  ofRatio false (x.toRatio.1 * y.toRatio.1) (x.toRatio.2 * y.toRatio.2)

/-- The rounded quotient of two finite numbers that are not negative. -/
def div (x y : Double) : Double :=
  ofRatio false (x.toRatio.1 * y.toRatio.2) (x.toRatio.2 * y.toRatio.1)

/-- The bits of an infinity. -/
def isInfinite (x : Double) : Bool :=
  match x.view with
  | .infinite _ => true
  | _ => false

/-- The number with the opposite sign bit. -/
def neg (x : Double) : Double :=
  ofMagnitude (!x.isNegative) (x.bits.toNat % Nat.pow 2 63)

/-- The bits of a not-a-number. -/
def isNaN (x : Double) : Bool := x.view == .nan

/-- Either of the two zeros. -/
def isZero (x : Double) : Bool := x.bits.toNat % Nat.pow 2 63 == 0

/-- An integer that grows with the number; the two zeros share one. -/
def orderKey (x : Double) : Int :=
  let magnitude : Int := (x.bits.toNat % Nat.pow 2 63 : Nat)
  if x.isNegative then -magnitude else magnitude

/-- The numeric order; a not-a-number is not ordered. -/
def compare? (x y : Double) : Option Ordering :=
  if x.isNaN || y.isNaN then none else some (compare x.orderKey y.orderKey)

/-- Numeric equality: the two zeros are equal, and a not-a-number equals nothing. -/
def numericEq (x y : Double) : Bool := x.compare? y == some .eq

end Double

end TypeLint
