import TypeLint.Decimal.Shortest

namespace TypeLint.Decimal

/-- The digits of a natural number. -/
def digitText (n : Nat) : List Char := Nat.toDigits 10 n

/-- A number of zeros. -/
def zeros (n : Nat) : List Char := List.replicate n '0'

/-- The sign in front of a number. -/
def signText (negative : Bool) : List Char := if negative then ['-'] else []

/-- A decimal in positional notation. `fraction` is what an integer gets behind its last digit. -/
def positional (d : Decimal) (fraction : List Char) : List Char :=
  let digits := digitText d.digits
  if d.exponent ≥ 0 then digits ++ zeros d.exponent.toNat ++ fraction
  else
    let places := (-d.exponent).toNat
    if places < digits.length then
      digits.take (digits.length - places) ++ ['.'] ++ digits.drop (digits.length - places)
    else ['0', '.'] ++ zeros (places - digits.length) ++ digits

/-- A decimal as its first digit, the others behind a point, and a power of ten, which always has
    a sign. -/
def scientific (d : Decimal) : List Char :=
  let digits := digitText d.digits
  let power : Int := d.exponent + digits.length - 1
  let exponent := (if power < 0 then '-' else '+') :: digitText power.natAbs
  match digits with
  | [only] => only :: 'e' :: exponent
  | first :: rest => first :: '.' :: rest ++ 'e' :: exponent
  | [] => []

/-- A number in data files: at least one place behind the point, and an exponent from `10 ^ 16`
    upwards and below `10 ^ -5`. What is not finite has no notation there and is null. -/
def dataText (x : Double) : List Char :=
  match x.view with
  | .nan | .infinite _ => ['n', 'u', 'l', 'l']
  | .finite negative mantissa exponent =>
    signText negative ++
      if mantissa = 0 then ['0', '.', '0']
      else
        let d := shortest .even mantissa exponent
        let leading : Int := d.exponent + (digitText d.digits).length
        if -5 < leading && leading ≤ 16 then positional d ['.', '0'] else scientific d

end TypeLint.Decimal

namespace TypeLint.Double

open Decimal

/-- A number as a type shows it: the shortest digits in positional notation, never with an
    exponent, and no sign on zero. -/
def toText (x : Double) : String :=
  match x.view with
  | .nan => "NaN"
  | .infinite negative => if negative then "-Infinity" else "Infinity"
  | .finite negative mantissa exponent =>
    if mantissa = 0 then "0"
    else String.ofList (signText negative ++ positional (shortest .up mantissa exponent) [])

end TypeLint.Double
