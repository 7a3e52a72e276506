namespace Minimization

/-!
# Decimal numbers and rounding to them

* `Magnitude` — a binary number `mantissa * 2 ^ exponent`, the exact size of a double.
* `Decimal` — a decimal number `coefficient * 10 ^ exponent`.
* `Magnitude.ofNat?` — the size of the double nearest to a whole number.
* `roundDiv` — a quotient rounded to the nearest whole number, a half going to the even one.
* `Magnitude.toPlaces`, `Magnitude.toDigits` — a magnitude rounded to a place of the decimal
  system or to a count of significant digits.  Both are exact: only whole numbers are divided.
-/

/-- The size `mantissa * 2 ^ exponent` of a finite double. -/
structure Magnitude where
  mantissa : Nat
  exponent : Int
deriving Repr, DecidableEq

/-- The decimal number `coefficient * 10 ^ exponent`. -/
structure Decimal where
  coefficient : Nat
  exponent : Int
deriving Repr, DecidableEq

/-- `num / den` rounded to the nearest whole number; a half goes to the even neighbour. -/
def roundDiv (num den : Nat) : Nat :=
  let q := num / den
  let twice := 2 * (num % den)
  if twice < den then q
  else if den < twice then q + 1
  else if q % 2 = 0 then q
  else q + 1

/-- Powers of two and of ten. -/
def twoPow (n : Nat) : Nat := Nat.pow 2 n
def tenPow (n : Nat) : Nat := Nat.pow 10 n

/-- The count of decimal digits of `n`; zero has one. -/
def digitCount (n : Nat) : Nat := (Nat.toDigits 10 n).length

namespace Magnitude

/-- The size of the double nearest to a whole number, of two the one with the even mantissa; there
    is none from the middle between the largest double and `2 ^ 1024` on. -/
def ofNat? (n : Nat) : Option Magnitude :=
  let shift := n.log2 - 52
  let mantissa := roundDiv n (twoPow shift)
  if mantissa * twoPow shift < twoPow 1024 then some ⟨mantissa, shift⟩ else none

/-- The magnitude divided by `10 ^ place`, as numerator and denominator. -/
def ratio (x : Magnitude) (place : Int) : Nat × Nat :=
  (x.mantissa * twoPow x.exponent.toNat * tenPow (-place).toNat,
   twoPow (-x.exponent).toNat * tenPow place.toNat)

/-- The exponent `e` of a non-zero magnitude with `10 ^ e ≤ x < 10 ^ (e + 1)`. -/
def decimalExponent (x : Magnitude) : Int :=
  let (num, den) := x.ratio 0
  if den ≤ num then (digitCount (num / den) : Int) - 1
  else
    let d := digitCount (den / num)
    if num * tenPow (d - 1) = den then 1 - (d : Int) else -(d : Int)

/-- The magnitude rounded to a multiple of `10 ^ place`. -/
def toPlaces (x : Magnitude) (place : Int) : Decimal :=
  let (num, den) := x.ratio place
  ⟨roundDiv num den, place⟩

/-- The magnitude rounded to `count` significant digits. -/
def toDigits (x : Magnitude) (count : Nat) : Decimal :=
  if x.mantissa = 0 then ⟨0, 1 - (count : Int)⟩
  else
    let place := x.decimalExponent - count + 1
    let r := x.toPlaces place
    -- Rounding up may carry into a new leading digit.
    if r.coefficient = tenPow count then ⟨tenPow (count - 1), place + 1⟩ else r

end Magnitude

namespace Decimal

/-- Removes up to `fuel` trailing zeros from the coefficient. -/
def trimZeros : Nat → Decimal → Decimal
  | 0, d => d
  | fuel + 1, d =>
    if d.coefficient ≠ 0 ∧ d.coefficient % 10 = 0 then
      trimZeros fuel ⟨d.coefficient / 10, d.exponent + 1⟩
    else d

/-- The same number with a coefficient that does not end in zero. -/
def trimmed (d : Decimal) : Decimal := trimZeros (digitCount d.coefficient) d

/-- The digits of the coefficient. -/
def digits (d : Decimal) : List Char := Nat.toDigits 10 d.coefficient

/-- The exponent of the leading digit. -/
def leadingExponent (d : Decimal) : Int := (d.digits.length : Int) - 1 + d.exponent

/-- Digits before and after the decimal point, in positional form. -/
def split (d : Decimal) : List Char × List Char :=
  let ds := d.digits
  if 0 ≤ d.exponent then
    (if d.coefficient = 0 then ['0'] else ds ++ List.replicate d.exponent.toNat '0', [])
  else
    let places := (-d.exponent).toNat
    let padded := List.replicate (places + 1 - ds.length) '0' ++ ds
    let whole := padded.length - places
    (padded.take whole, padded.drop whole)

end Decimal

end Minimization
