import Minimization.Numeral.Decimal

namespace Minimization

/-!
# Numbers to a count of places

* `Magnitude.fixedDigits` — positional digits with a count of places behind the point.
* `Magnitude.scientificDigits` — one digit, the places behind it, and an exponent.
* `Magnitude.generalDigits` — a count of digits, in the shorter of the two forms.

Each takes `point`, which keeps a point that no digit follows and zeros at the end.
-/

/-- A decimal exponent: a sign and at least two digits. -/
def exponentText (e : Int) : String :=
  let ds := Nat.toDigits 10 e.natAbs
  String.ofList ((if e < 0 then '-' else '+') :: (if ds.length < 2 then '0' :: ds else ds))

/-- Digits before and behind the point; without digits behind it there is a point on demand. -/
def joinParts (point : Bool) (whole part : List Char) : List Char :=
  if part.isEmpty && !point then whole else whole ++ '.' :: part

/-- Digits without the zeros at their end. -/
def trimDigits (ds : List Char) : List Char := (ds.reverse.dropWhile (· == '0')).reverse

namespace Magnitude

/-- The first `count` digits, and the exponent of the first one. -/
def leadingDigits (x : Magnitude) (count : Nat) : List Char × Int :=
  if x.mantissa = 0 then (List.replicate count '0', 0)
  else
    let d := x.toDigits count
    (d.digits, d.leadingExponent)

/-- Positional digits, `places` of them behind the point. -/
def fixedDigits (point : Bool) (places : Nat) (x : Magnitude) : List Char :=
  let (whole, part) := (x.toPlaces (-places)).split
  joinParts point whole part

/-- One digit before and `places` digits behind the point, and an exponent. -/
def scientificDigits (point : Bool) (places : Nat) (x : Magnitude) : List Char :=
  let (ds, e) := x.leadingDigits (places + 1)
  joinParts point (ds.take 1) (ds.drop 1) ++ 'e' :: (exponentText e).toList

/-- At most `count` digits, but at least one.  They are positional if the exponent of the first is
    at least `-4` and less than the count. -/
def generalDigits (point : Bool) (count : Nat) (x : Magnitude) : List Char :=
  let count := max count 1
  let (ds, e) := x.leadingDigits count
  let trimmed (part : List Char) : List Char := if point then part else trimDigits part
  if -4 ≤ e ∧ e < count then
    let (whole, part) := (x.toPlaces (e + 1 - count)).split
    joinParts point whole (trimmed part)
  else joinParts point (ds.take 1) (trimmed (ds.drop 1)) ++ 'e' :: (exponentText e).toList

end Magnitude

end Minimization
