import Minimization.Numeral.Places
import Minimization.Numeral.Shortest

namespace Minimization

/-!
# The two written forms of a double

* `shortestText` — the shortest decimal that reads back, positional from `1e-4` up to below `1e16`
  with at least one digit after the point, otherwise with an exponent of at least two digits.
* `scientificText places` — one digit, the point, `places` digits and an exponent.
* `roundedText` — eight places, sizes below `1e-10` written as zero.
-/

/-- The texts of the values that are not finite. -/
def nonFiniteText (negative : Bool) : String := if negative then "-inf" else "inf"

/-- One digit, then a point and the rest if there is a rest, then the exponent. -/
def Decimal.exponentForm (d : Decimal) : String :=
  let mark := "e" ++ exponentText d.leadingExponent
  match d.digits with
  | [] => "0" ++ mark
  | [c] => String.ofList [c] ++ mark
  | c :: rest => String.ofList (c :: '.' :: rest) ++ mark

/-- Positional digits with at least one digit after the point. -/
def Decimal.positionalForm (d : Decimal) : String :=
  let (whole, part) := d.split
  String.ofList (whole ++ '.' :: (if part = [] then ['0'] else part))

/-- Positional form for sizes from `1e-4` up to below `1e16`, and for zero. -/
def Decimal.plainForm (d : Decimal) : String :=
  if d.coefficient = 0 then "0.0"
  else if -4 ≤ d.leadingExponent ∧ d.leadingExponent < 16 then d.positionalForm
  else d.exponentForm

/-- Puts the sign in front. -/
def signed (negative : Bool) (text : String) : String := if negative then "-" ++ text else text

/-- The shortest text that reads back to `x`. -/
def shortestText (x : Float) : String :=
  match DoubleParts.ofFloat x with
  | .nan => "nan"
  | .infinite negative => nonFiniteText negative
  | .finite negative size least => signed negative (size.shortest least).plainForm

/-- `x` with one digit before and `places` digits after the point. -/
def scientificText (places : Nat) (x : Float) : String :=
  match DoubleParts.ofFloat x with
  | .nan => "nan"
  | .infinite negative => nonFiniteText negative
  | .finite negative size _ =>
    signed negative (String.ofList (size.scientificDigits false places))

/-- Eight places; what is smaller than `1e-10` is written as zero without a sign. -/
def roundedText (x : Float) : String :=
  scientificText 8 (if x.abs < 1e-10 then 0.0 else x)

end Minimization
