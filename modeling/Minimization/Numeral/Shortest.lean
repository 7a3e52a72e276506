import Minimization.Numeral.Double

namespace Minimization

/-!
# The shortest decimal that reads back

A decimal reads back to a double when it lies in the interval of reals that round to the double.
The interval ends halfway to the neighbouring doubles and holds its ends when the mantissa is even.

* `Magnitude.shortest` — the fewest digits such that a decimal with so many digits reads back; of
  two such decimals the nearer, of two equally near the one with the even last digit.
-/

/-- Coefficient of a multiple of `10 ^ place` that reads back to `x`, the nearest one if any.
    All four quantities are scaled by four, so that the ends of the interval are whole. -/
def Magnitude.hit? (x : Magnitude) (least : Bool) (place : Int) : Option Nat :=
  let (num, den) := x.ratio place
  let value := 4 * num
  let unit := twoPow x.exponent.toNat * tenPow (-place).toNat
  -- Half a gap to either side; below a power of two the gap is half as wide.
  let low := value - (if least then unit else 2 * unit)
  let high := value + 2 * unit
  let closed := x.mantissa % 2 = 0
  let within (d : Nat) : Bool :=
    let v := 4 * (d * den)
    if closed then low ≤ v && v ≤ high else low < v && v < high
  let d := num / den
  let twice := 2 * (num % den)
  let lowerNearer := twice < den || (twice == den && d % 2 == 0)
  match within d && d != 0, within (d + 1) with
  | true, true => some (if lowerNearer then d else d + 1)
  | true, false => some d
  | false, true => some (d + 1)
  | false, false => none

/-- The first count of digits from `count` on, at most `fuel` further ones, that has a decimal
    which reads back. -/
def Magnitude.shortestFrom (x : Magnitude) (least : Bool) (lead : Int) : Nat → Nat → Decimal
  | 0, count => x.toPlaces (lead - count + 1)
  | fuel + 1, count =>
    let place := lead - count + 1
    match x.hit? least place with
    | some d => ⟨d, place⟩
    | none => x.shortestFrom least lead fuel (count + 1)

/-- The shortest decimal that reads back to `x`; seventeen digits always do. -/
def Magnitude.shortest (x : Magnitude) (least : Bool) : Decimal :=
  if x.mantissa = 0 then ⟨0, 0⟩
  else (x.shortestFrom least x.decimalExponent 17 1).trimmed

end Minimization
