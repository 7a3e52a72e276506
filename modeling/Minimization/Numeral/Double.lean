import Minimization.Numeral.Decimal

namespace Minimization

/-!
# A double taken apart

* `DoubleParts` — the three kinds of double: not a number, infinite, and finite with its sign, its
  exact size and whether it is the least number of its binary exponent.
* `DoubleParts.ofFloat` — read off the bit pattern.  Both zeros are kept apart by their signs.
-/

/-- What a double holds. -/
inductive DoubleParts where
  | nan
  | infinite (negative : Bool)
  /-- A finite number; `least` says that the gap below it is half the gap above it. -/
  | finite (negative : Bool) (size : Magnitude) (least : Bool)
deriving Repr

/-- Reads the fields of the bit pattern: sign, biased exponent, fraction. -/
def DoubleParts.ofBits (bits : Nat) : DoubleParts :=
  let negative : Bool := bits / twoPow 63 % 2 == 1
  let biased : Nat := bits / twoPow 52 % twoPow 11
  let fraction : Nat := bits % twoPow 52
  if biased = 2047 then
    if fraction = 0 then .infinite negative else .nan
  else if biased = 0 then
    .finite negative ⟨fraction, -1074⟩ false
  else
    .finite negative ⟨fraction + twoPow 52, (biased : Int) - 1075⟩ (fraction == 0 && 1 < biased)

/-- What the double `x` holds. -/
def DoubleParts.ofFloat (x : Float) : DoubleParts := .ofBits x.toBits.toNat

end Minimization
