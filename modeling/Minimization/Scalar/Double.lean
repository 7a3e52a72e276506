import Minimization.Scalar.Basic
import Minimization.Numeral.Style

namespace Minimization

/-!
# Doubles as scalars

* `Double` — a double that keeps its sign even where it is not a number.
* `Double.bits` — the bit pattern.
* `instScalarDouble` — IEEE double arithmetic.  The square is the power function with exponent two.

An operation without a meaningful result yields a negative value that is not a number; an operand
that is not a number is handed on, the first one if there are two.
-/

/-- A double.  The sign counts where the value is not a number. -/
structure Double where
  value : Float
  negative : Bool
deriving Repr

namespace Double

/-- A double; a value that is not a number is positive. -/
def ofFloat (x : Float) : Double := ⟨x, false⟩

/-- The result of an operation on two numbers. -/
def combine (f : Float → Float → Float) (x y : Double) : Double :=
  let z := f x.value y.value
  if x.value.isNaN then ⟨z, x.negative⟩
  else if y.value.isNaN then ⟨z, y.negative⟩
  else ⟨z, z.isNaN⟩

/-- The result of an operation on one number. -/
def apply (f : Float → Float) (x : Double) : Double :=
  let z := f x.value
  ⟨z, if x.value.isNaN then x.negative else z.isNaN⟩

/-- The bit pattern: sign, biased exponent, fraction. -/
def bits (x : Double) : Nat :=
  if x.value.isNaN then (if x.negative then 0xfff8000000000000 else 0x7ff8000000000000)
  else x.value.toBits.toNat

end Double

/-- Double precision with the sign of a NaN. -/
instance instScalarDouble : Scalar Double where
  add := .combine (· + ·)
  sub := .combine (· - ·)
  mul := .combine (· * ·)
  div := .combine (· / ·)
  neg x := ⟨-x.value, x.value.isNaN && !x.negative⟩
  ofScientific m s e := .ofFloat (OfScientific.ofScientific m s e)
  lt x y := x.value < y.value
  le x y := x.value ≤ y.value
  eq x y := x.value == y.value
  abs x := ⟨x.value.abs, false⟩
  sqrt := .apply Float.sqrt
  exp := .apply Float.exp
  square := .apply fun x => Float.pow x 2.0
  isNaN x := x.value.isNaN
  isInfinite x := x.value.isInf
  infinity := .ofFloat (1.0 / 0.0)
  notANumber := .ofFloat (0.0 / 0.0)
  shortest x := shortestText x.value
  scientific places x := scientificText places x.value

end Minimization
