namespace Minimization

/-!
# The numbers that an optimiser computes with

* `Scalar` — arithmetic, comparisons and the three kinds of special value.  Every algorithm of the
  library is written once over this class; doubles are an instance, and any other number system
  with these operations may stand in for them.
* `Scalar.maxNumber`, `Scalar.least`, `Scalar.square?` — small derived operations that fix which
  operand wins and which squares fail.

Comparisons are `Bool` valued and false as soon as one side is not a number.
-/

/-- Numbers with inexact arithmetic, infinities and a value that is not a number. -/
class Scalar (α : Type) extends Add α, Sub α, Mul α, Div α, Neg α, OfScientific α where
  /-- The first number is strictly below the second. -/
  lt : α → α → Bool
  /-- The first number is below the second or equal to it. -/
  le : α → α → Bool
  /-- The two numbers are equal; both zeros are. -/
  eq : α → α → Bool
  abs : α → α
  sqrt : α → α
  exp : α → α
  /-- The second power. -/
  square : α → α
  isNaN : α → Bool
  isInfinite : α → Bool
  infinity : α
  notANumber : α
  /-- The shortest text that reads back. -/
  shortest : α → String
  /-- One digit before the point, the given count after it, and an exponent. -/
  scientific : Nat → α → String

namespace Scalar

variable {α : Type} [Scalar α]

/-- Neither infinite nor not a number. -/
def isFinite (x : α) : Bool := !isNaN x && !isInfinite x

/-- A whole number. -/
def ofNat (n : Nat) : α := OfScientific.ofScientific n false 0

/-- A whole number with its sign. -/
def ofInt (n : Int) : α := if n < 0 then -ofNat n.natAbs else ofNat n.natAbs

/-- The larger of two numbers; a side that is not a number loses. -/
def maxNumber (x y : α) : α := if le y x || isNaN y then x else y

/-- The first number unless the second is strictly below it. -/
def least (x y : α) : α := if lt y x then y else x

/-- The square of a finite number, if it does not overflow. -/
def square? (x : α) : Option α :=
  if isFinite x && isInfinite (square x) then none else some (square x)

/-- Sum from the left, starting at zero. -/
def sum (xs : List α) : α := xs.foldl (· + ·) 0.0

/-- Inner product of two lists, summed from the left, starting at zero. -/
def inner (xs ys : List α) : α := sum (List.zipWith (· * ·) xs ys)

end Scalar

end Minimization
