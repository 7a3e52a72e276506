import Mathlib.Algebra.Order.Field.Rat
import Minimization.Scalar.Basic

namespace Minimization

/-!
# Exact numbers as scalars

Over any ordered field there are scalars that compute without rounding.  Statements about exact
arithmetic are made over them, and over the rational numbers every run can be computed.

* `Roots` — the square roots and exponentials that a field has; the other ones are not numbers.
* `Exact` — the numbers of a field, two infinities, and a value that is not a number.
* `instScalarExact` — the rules of doubles, without rounding and with one zero only.
-/

/-- The square roots and exponentials that a field has. -/
class Roots (K : Type) where
  root? : K → Option K
  exp? : K → Option K
  text : K → String

/-- A number of a field, an infinity, or a value that is not a number. -/
inductive Exact (K : Type) where
  | finite (x : K)
  | infinite (negative : Bool)
  | notANumber
deriving DecidableEq

namespace Exact

variable {K : Type} [Field K] [LinearOrder K]

/-- The opposite. -/
def neg : Exact K → Exact K
  | finite x => finite (-x)
  | infinite s => infinite !s
  | notANumber => notANumber

/-- The sum; opposite infinities have none. -/
def add : Exact K → Exact K → Exact K
  | finite x, finite y => finite (x + y)
  | infinite s, infinite t => if s = t then infinite s else notANumber
  | infinite s, finite _ => infinite s
  | finite _, infinite t => infinite t
  | _, _ => notANumber

/-- The product; an infinity times zero has none. -/
def mul : Exact K → Exact K → Exact K
  | finite x, finite y => finite (x * y)
  | infinite s, infinite t => infinite (s != t)
  | infinite s, finite y => if y = 0 then notANumber else infinite (s != decide (y < 0))
  | finite x, infinite t => if x = 0 then notANumber else infinite (t != decide (x < 0))
  | _, _ => notANumber

/-- The quotient; by zero it is an infinity, unless zero is divided. -/
def div : Exact K → Exact K → Exact K
  | finite x, finite y =>
    if y = 0 then (if x = 0 then notANumber else infinite (decide (x < 0))) else finite (x / y)
  | infinite s, finite y => infinite (s != decide (y < 0))
  | finite _, infinite _ => finite 0
  | _, _ => notANumber

/-- Strictly below. -/
def lt : Exact K → Exact K → Bool
  | finite x, finite y => decide (x < y)
  | infinite s, infinite t => s && !t
  | infinite s, finite _ => s
  | finite _, infinite t => !t
  | _, _ => false

/-- The same number; nothing is the same as a value that is not a number. -/
def same : Exact K → Exact K → Bool
  | notANumber, _ => false
  | x, y => decide (x = y)

/-- The number that an operation yields, if it does. -/
def ofOption : Option K → Exact K
  | some x => finite x
  | none => notANumber

variable [Roots K]

/-- The square root. -/
def sqrt : Exact K → Exact K
  | finite x => ofOption (Roots.root? x)
  | infinite false => infinite false
  | _ => notANumber

/-- The exponential. -/
def exp : Exact K → Exact K
  | finite x => ofOption (Roots.exp? x)
  | infinite s => if s then finite 0 else infinite false
  | notANumber => notANumber

/-- The number in a text. -/
def text : Exact K → String
  | finite x => Roots.text x
  | infinite s => if s then "-inf" else "inf"
  | notANumber => "nan"

end Exact

instance instScalarExact {K : Type} [Field K] [LinearOrder K] [Roots K] : Scalar (Exact K) where
  add := .add
  sub x y := .add x (.neg y)
  mul := .mul
  div := .div
  neg := .neg
  ofScientific m s e := .finite (if s then (m : K) / 10 ^ e else (m : K) * 10 ^ e)
  lt := Exact.lt
  le x y := Exact.lt x y || Exact.same x y
  eq := Exact.same
  abs x := if Exact.lt x (.finite 0) then x.neg else x
  sqrt := .sqrt
  exp := .exp
  square x := .mul x x
  isNaN x := decide (x = .notANumber)
  isInfinite x := decide (x = .infinite false ∨ x = .infinite true)
  infinity := .infinite false
  notANumber := .notANumber
  shortest := Exact.text
  scientific _ := Exact.text

/-! ### Rational numbers -/

/-- The largest number whose square is at most `n`, given that it is `r` up to the last `bits`
    binary digits. -/
def floorRoot (n : Nat) : Nat → Nat → Nat
  | 0, r => r
  | bits + 1, r => floorRoot n bits (if (r + 2 ^ bits) * (r + 2 ^ bits) ≤ n then r + 2 ^ bits else r)

/-- The root of a natural number that is a square. -/
def squareRoot? (n : Nat) : Option Nat :=
  let r := floorRoot n (n.log2 / 2 + 1) 0
  if r * r = n then some r else none

/-- A root is a root. -/
theorem squareRoot?_spec {n r : Nat} (h : squareRoot? n = some r) : r * r = n := by
  unfold squareRoot? at h
  dsimp only at h
  split at h
  · next hr =>
    cases h
    exact hr
  · simp at h

instance : Roots ℚ where
  root? q :=
    if q < 0 then none
    else do
      let m ← squareRoot? q.num.natAbs
      let n ← squareRoot? q.den
      return (m : ℚ) / n
  -- The only rational number with a rational exponential.
  exp? q := if q = 0 then some 1 else none
  text q := toString q.num ++ "/" ++ toString q.den

end Minimization
