import Minimization.Backend.Operations
import Minimization.Scalar.Double

namespace Minimization

/-!
# Whole numbers and doubles in arrays

An array holds entries of one kind, which depends on all of them.

* `Number` — a whole number of any size, or a double.
* `NumberKind` — machine words with or without sign, doubles, or numbers of any size.
* `NumberKind.join` — the kind of an array with entries of two kinds.
* `Number.add`, `Number.mul` — arithmetic, in which machine words wrap around.
-/

/-- A whole number or a double. -/
inductive Number where
  | whole (n : Int)
  | real (x : Double)
deriving Repr

/-- What the entries of an array are. -/
inductive NumberKind where
  | signed
  | unsigned
  | real
  /-- Whole numbers of any size, and doubles beside them. -/
  | exact
deriving Repr, DecidableEq

namespace NumberKind

/-- The count of different machine words. -/
def wordCount : Int := 18446744073709551616

/-- The kind of an array with entries of two kinds. -/
def join (k l : NumberKind) : NumberKind :=
  if k = .exact ∨ l = .exact then .exact else if k = l then k else .real

/-- A whole number as an entry of a kind holds it. -/
def wrap (k : NumberKind) (n : Int) : Int :=
  match k with
  | .signed => n.bmod wordCount.toNat
  | .unsigned => n % wordCount
  | _ => n

end NumberKind

namespace Number

/-- The smallest kind that holds a number. -/
def kind : Number → NumberKind
  | .whole n =>
    if -(NumberKind.wordCount / 2) ≤ n ∧ n < NumberKind.wordCount / 2 then .signed
    else if 0 ≤ n ∧ n < NumberKind.wordCount then .unsigned
    else .exact
  | .real _ => .real

/-- The kind of an array; without entries it is that of doubles. -/
def kindOf : List Number → NumberKind
  | [] => .real
  | x :: xs => xs.foldl (fun k y => k.join y.kind) x.kind

/-- The double next to a number; there is none if the number is too large. -/
def toReal : Number → Except (Failure Double) Double
  | .real x => .ok x
  | .whole n =>
    let x : Double := Scalar.ofInt n
    if Scalar.isInfinite x then .error .overflow else .ok x

/-- A number as an entry of a kind. -/
def toKind (k : NumberKind) (x : Number) : Except (Failure Double) Number :=
  match k with
  | .real => x.toReal.map .real
  | _ => .ok x

/-- An operation on two numbers: whole if both are. -/
def combine (onWhole : Int → Int → Int) (onReal : Double → Double → Double) (x y : Number) :
    Except (Failure Double) Number :=
  match x, y with
  | .whole m, .whole n => .ok (.whole (onWhole m n))
  | x, y => do return .real (onReal (← x.toReal) (← y.toReal))

/-- The sum of two numbers of a kind. -/
def add (k : NumberKind) : Number → Number → Except (Failure Double) Number :=
  combine (fun m n => k.wrap (m + n)) (· + ·)

/-- The product of two numbers of a kind. -/
def mul (k : NumberKind) : Number → Number → Except (Failure Double) Number :=
  combine (fun m n => k.wrap (m * n)) (· * ·)

/-- The sum of the products of corresponding numbers of a kind, from the left. -/
def inner (k : NumberKind) (xs ys : List Number) : Except (Failure Double) Number := do
  let products ← (xs.zip ys).mapM fun (x, y) => mul k x y
  match products with
  | [] => return .real 0.0
  | p :: ps => ps.foldlM (add k) p

end Number

end Minimization
