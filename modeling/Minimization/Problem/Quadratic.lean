import Minimization.Operator.Basic
import Minimization.Tensor.Nested

namespace Minimization

/-!
# Quadratic functions

* `Quadratic` — the function `½ x·Ax - b·x + c`.
* `Quadratic.operator` — with gradient `Ax - b` and Hessian `A`.

The point is read as the list of its entries; a point with too few of them fails.  Rows of different
lengths make a function all the same, but no Hessian.
-/

/-- The function `½ x·Ax - b·x + c`. -/
structure Quadratic (α : Type) where
  rows : List (List α)
  linear : List α
  constant : α
  /-- The family of the gradient and the Hessian. -/
  backend : Backend

namespace Quadratic

variable {α : Type} [Scalar α]

/-- The inner product over the first list; the second one must be at least as long. -/
def inner (xs ys : List α) : Except (Failure α) α :=
  if xs.length ≤ ys.length then .ok (Scalar.inner xs ys) else .error .indexOutOfRange

/-- The product of the matrix with a point. -/
def image (q : Quadratic α) (x : List α) : Except (Failure α) (List α) := q.rows.mapM (inner · x)

/-- The function value. -/
def cost (q : Quadratic α) (x : Tensor α) : Except (Failure α) α := do
  let xs := x.entries
  let bend ← inner xs (← q.image xs)
  let slope ← inner q.linear xs
  return 0.5 * bend - slope + q.constant

/-- The gradient. -/
def gradient (q : Quadratic α) (x : Tensor α) : Except (Failure α) (Tensor α) := do
  let image ← q.image x.entries
  if image.length ≤ q.linear.length then
    return .vector q.backend (List.zipWith (· - ·) image q.linear)
  else throw .indexOutOfRange

/-- The function as an operator. -/
def operator {ω : Type} (q : Quadratic α) : Operator ω α where
  name := "Problem"
  cost? := some fun x => Action.ofExcept (q.cost x)
  gradient? := some fun x => Action.ofExcept (q.gradient x)
  hessian? := some fun _ => Action.ofExcept (Tensor.ofRows q.backend q.rows)

end Quadratic

end Minimization
