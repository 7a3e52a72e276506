import Minimization.Backend.Operations
import Minimization.Operator.Basic

namespace Minimization

/-!
# Linear least squares

* `LeastSquares` — the function `‖A x - y‖²`.
* `LeastSquares.operator` — with gradient `2 Aᵀ (A x - y)`.
* `LeastSquares.solution` — the minimiser, from the normal equations `AᵀA x = Aᵀy`.
-/

/-- The function `‖A x - y‖²`. -/
structure LeastSquares (α : Type) where
  matrix : Tensor α
  right : Tensor α

namespace LeastSquares

variable {α : Type} [Scalar α]

/-- The residual `A x - y`. -/
def residual (l : LeastSquares α) (x : Tensor α) : Except (Failure α) (Tensor α) := do
  Backend.sub (← Backend.apply l.matrix x) l.right

/-- The function value. -/
def cost (l : LeastSquares α) (x : Tensor α) : Except (Failure α) α := do
  let r ← l.residual x
  Backend.array.dot r r

/-- The gradient. -/
def gradient (l : LeastSquares α) (x : Tensor α) : Except (Failure α) (Tensor α) := do
  Backend.apply (l.matrix.map (2.0 * ·)).transpose (← l.residual x)

/-- The function as an operator. -/
def operator {ω : Type} (l : LeastSquares α) : Operator ω α where
  name := "LeastSquares"
  cost? := some fun x => Action.ofExcept (l.cost x)
  gradient? := some fun x => Action.ofExcept (l.gradient x)

/-- The solution of the normal equations, which must not be singular. -/
def solution (l : LeastSquares α) : Except (Failure α) (Tensor α) := do
  let square ← Backend.apply l.matrix.transpose l.matrix
  let image ← Backend.apply l.matrix.transpose l.right
  match Tensor.solveRows square.rows (image.entries.map ([·])) with
  | .ok xs => return .vector .array xs.flatten
  | .error _ => throw .notAMatrix

end LeastSquares

end Minimization
