import Minimization.Operator.Basic

namespace Minimization

/-!
# The sphere function

* `sphere`, `sphereGradient` — the sum of the squares of all entries, and twice the point, which is
  a general array.
-/

variable {α : Type} [Scalar α]

/-- The sum of the squares of all entries. -/
def sphere (x : Tensor α) : α := Scalar.inner x.entries x.entries

/-- The gradient of the sphere function. -/
def sphereGradient (x : Tensor α) : Tensor α := (x.onBackend .array).map (2.0 * ·)

/-- The sphere function as an operator; it has no Hessian. -/
def sphereOperator {ω : Type} : Operator ω α where
  name := "Problem"
  cost? := some fun x => pure (sphere x)
  gradient? := some fun x => pure (sphereGradient x)

end Minimization
