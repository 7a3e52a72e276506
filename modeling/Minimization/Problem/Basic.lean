import Minimization.Problem.Differences
import Minimization.Problem.Formula
import Minimization.Problem.Quadratic
import Minimization.Problem.Rosenbrock
import Minimization.Problem.Sphere

namespace Minimization

/-!
# Problems

* `Problem` — the operators that the library can build from data.
* `Problem.operator` — the operator of a problem; it remembers how often formulas were called.
* `Operator.without` — an operator with capabilities taken away.
-/

/-- An operator given by data. -/
inductive Problem (α : Type) where
  | quadratic (q : Quadratic α)
  | formula (f : FormulaProblem α)
  | sphere
  | rosenbrock (a b : α)
  /-- The cost of another problem with derivatives by differences. -/
  | differences (inner : Problem α) (gradientStep hessianStep : α)
  /-- An operator without any capability. -/
  | base
  /-- The sum of all entries, without derivatives. -/
  | costOnly
  /-- Another problem without some of its capabilities. -/
  | without (inner : Problem α) (missing : List Capability)

/-- Takes capabilities away. -/
def Operator.without {ω α : Type} (op : Operator ω α) (missing : List Capability) :
    Operator ω α where
  name := op.name
  cost? := if missing.contains .cost then none else op.cost?
  gradient? := if missing.contains .gradient then none else op.gradient?
  hessian? := if missing.contains .hessian then none else op.hessian?
  jacobian? := if missing.contains .jacobian then none else op.jacobian?

namespace Problem

variable {α : Type} [Scalar α]

/-- The operator of a problem. -/
def operator : Problem α → Operator Counts α
  | .quadratic q => q.operator
  | .formula f => f.operator
  | .sphere => sphereOperator
  | .rosenbrock a b => Rosenbrock.operator a b
  | .differences inner gradientStep hessianStep =>
    Differences.operator inner.operator.cost gradientStep hessianStep
  | .base => { name := "Operator" }
  | .costOnly => { name := "CostOnly", cost? := some fun x => pure (Scalar.sum x.entries) }
  | .without inner missing => inner.operator.without missing

end Problem

end Minimization
