import Minimization.Failure
import Minimization.Scalar.Basic

namespace Minimization

/-!
# The configuration of a run

* `RunConfig` — the cap on the iterations, the target cost, and whether requests of the user to stop
  are noted down.
* `RunConfig.make` — checks the cap first and the target second.
* `RunConfig.override` — a configuration with some settings replaced, checked again.
-/

/-- The configuration of a run. -/
structure RunConfig (α : Type) where
  /-- No run has more iterations. -/
  maxIters : Nat
  /-- The run stops once the cost is at or below this value. -/
  targetCost : α
  /-- Requests of the user to stop end the run between two iterations. -/
  guarded : Bool
deriving Repr

/-- Settings that may replace those of a configuration. -/
structure RunOverrides (α : Type) where
  maxIters : Option Int := none
  targetCost : Option α := none
  guarded : Option Bool := none

namespace RunConfig

variable {α : Type} [Scalar α]

/-- The largest cap that fits a machine word, in force where no cap is given. -/
def defaultMaxIters : Nat := 9223372036854775807

/-- A checked configuration. -/
def make (maxIters : Int) (targetCost : α) (guarded : Bool) : Except (Failure α) (RunConfig α) :=
  if maxIters < 0 then .error (.invalid .negativeIterationCap)
  else if Scalar.isNaN targetCost then .error (.invalid .undefinedTargetCost)
  else .ok ⟨maxIters.toNat, targetCost, guarded⟩

/-- No effective cap, no target, guarded. -/
def standard : RunConfig α := ⟨defaultMaxIters, -Scalar.infinity, true⟩

/-- A configuration with some settings replaced. -/
def override (c : RunConfig α) (o : RunOverrides α) : Except (Failure α) (RunConfig α) :=
  make (o.maxIters.getD c.maxIters) (o.targetCost.getD c.targetCost) (o.guarded.getD c.guarded)

end RunConfig

end Minimization
