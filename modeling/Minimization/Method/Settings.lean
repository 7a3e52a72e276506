import Minimization.Method.Basic

namespace Minimization

/-!
# Methods from their settings

Every method is built from a few settings, most of which have a usual value.

* `SearchSettings.build` — a line search.
* `MethodSettings.build` — any method.  The settings of an inner solver are checked before those of
  the method around it.
-/

/-- The constants of a line search; what is absent has its usual value. -/
inductive SearchConstants (α : Type) where
  | backtracking (decrease shrink : Option α)
  | strongWolfe (decrease curvature : Option α)

/-- The settings of a line search; what is absent has its usual value. -/
structure SearchSettings (α : Type) where
  constants : SearchConstants α
  maxTrials : Option Int := none
  initialStep : Option α := none
  direction : Option (Tensor α) := none

namespace SearchSettings

variable {α : Type} [Scalar α]

/-- A search with checked constants. -/
def create (s : SearchSettings α) : Except (Failure α) (LineSearch α) :=
  match s.constants with
  | .backtracking decrease shrink => do
    return .backtracking
      (← Backtracking.make (decrease.getD 1e-4) (shrink.getD 0.5) (s.maxTrials.getD 50))
  | .strongWolfe decrease curvature => do
    return .strongWolfe
      (← StrongWolfe.make (decrease.getD 1e-4) (curvature.getD 0.9) (s.maxTrials.getD 72))

/-- The line search; the first step length is set before the direction. -/
def build (s : SearchSettings α) : Except (Failure α) (LineSearch α) := do
  let search ← s.create
  let search ← match s.initialStep with
    | some step => search.setInitialStep step
    | none => pure search
  match s.direction with
  | some direction => search.setDirection direction
  | none => return search

end SearchSettings

/-- The settings of a method; what is absent has its usual value. -/
inductive MethodSettings (α : Type) where
  | landweber (omega : α) (costing : Bool)
  | newton (gamma : Option α)
  | steepestDescent (inner : MethodSettings α)
  | quasiNewton (inverseHessian : Tensor α) (inner : MethodSettings α)
  | lineSearch (search : SearchSettings α)
  | dogleg (radius : Option α)
  | trustRegion (inner : MethodSettings α) (radius maxRadius acceptance : Option α)
  | script (s : Script α)

namespace MethodSettings

variable {α : Type} [Scalar α]

/-- A dogleg method whose radius may be set. -/
def doglegOf (radius : Option α) : Dogleg α := ⟨radius.getD Dogleg.unset.radius⟩

/-- The method. -/
def build : MethodSettings α → Except (Failure α) (Method α)
  | .landweber omega costing => .ok (.landweber ⟨omega, costing⟩)
  | .newton gamma => do return .newton (← Newton.make (gamma.getD 1.0))
  | .steepestDescent inner => do return .steepestDescent (← inner.build).asSearch
  | .quasiNewton inverseHessian inner => do
    return .quasiNewton ⟨inverseHessian, (← inner.build).asSearch⟩
  | .lineSearch search => do return .lineSearch (← search.build)
  | .dogleg radius => .ok (.dogleg (doglegOf radius))
  | .trustRegion inner radius maxRadius acceptance => do
    return .trustRegion (← TrustRegion.make (← inner.build).asSubproblem (radius.getD 1.0)
      (maxRadius.getD 100.0) (acceptance.getD 0.125))
  | .script s => .ok (.script s)

end MethodSettings

end Minimization
