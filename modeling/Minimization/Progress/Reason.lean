namespace Minimization

/-!
# Why a run stops

* `Reason` — the reasons, one of which says that the run has not stopped.
* `Reason.name`, `Reason.text` — how a reason is listed and how it is told.
-/

/-- Why a run stopped, if it did. -/
inductive Reason where
  | notTerminated
  | maxIters
  | targetCost
  | targetPrecision
  | targetTolerance
  | noChangeInCost
  | lineSearchCondition
  | keyboardInterrupt
  | aborted
deriving Repr, DecidableEq, Inhabited

namespace Reason

/-- The reasons in the order in which they are listed. -/
def all : List Reason :=
  [.notTerminated, .maxIters, .targetCost, .targetPrecision, .targetTolerance, .noChangeInCost,
   .lineSearchCondition, .keyboardInterrupt, .aborted]

/-- The name a reason is listed under. -/
def name : Reason → String
  | .notTerminated => "NOT_TERMINATED"
  | .maxIters => "MAX_ITERS_REACHED"
  | .targetCost => "TARGET_COST_REACHED"
  | .targetPrecision => "TARGET_PRECISION_REACHED"
  | .targetTolerance => "TARGET_TOLERANCE_REACHED"
  | .noChangeInCost => "NO_CHANGE_IN_COST"
  | .lineSearchCondition => "LINE_SEARCH_CONDITION_MET"
  | .keyboardInterrupt => "KEYBOARD_INTERRUPT"
  | .aborted => "ABORTED"

/-- What a reason says. -/
def text : Reason → String
  | .notTerminated => "Not terminated"
  | .maxIters => "Maximum number of iterations reached"
  | .targetCost => "Target cost value reached"
  | .targetPrecision => "Target precision reached"
  | .targetTolerance => "Target tolerance reached"
  | .noChangeInCost => "No change in cost function value"
  | .lineSearchCondition => "Line search condition met"
  | .keyboardInterrupt => "Keyboard interrupt"
  | .aborted => "Optimization aborted"

/-- Every reason but one means that the run is over. -/
def isTerminal : Reason → Bool
  | .notTerminated => false
  | _ => true

/-- The reason listed under a name. -/
def ofName? (s : String) : Option Reason := all.find? (·.name == s)

/-- The reason that does not mean so. -/
@[simp] theorem isTerminal_eq_false_iff (r : Reason) :
    r.isTerminal = false ↔ r = .notTerminated := by
  cases r <;> simp [isTerminal]

end Reason

end Minimization
