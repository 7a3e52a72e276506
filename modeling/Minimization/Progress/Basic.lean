import Minimization.Failure
import Minimization.Progress.Reason
import Minimization.Progress.Report

namespace Minimization

/-!
# The progress of a run

* `ProgressOn`, `Progress` — the current, previous and best values of a run, its iteration count and
  its reason for having stopped.  The bookkeeping never looks inside the points.
* `ProgressOn.update` — merges a report; a strictly lower cost makes a new best.
* `ProgressOn.setReason` — once a run has stopped, its reason stays.
-/

/-- The record of how far a run has come; `ρ` is the type of the points. -/
structure ProgressOn (ρ α : Type) where
  param : ρ
  prevParam : ρ
  bestParam : ρ
  prevBestParam : ρ
  cost : α
  prevCost : α
  bestCost : α
  prevBestCost : α
  gradient : Option (Tensor α)
  prevGradient : Option (Tensor α)
  hessian : Option (Tensor α)
  prevHessian : Option (Tensor α)
  /-- Iterations completed. -/
  iter : Nat
  /-- Iterations that were complete when the best cost was found. -/
  lastBestIter : Nat
  maxIters : Int
  reason : Reason
deriving Repr

/-- The record of a run on tensors. -/
abbrev Progress (α : Type) := ProgressOn (Tensor α) α

namespace ProgressOn

variable {ρ α : Type}

/-- The start of a run: no cost is known yet, which an infinite cost stands for. -/
def start [Scalar α] (param : ρ) (maxIters : Int) : ProgressOn ρ α where
  param := param
  prevParam := param
  bestParam := param
  prevBestParam := param
  cost := Scalar.infinity
  prevCost := Scalar.infinity
  bestCost := Scalar.infinity
  prevBestCost := Scalar.infinity
  gradient := none
  prevGradient := none
  hessian := none
  prevHessian := none
  iter := 0
  lastBestIter := 0
  maxIters := maxIters
  reason := .notTerminated

/-- Moves to a point. -/
def setParam (p : ProgressOn ρ α) (param : ρ) : ProgressOn ρ α :=
  { p with prevParam := p.param, param := param }

/-- Sets the current cost. -/
def setCost (p : ProgressOn ρ α) (cost : α) : ProgressOn ρ α :=
  { p with prevCost := p.cost, cost := cost }

/-- Sets the current gradient, or forgets it. -/
def setGradient (p : ProgressOn ρ α) (gradient : Option (Tensor α)) : ProgressOn ρ α :=
  { p with prevGradient := p.gradient, gradient := gradient }

/-- Sets the current Hessian, or forgets it. -/
def setHessian (p : ProgressOn ρ α) (hessian : Option (Tensor α)) : ProgressOn ρ α :=
  { p with prevHessian := p.hessian, hessian := hessian }

/-- The current gradient, which must have been computed. -/
def requireGradient (p : ProgressOn ρ α) : Except (Failure α) (Tensor α) :=
  match p.gradient with
  | some g => .ok g
  | none => .error (.impossible .gradientMissing)

/-- The current Hessian, which must have been computed. -/
def requireHessian (p : ProgressOn ρ α) : Except (Failure α) (Tensor α) :=
  match p.hessian with
  | some h => .ok h
  | none => .error (.impossible .hessianMissing)

/-- Takes over the parts that a report holds. -/
def merge (p : ProgressOn ρ α) (r : ReportOn ρ α) : ProgressOn ρ α :=
  let p := match r.param with
    | some x => p.setParam x
    | none => p
  let p := match r.cost with
    | some c => p.setCost c
    | none => p
  let p := match r.gradient with
    | some g => p.setGradient (some g)
    | none => p
  match r.hessian with
  | some h => p.setHessian (some h)
  | none => p

/-- The current point becomes the best one. -/
def promote (p : ProgressOn ρ α) : ProgressOn ρ α :=
  { p with
    prevBestParam := p.bestParam
    prevBestCost := p.bestCost
    bestParam := p.param
    bestCost := p.cost
    lastBestIter := p.iter }

/-- Merges a report and tells whether its cost is a new best. -/
def update [Scalar α] (p : ProgressOn ρ α) (r : ReportOn ρ α) : ProgressOn ρ α × Bool :=
  let p := p.merge r
  if r.cost.isSome && Scalar.lt p.cost p.bestCost then (p.promote, true) else (p, false)

/-- Counts an iteration. -/
def increment (p : ProgressOn ρ α) : ProgressOn ρ α := { p with iter := p.iter + 1 }

/-- The run has stopped. -/
def isTerminated (p : ProgressOn ρ α) : Bool := p.reason.isTerminal

/-- Stops the run for a reason; a run that has stopped keeps its reason. -/
def setReason (p : ProgressOn ρ α) (reason : Reason) : Except (Failure α) (ProgressOn ρ α) :=
  if p.isTerminated && reason != p.reason then
    .error (.impossible (.alreadyTerminated p.reason.name))
  else .ok { p with reason := reason }

/-! ### What a merge leaves alone -/

/-- The count of iterations stays. -/
@[simp] theorem iter_merge (p : ProgressOn ρ α) (r : ReportOn ρ α) :
    (p.merge r).iter = p.iter := by
  rcases r with ⟨_ | _, _ | _, _ | _, _ | _, _⟩ <;> rfl

/-- So does the cap. -/
@[simp] theorem maxIters_merge (p : ProgressOn ρ α) (r : ReportOn ρ α) :
    (p.merge r).maxIters = p.maxIters := by
  rcases r with ⟨_ | _, _ | _, _ | _, _ | _, _⟩ <;> rfl

/-- A merge does not stop the run. -/
@[simp] theorem reason_merge (p : ProgressOn ρ α) (r : ReportOn ρ α) :
    (p.merge r).reason = p.reason := by
  rcases r with ⟨_ | _, _ | _, _ | _, _ | _, _⟩ <;> rfl

/-- A new best does not change the count of iterations, either. -/
@[simp] theorem iter_update [Scalar α] (p : ProgressOn ρ α) (r : ReportOn ρ α) :
    (p.update r).1.iter = p.iter := by
  unfold update
  dsimp only
  split <;> simp [promote]

/-- Nor does it change the cap. -/
@[simp] theorem maxIters_update [Scalar α] (p : ProgressOn ρ α) (r : ReportOn ρ α) :
    (p.update r).1.maxIters = p.maxIters := by
  unfold update
  dsimp only
  split <;> simp [promote]

/-- Nor does it stop the run. -/
@[simp] theorem reason_update [Scalar α] (p : ProgressOn ρ α) (r : ReportOn ρ α) :
    (p.update r).1.reason = p.reason := by
  unfold update
  dsimp only
  split <;> simp [promote]

/-- A gradient that is known is never forgotten. -/
theorem isSome_gradient_update [Scalar α] {p : ProgressOn ρ α} (h : p.gradient.isSome)
    (r : ReportOn ρ α) : (p.update r).1.gradient.isSome := by
  have hmerge : (p.merge r).gradient.isSome := by
    rcases r with ⟨_ | _, _ | _, _ | _, _ | _, _⟩ <;> first | exact h | rfl
  unfold update
  dsimp only
  split
  · exact hmerge
  · exact hmerge

/-- A Hessian that is known is never forgotten. -/
theorem isSome_hessian_update [Scalar α] {p : ProgressOn ρ α} (h : p.hessian.isSome)
    (r : ReportOn ρ α) : (p.update r).1.hessian.isSome := by
  have hmerge : (p.merge r).hessian.isSome := by
    rcases r with ⟨_ | _, _ | _, _ | _, _ | _, _⟩ <;> first | exact h | rfl
  unfold update
  dsimp only
  split
  · exact hmerge
  · exact hmerge

/-- An increment counts one iteration. -/
@[simp] theorem iter_increment (p : ProgressOn ρ α) : p.increment.iter = p.iter + 1 := rfl

/-- It keeps the cap. -/
@[simp] theorem maxIters_increment (p : ProgressOn ρ α) : p.increment.maxIters = p.maxIters := rfl

/-- It does not stop the run. -/
@[simp] theorem reason_increment (p : ProgressOn ρ α) : p.increment.reason = p.reason := rfl

/-- Without a reason to stop the run is not over. -/
theorem isTerminated_of_running {p : ProgressOn ρ α} (h : p.reason = .notTerminated) :
    p.isTerminated = false :=
  (Reason.isTerminal_eq_false_iff p.reason).2 h

/-- With any reason it is. -/
theorem isTerminated_of_stopped {p : ProgressOn ρ α} (h : ¬ p.reason = .notTerminated) :
    p.isTerminated = true := by
  rw [← Reason.isTerminal_eq_false_iff, Bool.not_eq_false] at h
  exact h

/-- A run that has not stopped can be stopped for any reason. -/
theorem setReason_of_running {p : ProgressOn ρ α} (h : p.reason = .notTerminated)
    (reason : Reason) : p.setReason reason = .ok { p with reason := reason } := by
  simp [setReason, isTerminated, h, Reason.isTerminal]

/-- Stopping changes the reason and nothing else. -/
theorem eq_of_setReason {p q : ProgressOn ρ α} {reason : Reason}
    (h : p.setReason reason = .ok q) : q = { p with reason := reason } := by
  unfold setReason at h
  split at h
  · simp at h
  · exact (Except.ok.inj h).symm

/-- A summary in one line. -/
def text [Scalar α] (p : ProgressOn ρ α) : String :=
  "IterState(iter=" ++ toString p.iter ++ ", cost=" ++ Scalar.shortest p.cost ++ ", best_cost=" ++
    Scalar.shortest p.bestCost ++ ", termination_reason=" ++ p.reason.name ++ ")"

end ProgressOn

end Minimization
