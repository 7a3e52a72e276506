import Minimization.Run.Basic

namespace Minimization

/-!
# Searching along a line

A line search looks for a step length along a fixed direction, starting at the point of the run it
belongs to.

* `Line` — the direction, the first step length, the trials so far, and the start of the line.
* `Line.begin` — evaluates cost and gradient at the start, or takes over what is known there, and
  makes sure that the direction leads downhill.  A direction of length zero ends the search at once.
* `Line.point` — the point at a step length; `Line.slopeOf` — the slope that a gradient has there.
-/

/-- Where a line starts. -/
structure LineStart (α : Type) where
  origin : Tensor α
  cost : α
  gradient : Tensor α
  /-- The derivative of the cost along the line. -/
  slope : α

/-- What every line search keeps. -/
structure Line (α : Type) where
  direction : Option (Tensor α)
  initialStep : α
  maxTrials : Nat
  trials : Nat
  done : Option Reason
  start : Option (LineStart α)

namespace Line

variable {ω α : Type} [Scalar α]

/-- A line search that has not started; at least one trial must be allowed. -/
def make (maxTrials : Int) : Except (Failure α) (Line α) :=
  if maxTrials < 1 then .error (.invalid .trialCap)
  else .ok ⟨none, 1.0, maxTrials.toNat, 0, none, none⟩

/-- Sets the first step length, which must be positive. -/
def setInitialStep (step : α) (l : Line α) : Except (Failure α) (Line α) :=
  if Scalar.lt 0.0 step then .ok { l with initialStep := step }
  else .error (.invalid .stepLength)

/-- The direction, which must have been set. -/
def requireDirection (name : String) (l : Line α) : Except (Failure α) (Tensor α) :=
  match l.direction with
  | some d => .ok d
  | none => .error (.impossible (.directionMissing name))

/-- The start, which is known once the search has begun. -/
def requireStart (l : Line α) : Except (Failure α) (LineStart α) :=
  match l.start with
  | some s => .ok s
  | none => .error .noSuchSetting

/-- The point at a step length.  An array whose direction was taken away leads nowhere: no entry of
the point is a number. -/
def point (l : Line α) (step : α) : Except (Failure α) (Tensor α) := do
  let s ← l.requireStart
  match l.direction, s.origin.backend with
  | some d, b => b.scaledAdd s.origin step d
  | none, .array => Backend.array.scaledAdd s.origin step (.scalar .array Scalar.notANumber)
  | none, .tensor => .error .notANumber

/-- The derivative of the cost along the line where the gradient is known. -/
def slopeOf (l : Line α) (gradient : Tensor α) : Except (Failure α) α := do
  let s ← l.requireStart
  match l.direction, s.origin.backend with
  | some d, b => b.dot gradient d
  | none, .array => .error .notANumber
  | none, .tensor => .error .noSuchSetting

/-- Starts a search at the current point. -/
def begin (name : String) (setting : Setting ω α) (p : Progress α) :
    Action (Workspace (Line α) ω) α (Report α) := do
  let direction ← Action.ofExcept ((← Workspace.readSolver).requireDirection name)
  let x := p.param
  let cost ←
    -- An infinite cost stands for one that is not known yet.
    if Scalar.isInfinite p.cost then Workspace.onSession (Session.cost setting.operator x)
    else pure p.cost
  let gradient ← match p.gradient with
    | some g => pure g
    | none => Workspace.onSession (Session.gradient setting.operator x)
  let slope ← Action.ofExcept (x.backend.dot gradient direction)
  Workspace.modifySolver fun l =>
    { l with start := some ⟨x, cost, gradient, slope⟩, trials := 0, done := none }
  -- Along no direction nothing can be searched; a slope that is no number is refused.
  if Scalar.eq (← Action.ofExcept (x.backend.norm direction)) 0.0 then
    Workspace.modifySolver fun l => { l with done := some .lineSearchCondition }
  else if !Scalar.lt slope 0.0 then
    throw (.invalid .notDescent)
  return { param := some x, cost := some cost, gradient := some gradient }

/-- Counts a trial. -/
def countTrial (l : Line α) : Line α := { l with trials := l.trials + 1 }

/-- Ends the search for a reason. -/
def finish (reason : Reason) (l : Line α) : Line α := { l with done := some reason }

/-- The reason to stop: that of the search, or else the cap on the trials. -/
def reason (l : Line α) : Reason :=
  match l.done with
  | some r => r
  | none => if l.maxTrials ≤ l.trials then .maxIters else .notTerminated

end Line

end Minimization
