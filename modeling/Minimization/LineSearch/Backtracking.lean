import Minimization.LineSearch.Line

namespace Minimization

/-!
# Backtracking

* `Backtracking` — shrinks the step length by a factor until the cost decreases sufficiently.
* `Backtracking.sufficient` — the cost lies on or below the line through the start whose slope is a
  fixed fraction of the slope there.
* `Backtracking.solver` — one trial per iteration.
-/

/-- A backtracking line search. -/
structure Backtracking (α : Type) where
  line : Line α
  /-- The fraction of the slope that the decrease must reach. -/
  decrease : α
  /-- The factor between one step length and the next. -/
  shrink : α
  /-- The next step length to try. -/
  step : α

namespace Backtracking

variable {ω α : Type} [Scalar α]

/-- A search with checked constants. -/
def make (decrease shrink : α) (maxTrials : Int) : Except (Failure α) (Backtracking α) := do
  if !(Scalar.lt 0.0 decrease && Scalar.lt decrease 1.0) then
    throw (.invalid .decreaseConstant)
  if !(Scalar.lt 0.0 shrink && Scalar.lt shrink 1.0) then
    throw (.invalid .shrinkFactor)
  let line ← Line.make maxTrials
  return ⟨line, decrease, shrink, line.initialStep⟩

/-- The name in log lines. -/
def name : String := "Backtracking line search"

/-- The settings in one line. -/
def text (s : Backtracking α) : String :=
  "BacktrackingLineSearch(c=" ++ Scalar.shortest s.decrease ++ ", rho=" ++
    Scalar.shortest s.shrink ++ ")"

/-- Works on the line. -/
def onLine {β : Type} (m : Action (Workspace (Line α) ω) α β) :
    Action (Workspace (Backtracking α) ω) α β :=
  Workspace.within (·.line) (fun l s => { s with line := l }) m

/-- The cost at a step length is low enough. -/
def sufficient (s : Backtracking α) (start : LineStart α) (step cost : α) : Bool :=
  Scalar.le cost (start.cost + s.decrease * step * start.slope)

/-- Tries the next step length. -/
def trial (setting : Setting ω α) : Action (Workspace (Backtracking α) ω) α (Report α) := do
  let s ← Workspace.readSolver
  -- The direction has length zero: the point stays.
  if s.line.done.isSome then return { notes := [("alpha", .number 0.0)] }
  let step := s.step
  let candidate ← Action.ofExcept (s.line.point step)
  let cost ← Workspace.onSession (Session.cost setting.operator candidate)
  Workspace.modifySolver fun s => { s with line := s.line.countTrial }
  let start ← Action.ofExcept s.line.requireStart
  if s.sufficient start step cost then
    Workspace.modifySolver fun s => { s with line := s.line.finish .lineSearchCondition }
  else
    Workspace.modifySolver fun s => { s with step := step * s.shrink }
  return { param := some candidate, cost := some cost, notes := [("alpha", .number step)] }

/-- Backtracking as a solver. -/
def solver : Solver (Backtracking α) ω α where
  name _ := name
  text := text
  init setting p := do
    let report ← onLine (Line.begin name setting p)
    Workspace.modifySolver fun s => { s with step := s.line.initialStep }
    return some report
  step setting _ := trial setting
  terminate _ := do return (← Workspace.readSolver).line.reason

end Backtracking

end Minimization
