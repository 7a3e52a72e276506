import Minimization.LineSearch.Line

namespace Minimization

/-!
# The strong Wolfe conditions

A step length is acceptable if the cost decreases sufficiently and the slope there is small enough.
The search doubles the step length until it has bracketed an acceptable one, and then halves the
bracket.

* `Bracket` — the best step length so far that decreases sufficiently, and the other end.
* `StrongWolfe.grow`, `StrongWolfe.zoom` — one trial in either phase.
* `StrongWolfe.report` — every iteration reports the lower end, so a rejected trial never shows.
-/

/-- The state of a search between two trials. -/
structure Bracket (α : Type) where
  /-- The bracket is closed and is being halved. -/
  closed : Bool
  /-- The next step length to try while the bracket grows. -/
  step : α
  /-- The best step length so far, with cost and gradient there. -/
  low : α
  lowCost : α
  lowGradient : Tensor α
  /-- The other end of the bracket. -/
  high : α

/-- A line search for the strong Wolfe conditions. -/
structure StrongWolfe (α : Type) where
  line : Line α
  /-- The fraction of the slope that the decrease must reach. -/
  decrease : α
  /-- The fraction of the slope that the slope must fall to. -/
  curvature : α
  bracket : Option (Bracket α)

/-- A bracket narrower than this is not halved further. -/
def bracketTolerance {α : Type} [Scalar α] : α := 1e-12

namespace StrongWolfe

variable {ω α : Type} [Scalar α]

/-- A search with checked constants. -/
def make (decrease curvature : α) (maxTrials : Int) : Except (Failure α) (StrongWolfe α) := do
  if !(Scalar.lt 0.0 decrease && Scalar.lt decrease curvature && Scalar.lt curvature 1.0) then
    throw (.invalid .wolfeConstants)
  return ⟨← Line.make maxTrials, decrease, curvature, none⟩

/-- The name in log lines. -/
def name : String := "Strong Wolfe line search"

/-- The settings in one line. -/
def text (s : StrongWolfe α) : String :=
  "StrongWolfeLineSearch(c1=" ++ Scalar.shortest s.decrease ++ ", c2=" ++
    Scalar.shortest s.curvature ++ ")"

/-- Works on the line. -/
def onLine {β : Type} (m : Action (Workspace (Line α) ω) α β) :
    Action (Workspace (StrongWolfe α) ω) α β :=
  Workspace.within (·.line) (fun l s => { s with line := l }) m

/-- The bracket, which exists once the search has begun. -/
def requireBracket (s : StrongWolfe α) : Except (Failure α) (Bracket α) :=
  match s.bracket with
  | some k => .ok k
  | none => .error .noSuchSetting

/-- Replaces the bracket. -/
def setBracket (k : Bracket α) : Action (Workspace (StrongWolfe α) ω) α Unit :=
  Workspace.modifySolver fun s => { s with bracket := some k }

/-- Ends the search. -/
def finish (reason : Reason) : Action (Workspace (StrongWolfe α) ω) α Unit :=
  Workspace.modifySolver fun s => { s with line := s.line.finish reason }

/-- The cost at a step length is low enough. -/
def sufficient (s : StrongWolfe α) (start : LineStart α) (step cost : α) : Bool :=
  Scalar.le cost (start.cost + s.decrease * step * start.slope)

/-- The slope is small enough. -/
def flat (s : StrongWolfe α) (start : LineStart α) (slope : α) : Bool :=
  Scalar.le (Scalar.abs slope) (-s.curvature * start.slope)

/-- Moves the lower end. -/
def Bracket.moveLow (k : Bracket α) (step cost : α) (gradient : Tensor α) : Bracket α :=
  { k with low := step, lowCost := cost, lowGradient := gradient }

/-- Reports the lower end. -/
def report (s : StrongWolfe α) : Except (Failure α) (Report α) := do
  let k ← s.requireBracket
  return {
    param := some (← s.line.point k.low)
    cost := some k.lowCost
    gradient := some k.lowGradient
    notes := [("alpha", .number k.low)] }

/-- Point and cost at a step length. -/
def probe (setting : Setting ω α) (step : α) :
    Action (Workspace (StrongWolfe α) ω) α (Tensor α × α) := do
  let candidate ← Action.ofExcept ((← Workspace.readSolver).line.point step)
  let cost ← Workspace.onSession (Session.cost setting.operator candidate)
  return (candidate, cost)

/-- Gradient at a point, and its slope along the line. -/
def slopeAt (setting : Setting ω α) (x : Tensor α) :
    Action (Workspace (StrongWolfe α) ω) α (Tensor α × α) := do
  let gradient ← Workspace.onSession (Session.gradient setting.operator x)
  return (gradient, ← Action.ofExcept ((← Workspace.readSolver).line.slopeOf gradient))

/-- One trial while the bracket grows. -/
def grow (setting : Setting ω α) (k : Bracket α) :
    Action (Workspace (StrongWolfe α) ω) α Unit := do
  let step := k.step
  let (candidate, cost) ← probe setting step
  let s ← Workspace.readSolver
  let start ← Action.ofExcept s.line.requireStart
  -- The step is too long: the search goes on between the lower end and it.
  if !s.sufficient start step cost || (Scalar.lt 0.0 k.low && Scalar.le k.lowCost cost) then
    setBracket { k with high := step, closed := true }
  else
    let (gradient, slope) ← slopeAt setting candidate
    if s.flat start slope then
      setBracket (Bracket.moveLow k step cost gradient)
      finish .lineSearchCondition
    else if Scalar.le 0.0 slope then
      -- The cost rises again here, so the ends change places.
      setBracket { Bracket.moveLow { k with high := k.low } step cost gradient with closed := true }
    else
      -- Still downhill.
      setBracket { Bracket.moveLow k step cost gradient with step := 2.0 * step }

/-- One trial in the middle of a closed bracket. -/
def zoom (setting : Setting ω α) (k : Bracket α) :
    Action (Workspace (StrongWolfe α) ω) α Unit := do
  let step := 0.5 * (k.low + k.high)
  let (candidate, cost) ← probe setting step
  let s ← Workspace.readSolver
  let start ← Action.ofExcept s.line.requireStart
  let narrow (k : Bracket α) : Action (Workspace (StrongWolfe α) ω) α Unit := do
    setBracket k
    if Scalar.lt (Scalar.abs (k.high - k.low)) bracketTolerance then finish .targetTolerance
  -- Too long, or no lower than the lower end: the upper end moves here.
  if !s.sufficient start step cost || Scalar.le k.lowCost cost then
    narrow { k with high := step }
  else
    let (gradient, slope) ← slopeAt setting candidate
    if s.flat start slope then
      setBracket (Bracket.moveLow k step cost gradient)
      finish .lineSearchCondition
    else
      -- The slope at the new lower end has to point to the other end.
      let high := if Scalar.le 0.0 (slope * (k.high - k.low)) then k.low else k.high
      narrow (Bracket.moveLow { k with high := high } step cost gradient)

/-- One iteration: a trial, unless the search is over, and the lower end. -/
def trial (setting : Setting ω α) : Action (Workspace (StrongWolfe α) ω) α (Report α) := do
  if (← Workspace.readSolver).line.done.isNone then
    Workspace.modifySolver fun s => { s with line := s.line.countTrial }
    let k ← Action.ofExcept (← Workspace.readSolver).requireBracket
    if k.closed then zoom setting k else grow setting k
  Action.ofExcept ((← Workspace.readSolver).report)

/-- The search as a solver. -/
def solver : Solver (StrongWolfe α) ω α where
  name _ := name
  text := text
  init setting p := do
    let report ← onLine (Line.begin name setting p)
    let s ← Workspace.readSolver
    let start ← Action.ofExcept s.line.requireStart
    setBracket ⟨false, s.line.initialStep, 0.0, start.cost, start.gradient, 0.0⟩
    return some report
  step setting _ := trial setting
  terminate _ := do return (← Workspace.readSolver).line.reason

end StrongWolfe

end Minimization
