import Minimization.LineSearch.Backtracking
import Minimization.LineSearch.StrongWolfe

namespace Minimization

/-!
# Line searches inside other methods

* `LineSearch` — one of the two line searches, or a solver that was put in the place of one.
* `LineSearch.run` — a nested run along a direction, whose evaluations are added to those of the
  outer wrapper once it has finished.
-/

/-- A line search. -/
inductive LineSearch (α : Type) where
  | backtracking (s : Backtracking α)
  | strongWolfe (s : StrongWolfe α)
  /-- Another solver, known by its text: it has no direction to search along. -/
  | unsuited (text : String)

namespace LineSearch

variable {ω α : Type} [Scalar α]

/-- Changes what all line searches keep. -/
def onLine (change : Line α → Except (Failure α) (Line α)) :
    LineSearch α → Except (Failure α) (LineSearch α)
  | .backtracking s => do return .backtracking { s with line := ← change s.line }
  | .strongWolfe s => do return .strongWolfe { s with line := ← change s.line }
  | .unsuited _ => .error .noSuchSetting

/-- Sets the direction, or takes it away. -/
def setDirection (direction : Option (Tensor α)) :
    LineSearch α → Except (Failure α) (LineSearch α) :=
  onLine fun l => .ok { l with direction := direction }

/-- Sets the first step length, which must be positive. -/
def setInitialStep (step : α) : LineSearch α → Except (Failure α) (LineSearch α) :=
  onLine (Line.setInitialStep step)

/-- The name in log lines. -/
def name : LineSearch α → String
  | .backtracking _ => Backtracking.name
  | .strongWolfe _ => StrongWolfe.name
  | .unsuited text => text

/-- The settings in one line. -/
def text : LineSearch α → String
  | .backtracking s => s.text
  | .strongWolfe s => s.text
  | .unsuited text => text

/-- Lets the search at hand act. -/
def dispatch {β : Type} (onBacktracking : Action (Workspace (Backtracking α) ω) α β)
    (onStrongWolfe : Action (Workspace (StrongWolfe α) ω) α β) :
    Action (Workspace (LineSearch α) ω) α β := do
  match ← Workspace.readSolver with
  | .backtracking s => Workspace.wrapping .backtracking s onBacktracking
  | .strongWolfe s => Workspace.wrapping .strongWolfe s onStrongWolfe
  | .unsuited _ => throw .noSuchSetting

/-- Either search as a solver. -/
def solver : Solver (LineSearch α) ω α where
  name := name
  text := text
  init setting p :=
    dispatch (Backtracking.solver.init setting p) (StrongWolfe.solver.init setting p)
  step setting p :=
    dispatch (Backtracking.solver.step setting p) (StrongWolfe.solver.step setting p)
  terminate p := dispatch (Backtracking.solver.terminate p) (StrongWolfe.solver.terminate p)

/-- Runs the search from a point along a direction and yields its final progress. -/
def run (setting : Setting ω α) (x : Tensor α) (direction : Option (Tensor α)) (cost : Option α)
    (gradient : Option (Tensor α)) : Action (Workspace (LineSearch α) ω) α (Progress α) := do
  let search ← Action.ofExcept ((← Workspace.readSolver).setDirection direction)
  Workspace.modifySolver fun _ => search
  Run.nested solver setting fun c => Run.seeded x c.maxIters cost gradient none

end LineSearch

end Minimization
