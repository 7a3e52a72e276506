import Minimization.Solver

namespace Minimization

/-!
# A solver driven by hand

Instead of a run, the caller decides when the solver is initialised, when it takes a step, and when
what it reported is merged.

* `Manual` — the memory of the solver, the session, the progress, and the report held for merging.
* `Manual.init`, `Manual.step` — let the solver work and hold what it reports.
* `Manual.merge`, `Manual.mergeHeld` — merge a report into the progress.
-/

/-- A solver driven by hand. -/
structure Manual (σ ω α : Type) where
  workspace : Workspace σ ω
  progress : Progress α
  held : Option (Report α) := none

namespace Manual

variable {σ ω α β : Type}

/-- Lets the solver act. -/
def onSolver (m : Action (Workspace σ ω) α β) : Action (Manual σ ω α) α β :=
  m.focus (·.workspace) fun w h => { h with workspace := w }

/-- Holds a report. -/
def hold (report : Option (Report α)) : Action (Manual σ ω α) α (Option (Report α)) := do
  modify fun h => { h with held := report }
  return report

/-- Initialises the solver; it may have nothing to report. -/
def init (S : Solver σ ω α) (setting : Setting ω α) :
    Action (Manual σ ω α) α (Option (Report α)) := do
  hold (← onSolver (S.init setting (← get).progress))

/-- Takes a step. -/
def step (S : Solver σ ω α) (setting : Setting ω α) :
    Action (Manual σ ω α) α (Option (Report α)) := do
  hold (some (← onSolver (S.step setting (← get).progress)))

/-- Merges a report; tells whether it is a new best. -/
def merge [Scalar α] (report : Report α) : Action (Manual σ ω α) α Bool :=
  .ofFun fun h =>
    let (p, isNewBest) := h.progress.update report
    (.ok isNewBest, { h with progress := p })

/-- Merges the report that is held, which there must be. -/
def mergeHeld [Scalar α] : Action (Manual σ ω α) α Bool := do
  match (← get).held with
  | some report => merge report
  | none => throw .noSuchSetting

/-- Counts an iteration. -/
def increment : Action (Manual σ ω α) α Unit :=
  modify fun h => { h with progress := h.progress.increment }

/-- The solver's own reason to stop. -/
def terminate (S : Solver σ ω α) : Action (Manual σ ω α) α Reason := do
  onSolver (S.terminate (← get).progress)

/-- The reason to stop: the solver's own, or else the cap on the iterations. -/
def terminateWithin (S : Solver σ ω α) : Action (Manual σ ω α) α Reason := do
  onSolver (S.terminateWithin (← get).progress)

/-- Changes the settings of the solver. -/
def adjust (change : σ → Except (Failure α) σ) : Action (Manual σ ω α) α Unit := do
  let h ← get
  let solver ← Action.ofExcept (change h.workspace.solver)
  set { h with workspace := { h.workspace with solver := solver } }

end Manual

end Minimization
