import Minimization.Logbook.Basic
import Minimization.Observer.Mode
import Minimization.Progress.Basic

namespace Minimization

/-!
# Observers

An observer watches a run.  It keeps a memory of its own and may write to the loggers; it cannot
touch the run.

* `Observer` — what observers with memory `η` do.
* `Watch` — an observer's memory and its mode.
* `Watches.init`, `Watches.iteration` — show the start of a run and an iteration to those observers
  whose mode selects it, in the order in which they were added.
-/

/-- What an observer can touch. -/
structure Notebook (η : Type) where
  memory : η
  logbook : Logbook

/-- The conduct of observers with memory `η`. -/
structure Observer (η α : Type) where
  /-- Called once after a solver has been initialised. -/
  init : String → Notes α → Action (Notebook η) α Unit := fun _ _ => pure ()
  /-- Called after an iteration. -/
  iteration : Progress α → Notes α → Action (Notebook η) α Unit

/-- An observer's memory and its mode. -/
structure Watch (η : Type) where
  mode : ObserverMode
  memory : η

/-- The observers of a run, in the order in which they were added, and the loggers. -/
structure Watches (η : Type) where
  list : List (Watch η)
  logbook : Logbook

namespace Watches

variable {η α : Type}

/-- Calls the chosen observers, one after another, until one fails.  Each call may change the memory
    of its observer and the loggers. -/
def callEach (call : Action (Notebook η) α Unit) :
    List (Watch η × Bool) → Logbook → Except (Failure α) Unit × Watches η
  | [], b => (.ok (), ⟨[], b⟩)
  | (w, false) :: rest, b =>
    let (outcome, after) := callEach call rest b
    (outcome, ⟨w :: after.list, after.logbook⟩)
  | (w, true) :: rest, b =>
    match call.exec ⟨w.memory, b⟩ with
    | (.ok _, v) =>
      let (outcome, after) := callEach call rest v.logbook
      (outcome, ⟨{ w with memory := v.memory } :: after.list, after.logbook⟩)
    | (.error e, v) =>
      -- Those behind an observer that fails are not called.
      (.error e, ⟨{ w with memory := v.memory } :: rest.map (·.1), v.logbook⟩)

/-- Calls the chosen observers. -/
def callChosen (chosen : List Bool) (call : Action (Notebook η) α Unit) :
    Action (Watches η) α Unit :=
  .ofFun fun ws => callEach call (ws.list.zip chosen) ws.logbook

/-- Shows the start of a run to all observers that are not switched off. -/
def init (O : Observer η α) (name : String) (notes : Notes α) : Action (Watches η) α Unit := do
  let chosen := (← get).list.map fun w => w.mode.selection != .never
  callChosen chosen (O.init name notes)

/-- Shows an iteration to the observers whose mode selects it.  All modes are asked before the first
    observer is called. -/
def iteration (O : Observer η α) (p : Progress α) (notes : Notes α) (isNewBest : Bool) :
    Action (Watches η) α Unit := do
  let chosen ← Action.ofExcept
    ((← get).list.mapM fun w => w.mode.selects (p.iter : Int) isNewBest)
  callChosen chosen (O.iteration p notes)

end Watches

end Minimization
