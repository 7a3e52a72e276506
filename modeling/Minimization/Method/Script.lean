import Minimization.Solver

namespace Minimization

/-!
# Scripted solvers

A scripted solver computes nothing: it plays given scenes.  It stands in for an arbitrary solver.

* `Scene` — evaluations to make, counters to reset, a failure, and a report.
* `Script.solver` — plays one scene per iteration, the last one over and over.
-/

/-- What a scripted solver does at one point of a run. -/
structure Scene (α : Type) where
  /-- Evaluations at the current point, in order. -/
  evaluate : List Capability := []
  /-- Counters that are set back to zero. -/
  reset : List Capability := []
  failure : Option (Failure α) := none
  report : Report α := {}

/-- A solver that plays scenes. -/
structure Script (α : Type) where
  name : String
  scenes : List (Scene α)
  opening : Option (Scene α) := none
  /-- Reasons to stop, or failures, each with the iteration from which it holds; the first that
      holds counts. -/
  endings : List (Int × Except (Failure α) Reason) := []

namespace Script

variable {ω α : Type}

/-- Evaluates a capability and forgets the answer. -/
def evaluate (op : Operator ω α) (x : Tensor α) : Capability → Action (Session ω) α Unit
  | .cost => discard (Session.cost op x)
  | .gradient => discard (Session.gradient op x)
  | .hessian => discard (Session.hessian op x)
  | .jacobian => discard (Session.jacobian op x)

/-- Plays a scene. -/
def play (setting : Setting ω α) (x : Tensor α) (scene : Scene α) :
    Action (Session ω) α (Report α) := do
  scene.evaluate.forM (evaluate setting.operator x)
  modify fun s => { s with counts := scene.reset.foldl (fun c k => c.set 0 k) s.counts }
  match scene.failure with
  | some e => throw e
  | none => return scene.report

/-- The scene of an iteration. -/
def sceneAt (s : Script α) (iter : Nat) : Except (Failure α) (Scene α) :=
  match s.scenes[min iter (s.scenes.length - 1)]? with
  | some scene => .ok scene
  | none => .error .indexOutOfRange

/-- The reason to stop after an iteration. -/
def ending (s : Script α) (iter : Nat) : Except (Failure α) Reason :=
  match s.endings.find? fun (n, _) => n ≤ (iter : Int) with
  | some (_, reason) => reason
  | none => .ok .notTerminated

/-- The script as a solver. -/
def solver : Solver (Script α) ω α where
  name s := s.name
  text _ := "Script()"
  init setting p := do
    match (← Workspace.readSolver).opening with
    | some scene => return some (← Workspace.onSession (play setting p.param scene))
    | none => return none
  step setting p := do
    let scene ← Action.ofExcept ((← Workspace.readSolver).sceneAt p.iter)
    Workspace.onSession (play setting p.param scene)
  terminate p := do Action.ofExcept ((← Workspace.readSolver).ending p.iter)

end Script

end Minimization
