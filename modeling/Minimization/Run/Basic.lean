import Minimization.Observer.Basic
import Minimization.Run.Config
import Minimization.Solver

namespace Minimization

/-!
# Runs

A run lets a solver iterate until a stopping rule fires.

* `Run` — all that changes in the course of a run.
* `Run.iterate` — one iteration: step, merge, checks, observers, stopping rules.
* `Run.iterations` — at most so many iterations.
* `Run.execute` — a whole run.  When it fails, the progress stays that of the last merge, and the
  interrupt is received as before the run.
* `Run.nested` — a run inside a step of another solver, on a wrapper of its own.
-/

/-- All that changes in the course of a run. -/
structure Run (σ ω η α : Type) where
  progress : Progress α
  solver : σ
  session : Session ω
  observers : List (Watch η)

/-- What a run is made of besides its state. -/
structure Plan (σ ω η α : Type) where
  solver : Solver σ ω α
  observer : Observer η α
  setting : Setting ω α
  config : RunConfig α

namespace Run

variable {σ ω η α β : Type}

/-! ### Parts of a run -/

/-- Lets the solver act. -/
def onSolver (m : Action (Workspace σ ω) α β) : Action (Run σ ω η α) α β :=
  m.focus (fun r => ⟨r.solver, r.session⟩) fun w r =>
    { r with solver := w.solver, session := w.session }

/-- Lets the session act. -/
def onSession (m : Action (Session ω) α β) : Action (Run σ ω η α) α β :=
  m.focus (·.session) fun s r => { r with session := s }

/-- Lets the observers act. -/
def onWatches (m : Action (Watches η) α β) : Action (Run σ ω η α) α β :=
  m.focus (fun r => ⟨r.observers, r.session.logbook⟩) fun ws r =>
    { r with observers := ws.list, session := { r.session with logbook := ws.logbook } }

/-- Merges a report; tells whether it is a new best. -/
def merge [Scalar α] (report : Report α) : Action (Run σ ω η α) α Bool :=
  .ofFun fun r =>
    let (p, isNewBest) := r.progress.update report
    (.ok isNewBest, { r with progress := p })

/-- Stops the run for a reason. -/
def stop (reason : Reason) : Action (Run σ ω η α) α Unit := do
  let p ← Action.ofExcept ((← get).progress.setReason reason)
  modify fun r => { r with progress := p }

/-- The user has asked a guarded run to stop. -/
def interruptRaised (config : RunConfig α) (r : Run σ ω η α) : Bool :=
  config.guarded && r.session.host.interrupt == .guarded true

/-! ### Iterations -/

/-- The checks of debug mode: the cost is a number, and no counter has gone down. -/
def check [Scalar α] (S : Solver σ ω α) (before : Counts) : Action (Run σ ω η α) α Unit := do
  let r ← get
  if Scalar.isNaN r.progress.cost then
    throw (.numerical (.undefinedCost (S.name r.solver) r.progress.iter))
  match Counts.decreased? before r.session.counts with
  | some capability => throw (.impossible (.counterDecreased capability))
  | none => pure ()

/-- The line that debug logging writes about an iteration. -/
def iterationLine [Scalar α] (name : String) (p : Progress α) : String :=
  name ++ ": iter " ++ toString p.iter ++ ", cost " ++ Scalar.scientific 6 p.cost ++
    ", best cost " ++ Scalar.scientific 6 p.bestCost

/-- The level of debug lines, of information and of errors. -/
def debugLevel : Int := 10
def infoLevel : Int := 20
def errorLevel : Int := 40

/-- The stopping rules in their order: the solver's own, the cap, the target cost. -/
def stoppingReason [Scalar α] (P : Plan σ ω η α) : Action (Run σ ω η α) α Reason := do
  let p := (← get).progress
  let reason ← onSolver (P.solver.terminateWithin p)
  if !reason.isTerminal && Scalar.le p.cost P.config.targetCost then return .targetCost
  else return reason

/-- One iteration. -/
def iterate [Scalar α] (P : Plan σ ω η α) : Action (Run σ ω η α) α Unit := do
  let before := (← get).session.counts
  let report ← onSolver (P.solver.step P.setting (← get).progress)
  let isNewBest ← merge report
  modify fun r => { r with progress := r.progress.increment }
  -- The checks come first, so that no observer is shown an iteration that fails them.
  if P.setting.debug then check P.solver before
  let r ← get
  onSession (Session.log debugLevel Logbook.runLogger fun _ =>
    iterationLine (P.solver.name r.solver) r.progress)
  onWatches (Watches.iteration P.observer r.progress report.notes isNewBest)
  let reason ← stoppingReason P
  if reason.isTerminal then stop reason

/-- Iterates until the run has stopped or the user has asked it to, at most `fuel` times. -/
def iterations [Scalar α] (P : Plan σ ω η α) : Nat → Action (Run σ ω η α) α Unit
  | 0 => pure ()
  | fuel + 1 => do
    let r ← get
    if r.progress.isTerminated then pure ()
    else if interruptRaised P.config r then stop .keyboardInterrupt
    else
      iterate P
      iterations P fuel

/-- The number of iterations after which the cap stops a run that has not stopped: those left, but
    one in any case, because the cap is looked at after an iteration. -/
def iterationsLeft (p : Progress α) : Nat := max 1 (p.maxIters - p.iter).toNat

/-- Initialises the solver, then iterates. -/
def body [Scalar α] (P : Plan σ ω η α) : Action (Run σ ω η α) α Unit := do
  let report? ← onSolver (P.solver.init P.setting (← get).progress)
  match report? with
  | some report => discard (merge report)
  | none => pure ()
  let notes := (report?.map (·.notes)).getD []
  onWatches (Watches.init P.observer (P.solver.name (← get).solver) notes)
  let p := (← get).progress
  if p.maxIters = 0 then stop .maxIters
  else iterations P (iterationsLeft p)

/-! ### Whole runs -/

/-- Changes how the interrupt is received. -/
def receive (interrupt : Interrupt) (r : Run σ ω η α) : Run σ ω η α :=
  { r with session := { r.session with host := { r.session.host with interrupt := interrupt } } }

/-- Runs with the interrupt noted down if the configuration says so; afterwards the interrupt is
    received as before. -/
def guarding (guarded : Bool) (m : Action (Run σ ω η α) α β) : Action (Run σ ω η α) α β :=
  if guarded then
    .ofFun fun r =>
      let (outcome, after) := m.exec (receive (.guarded false) r)
      (outcome, receive r.session.host.interrupt after)
  else m

/-- The lines that are logged about a run. -/
def startLine (name : String) (maxIters : Nat) : String :=
  name ++ ": starting run (max_iters=" ++ toString maxIters ++ ")"

def abortLine [Scalar α] (name : String) (iter : Nat) (e : Failure α) : String :=
  name ++ ": run aborted at iteration " ++ toString iter ++ ": " ++
    (e.message? Scalar.shortest).getD ""

def finishLine [Scalar α] (name : String) (p : Progress α) : String :=
  name ++ ": finished after " ++ toString p.iter ++ " iterations (" ++ p.reason.name ++
    "), cost " ++ Scalar.scientific 6 p.cost

/-- A whole run.  A failure that is an error is logged; every failure is passed on. -/
def execute [Scalar α] (P : Plan σ ω η α) : Action (Run σ ω η α) α Unit := do
  let name := P.solver.name (← get).solver
  onSession (Session.log infoLevel Logbook.runLogger fun _ => startLine name P.config.maxIters)
  let outcome ← Action.attempt (guarding P.config.guarded (body P))
  let r ← get
  -- The interrupt is received as before by now.
  match outcome with
  | .error e =>
    if e.isError then
      onSession (Session.log errorLevel Logbook.runLogger fun _ => abortLine name r.progress.iter e)
    throw e
  | .ok _ =>
    onSession (Session.log infoLevel Logbook.runLogger fun _ => finishLine name r.progress)

/-! ### Nested runs -/

/-- No observer watches a nested run. -/
def noObserver : Observer Empty α where
  iteration _ _ := pure ()

/-- The start of a run at a point, with what is already known there. -/
def seeded [Scalar α] (param : Tensor α) (maxIters : Int) (cost : Option α)
    (gradient hessian : Option (Tensor α)) : Progress α :=
  let p := ProgressOn.start param maxIters
  let p := match cost with
    | some c => p.setCost c
    | none => p
  let p := match gradient with
    | some g => p.setGradient (some g)
    | none => p
  match hessian with
  | some h => p.setHessian (some h)
  | none => p

/-- Runs a solver inside a step of another one: unguarded, without cap and observers, from what is
    already known, on a wrapper of its own.  Yields the final progress. -/
def nested [Scalar α] (S : Solver σ ω α) (setting : Setting ω α)
    (start : RunConfig α → Progress α) : Action (Workspace σ ω) α (Progress α) :=
  let config : RunConfig α := { RunConfig.standard with guarded := false }
  let plan : Plan σ ω Empty α := ⟨S, noObserver, setting, config⟩
  Workspace.nested (.ofFun fun w =>
    match (execute plan).exec ⟨start config, w.solver, w.session, []⟩ with
    | (.ok _, r) => (.ok r.progress, ⟨r.solver, r.session⟩)
    | (.error e, r) => (.error e, ⟨r.solver, r.session⟩))

end Run

end Minimization
