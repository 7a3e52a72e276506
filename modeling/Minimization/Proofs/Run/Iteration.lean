import Minimization.Run.Basic

namespace Minimization.Run

open Minimization

/-!
# One iteration, taken apart

An iteration asks the solver for a step, merges what it reports, shows the result, and asks the
solver whether to stop.  Proofs about runs go through the statements below and never unfold
`iterate` again.

* `display` — the part between the merge and the stopping rules; it changes nothing but observers
  and loggers (`display_frame`).
* `ruling` — the reason that the stopping rules arrive at: the solver's own, the cap, the target.
* `iterate_ok_iff` — an iteration of a run that has not stopped succeeds exactly if its parts do.
* `iterate_error_cases` — where an iteration may fail.
* `exec_iterations_of_stopped`, `exec_iterations_of_running` — the loop around it.
* `body_eq`, `execute_ok_iff` — the start and the end of a run.
-/

variable {σ ω η α β : Type}

/-! ### Parts of a run -/

/-- The solver works on its memory and on the session. -/
@[simp] theorem exec_onSolver (m : Action (Workspace σ ω) α β) (r : Run σ ω η α) :
    (onSolver m).exec r = ((m.exec ⟨r.solver, r.session⟩).1,
      { r with
        solver := (m.exec ⟨r.solver, r.session⟩).2.solver
        session := (m.exec ⟨r.solver, r.session⟩).2.session }) := rfl

/-- To merge a report tells whether there is a new best. -/
@[simp] theorem exec_merge [Scalar α] (report : Report α) (r : Run σ ω η α) :
    (merge report).exec r =
      (.ok (r.progress.update report).2, { r with progress := (r.progress.update report).1 }) := rfl

/-- A run that has not stopped can be stopped. -/
theorem exec_stop {r : Run σ ω η α} (h : r.progress.reason = .notTerminated) (reason : Reason) :
    (stop reason).exec r =
      (.ok (), { r with progress := { r.progress with reason := reason } }) := by
  unfold stop
  simp [Action.exec_bind, ProgressOn.setReason_of_running h]

/-- The request of the user to stop has been noted down. -/
def raised (c : RunConfig α) (i : Interrupt) : Bool := c.guarded && i == .guarded true

/-- Whether the user has asked to stop is what has been noted down, if the run is guarded. -/
theorem interruptRaised_eq (c : RunConfig α) (r : Run σ ω η α) :
    interruptRaised c r = raised c r.session.host.interrupt := rfl

/-- The run after its observers have been called. -/
def watched (ws : Watches η) (r : Run σ ω η α) : Run σ ω η α :=
  { r with observers := ws.list, session := { r.session with logbook := ws.logbook } }

/-- The observers are called, whatever becomes of them. -/
theorem exec_onWatches (m : Action (Watches η) α β) (r : Run σ ω η α) :
    (onWatches m).exec r = ((m.exec ⟨r.observers, r.session.logbook⟩).1,
      watched (m.exec ⟨r.observers, r.session.logbook⟩).2 r) := rfl

/-- The run with a line in its logs. -/
def logged (level : Int) (message : Unit → String) (r : Run σ ω η α) : Run σ ω η α :=
  { r with session := { r.session with
      logbook := r.session.logbook.emit level Logbook.runLogger message } }

/-- A line in the log. -/
theorem exec_log (level : Int) (message : Unit → String) (r : Run σ ω η α) :
    (onSession (Session.log level Logbook.runLogger message) : Action (Run σ ω η α) α Unit).exec r =
      (.ok (), logged level message r) := rfl

/-- The body of a guarded run notes requests of the user down; the way they are received is the old
    one afterwards. -/
theorem exec_guarding (guarded : Bool) (m : Action (Run σ ω η α) α β) (r : Run σ ω η α) :
    (guarding guarded m).exec r =
      if guarded then ((m.exec (receive (.guarded false) r)).1,
        receive r.session.host.interrupt (m.exec (receive (.guarded false) r)).2)
      else m.exec r := by
  cases guarded <;> rfl

/-! ### Between the merge and the stopping rules -/

section
variable [Scalar α]

/-- What the checks of debug mode find. -/
def finding (S : Solver σ ω α) (before : Counts) (r : Run σ ω η α) : Except (Failure α) Unit :=
  if Scalar.isNaN r.progress.cost then
    .error (.numerical (.undefinedCost (S.name r.solver) r.progress.iter))
  else
    match Counts.decreased? before r.session.counts with
    | some capability => .error (.impossible (.counterDecreased capability))
    | none => .ok ()

/-- The checks of debug mode change nothing. -/
theorem exec_check (S : Solver σ ω α) (before : Counts) (r : Run σ ω η α) :
    (check S before).exec r = (finding S before r, r) := by
  unfold check finding
  by_cases h : Scalar.isNaN r.progress.cost
  · simp [Action.exec_bind, h]
  · cases hd : Counts.decreased? before r.session.counts <;> simp [Action.exec_bind, h, hd]

/-- What is found before an iteration is shown: the checks are made in debug mode only. -/
def inspection (P : Plan σ ω η α) (before : Counts) (r : Run σ ω η α) : Except (Failure α) Unit :=
  if P.setting.debug then finding P.solver before r else .ok ()

/-- The checks, the log line and the observers. -/
def display (P : Plan σ ω η α) (before : Counts) (notes : Notes α) (isNewBest : Bool) :
    Action (Run σ ω η α) α Unit := do
  if P.setting.debug then check P.solver before
  let r ← get
  onSession (Session.log debugLevel Logbook.runLogger fun _ =>
    iterationLine (P.solver.name r.solver) r.progress)
  onWatches (Watches.iteration P.observer r.progress notes isNewBest)

/-- An iteration, part by part. -/
theorem iterate_eq (P : Plan σ ω η α) : iterate P = (do
    let before := (← get).session.counts
    let report ← onSolver (P.solver.step P.setting (← get).progress)
    let isNewBest ← merge report
    modify fun r => { r with progress := r.progress.increment }
    display P before report.notes isNewBest
    let reason ← stoppingReason P
    if reason.isTerminal then stop reason) := by
  unfold iterate display
  by_cases h : P.setting.debug <;> simp [h]

/-- What is shown of an iteration, part by part: the checks may fail; then come the line in the logs
    and the observers. -/
theorem exec_display (P : Plan σ ω η α) (before : Counts) (notes : Notes α) (isNewBest : Bool)
    (r : Run σ ω η α) : (display P before notes isNewBest).exec r =
      match inspection P before r with
      | .error e => (.error e, r)
      | .ok _ => (onWatches (Watches.iteration P.observer r.progress notes isNewBest)).exec
          (logged debugLevel (fun _ => iterationLine (P.solver.name r.solver) r.progress) r) := by
  unfold display inspection
  by_cases hd : P.setting.debug
  · cases hf : finding P.solver before r <;>
      simp [hd, Action.exec_bind, exec_check, hf, exec_log]
  · simp [hd, Action.exec_bind, exec_log]

/-- Two states of a run that differ in observers and loggers only. -/
structure SameCourse (r r' : Run σ ω η α) : Prop where
  progress : r'.progress = r.progress
  solver : r'.solver = r.solver
  host : r'.session.host = r.session.host
  counts : r'.session.counts = r.session.counts

/-- **Frame.**  Checks, log lines and observers leave the course of a run alone. -/
theorem display_frame {P : Plan σ ω η α} {before : Counts} {notes : Notes α} {isNewBest : Bool}
    {r shown : Run σ ω η α} {outcome : Except (Failure α) Unit}
    (h : (display P before notes isNewBest).exec r = (outcome, shown)) : SameCourse r shown := by
  rw [exec_display] at h
  split at h
  · cases h
    exact ⟨rfl, rfl, rfl, rfl⟩
  · rw [exec_onWatches] at h
    cases h
    exact ⟨rfl, rfl, rfl, rfl⟩

/-! ### The stopping rules -/

/-- The reason that the stopping rules arrive at, given the solver's own. -/
def ruling (c : RunConfig α) (p : Progress α) (own : Reason) : Reason :=
  if own.isTerminal then own
  else if p.maxIters ≤ (p.iter : Int) then .maxIters
  else if Scalar.le p.cost c.targetCost then .targetCost
  else .notTerminated

/-- The rules ask the solver and then look at the progress. -/
theorem exec_stoppingReason (P : Plan σ ω η α) (r : Run σ ω η α) :
    (stoppingReason P).exec r =
      (((P.solver.terminate r.progress).exec ⟨r.solver, r.session⟩).1.map
          (ruling P.config r.progress),
        { r with
          solver := ((P.solver.terminate r.progress).exec ⟨r.solver, r.session⟩).2.solver
          session := ((P.solver.terminate r.progress).exec ⟨r.solver, r.session⟩).2.session }) := by
  unfold stoppingReason Solver.terminateWithin ruling
  simp only [Action.exec_bind, Action.exec_get, exec_onSolver]
  rcases (P.solver.terminate r.progress).exec ⟨r.solver, r.session⟩ with ⟨_ | own, w⟩
  · rfl
  -- The rules in their order, each asked only if those before it have nothing to say.
  · by_cases ho : own.isTerminal
    · simp [ho, Except.map]
    · obtain rfl : own = .notTerminated := by simpa using ho
      by_cases hc : r.progress.maxIters ≤ (r.progress.iter : Int)
      · simp [hc, Except.map, Reason.isTerminal]
      · by_cases ht : Scalar.le r.progress.cost P.config.targetCost <;>
          simp [hc, ht, Except.map, Reason.isTerminal]

/-! ### A whole iteration -/

/-- The run after a report has been merged and the iteration counted. -/
def counted (r : Run σ ω η α) (report : Report α) (w : Workspace σ ω) : Run σ ω η α :=
  ⟨(r.progress.update report).1.increment, w.solver, w.session, r.observers⟩

/-- The run after the stopping rules have been asked. -/
def ruled (c : RunConfig α) (r : Run σ ω η α) (own : Reason) (w : Workspace σ ω) : Run σ ω η α :=
  ⟨{ r.progress with reason := ruling c r.progress own }, w.solver, w.session, r.observers⟩

/-- Stopping for the reason that the rules arrive at, if they do. -/
theorem exec_stop_ruling (c : RunConfig α) (own : Reason) {r : Run σ ω η α}
    (h : r.progress.reason = .notTerminated) :
    (if (ruling c r.progress own).isTerminal then stop (ruling c r.progress own)
      else pure () : Action (Run σ ω η α) α Unit).exec r =
        (.ok (), { r with progress := { r.progress with reason := ruling c r.progress own } }) := by
  by_cases ht : (ruling c r.progress own).isTerminal
  · rw [if_pos ht, exec_stop h]
  · rw [if_neg ht, Action.exec_pure]
    rw [Bool.not_eq_true, Reason.isTerminal_eq_false_iff] at ht
    rw [ht, ← h]

/-- **An iteration, part by part**: the step, what is shown of it, and the solver's own stopping
    rule.  Each part may end it. -/
theorem exec_iterate (P : Plan σ ω η α) {r : Run σ ω η α}
    (hr : r.progress.reason = .notTerminated) : (iterate P).exec r =
      match (P.solver.step P.setting r.progress).exec ⟨r.solver, r.session⟩ with
      | (.error e, w) => (.error e, { r with solver := w.solver, session := w.session })
      | (.ok report, w) =>
        match (display P r.session.counts report.notes (r.progress.update report).2).exec
            (counted r report w) with
        | (.error e, shown) => (.error e, shown)
        | (.ok _, shown) =>
          match (P.solver.terminate shown.progress).exec ⟨shown.solver, shown.session⟩ with
          | (.error e, v) => (.error e, { shown with solver := v.solver, session := v.session })
          | (.ok own, v) => (.ok (), ruled P.config shown own v) := by
  rw [iterate_eq]
  simp only [Action.exec_bind, Action.exec_get, exec_onSolver]
  rcases (P.solver.step P.setting r.progress).exec ⟨r.solver, r.session⟩ with ⟨_ | report, w⟩
  · rfl
  · simp only [exec_merge, Action.exec_modify, counted]
    rcases hshow : (display P r.session.counts report.notes (r.progress.update report).2).exec
      ⟨(r.progress.update report).1.increment, w.solver, w.session, r.observers⟩ with
      ⟨_ | _, shown⟩
    · rfl
    · simp only [exec_stoppingReason]
      -- Nothing that is shown changes the reason, so that the run can still be stopped.
      have hshown : shown.progress.reason = .notTerminated := by
        rw [(display_frame hshow).progress]
        simp [hr]
      rcases (P.solver.terminate shown.progress).exec ⟨shown.solver, shown.session⟩ with
        ⟨_ | own, v⟩
      · rfl
      · exact exec_stop_ruling P.config own
          (r := ⟨shown.progress, v.solver, v.session, shown.observers⟩) hshown

/-- An iteration fails with its step. -/
theorem exec_iterate_of_step_failed (P : Plan σ ω η α) {r : Run σ ω η α} {e : Failure α}
    {w : Workspace σ ω} (hr : r.progress.reason = .notTerminated)
    (h : (P.solver.step P.setting r.progress).exec ⟨r.solver, r.session⟩ = (.error e, w)) :
    (iterate P).exec r = (.error e, { r with solver := w.solver, session := w.session }) := by
  rw [exec_iterate P hr, h]

/-- An iteration succeeds exactly if its parts do. -/
theorem iterate_ok_iff (P : Plan σ ω η α) {r r' : Run σ ω η α}
    (hr : r.progress.reason = .notTerminated) :
    (iterate P).exec r = (.ok (), r') ↔ ∃ report w shown own v,
      (P.solver.step P.setting r.progress).exec ⟨r.solver, r.session⟩ = (.ok report, w) ∧
      (display P r.session.counts report.notes (r.progress.update report).2).exec
        (counted r report w) = (.ok (), shown) ∧
      (P.solver.terminate shown.progress).exec ⟨shown.solver, shown.session⟩ = (.ok own, v) ∧
      r' = ruled P.config shown own v := by
  rw [exec_iterate P hr]
  constructor
  -- Each part has to succeed, since otherwise the iteration would have failed with it.
  · intro h
    rcases hstep : (P.solver.step P.setting r.progress).exec ⟨r.solver, r.session⟩ with
      ⟨_ | report, w⟩
    · simp [hstep] at h
    rcases hshow : (display P r.session.counts report.notes (r.progress.update report).2).exec
      (counted r report w) with ⟨_ | _, shown⟩
    · simp [hstep, hshow] at h
    rcases hown : (P.solver.terminate shown.progress).exec ⟨shown.solver, shown.session⟩ with
      ⟨_ | own, v⟩
    · simp [hstep, hshow, hown] at h
    · simp only [hstep, hshow, hown, Prod.mk.injEq, true_and] at h
      exact ⟨report, w, shown, own, v, rfl, hshow, hown, h.symm⟩
  · rintro ⟨report, w, shown, own, v, hstep, hshow, hown, rfl⟩
    simp only [hstep, hshow, hown]

/-- **What an iteration leaves**: the report of the step has been merged, and the rules have been
    asked.  What was shown in between leaves no trace in progress and memory. -/
theorem iterate_reports (P : Plan σ ω η α) {r r' : Run σ ω η α}
    (hr : r.progress.reason = .notTerminated) (h : (iterate P).exec r = (.ok (), r')) :
    ∃ report w own session v,
      (P.solver.step P.setting r.progress).exec ⟨r.solver, r.session⟩ = (.ok report, w) ∧
      (P.solver.terminate (r.progress.update report).1.increment).exec ⟨w.solver, session⟩ =
        (.ok own, v) ∧
      r'.progress = { (r.progress.update report).1.increment with
        reason := ruling P.config (r.progress.update report).1.increment own } ∧
      r'.solver = v.solver := by
  obtain ⟨report, w, shown, own, v, hstep, hshow, hown, rfl⟩ := (iterate_ok_iff P hr).1 h
  -- What is shown leaves progress and memory as the step has made them.
  have hframe := display_frame hshow
  rw [hframe.progress, hframe.solver] at hown
  refine ⟨report, w, own, shown.session, v, hstep, hown, ?_, rfl⟩
  show { shown.progress with reason := ruling P.config shown.progress own } = _
  rw [hframe.progress]
  rfl

/-- Where an iteration may fail: in the step, in what is shown of it, or in the solver's own
    stopping rule. -/
theorem iterate_error_cases (P : Plan σ ω η α) {r r' : Run σ ω η α} {e : Failure α}
    (hr : r.progress.reason = .notTerminated) (h : (iterate P).exec r = (.error e, r')) :
    (∃ w, (P.solver.step P.setting r.progress).exec ⟨r.solver, r.session⟩ = (.error e, w) ∧
      r' = { r with solver := w.solver, session := w.session }) ∨
    ∃ report w,
      (P.solver.step P.setting r.progress).exec ⟨r.solver, r.session⟩ = (.ok report, w) ∧
      ((display P r.session.counts report.notes (r.progress.update report).2).exec
          (counted r report w) = (.error e, r') ∨
        ∃ shown v,
          (display P r.session.counts report.notes (r.progress.update report).2).exec
            (counted r report w) = (.ok (), shown) ∧
          (P.solver.terminate shown.progress).exec ⟨shown.solver, shown.session⟩ =
            (.error e, v) ∧
          r' = { shown with solver := v.solver, session := v.session }) := by
  rw [exec_iterate P hr] at h
  -- The first part that fails ends the iteration, in the state it leaves.
  rcases hstep : (P.solver.step P.setting r.progress).exec ⟨r.solver, r.session⟩ with
    ⟨_ | report, w⟩
  · simp only [hstep, Prod.mk.injEq, Except.error.injEq] at h
    obtain ⟨rfl, rfl⟩ := h
    exact .inl ⟨w, rfl, rfl⟩
  refine .inr ⟨report, w, rfl, ?_⟩
  rcases hshow : (display P r.session.counts report.notes (r.progress.update report).2).exec
    (counted r report w) with ⟨_ | _, shown⟩
  · simp only [hstep, hshow] at h
    exact .inl h
  rcases hown : (P.solver.terminate shown.progress).exec ⟨shown.solver, shown.session⟩ with
    ⟨_ | own, v⟩
  · simp only [hstep, hshow, hown, Prod.mk.injEq, Except.error.injEq] at h
    obtain ⟨rfl, rfl⟩ := h
    exact .inr ⟨shown, v, rfl, hown, rfl⟩
  · simp [hstep, hshow, hown] at h

/-! ### The loop -/

/-- No iterations. -/
@[simp] theorem exec_iterations_zero (P : Plan σ ω η α) (r : Run σ ω η α) :
    (iterations P 0).exec r = (.ok (), r) := rfl

/-- A run that has stopped does not iterate. -/
theorem exec_iterations_of_stopped (P : Plan σ ω η α) (fuel : Nat) {r : Run σ ω η α}
    (h : r.progress.isTerminated) : (iterations P fuel).exec r = (.ok (), r) := by
  cases fuel with
  | zero => rfl
  | succ fuel => simp [iterations, Action.exec_bind, h]

/-- Before every iteration the run looks at the request of the user to stop. -/
theorem exec_iterations_of_running (P : Plan σ ω η α) (fuel : Nat) {r : Run σ ω η α}
    (h : r.progress.reason = .notTerminated) : (iterations P (fuel + 1)).exec r =
      if raised P.config r.session.host.interrupt then
        (.ok (), { r with progress := { r.progress with reason := .keyboardInterrupt } })
      else (iterate P >>= fun _ => iterations P fuel).exec r := by
  have hrun := ProgressOn.isTerminated_of_running h
  by_cases hi : raised P.config r.session.host.interrupt
  · simp [iterations, Action.exec_bind, hrun, interruptRaised_eq, hi, exec_stop h]
  · simp [iterations, Action.exec_bind, hrun, interruptRaised_eq, hi]

/-! ### Start and end of a run -/

/-- The start of a run: the solver is initialised, what it reports is merged and shown. -/
def opening (P : Plan σ ω η α) : Action (Run σ ω η α) α Unit := do
  let report? ← onSolver (P.solver.init P.setting (← get).progress)
  if let some report := report? then discard (merge report)
  onWatches (Watches.init P.observer (P.solver.name (← get).solver)
    ((report?.map (·.notes)).getD []))

/-- The run after the report of an initialisation has been merged, if there is one. -/
def opened (r : Run σ ω η α) (report? : Option (Report α)) (w : Workspace σ ω) : Run σ ω η α :=
  ⟨match report? with
    | some report => (r.progress.update report).1
    | none => r.progress, w.solver, w.session, r.observers⟩

/-- The start of a run, part by part. -/
theorem exec_opening (P : Plan σ ω η α) (r : Run σ ω η α) : (opening P).exec r =
    match (P.solver.init P.setting r.progress).exec ⟨r.solver, r.session⟩ with
    | (.error e, w) => (.error e, { r with solver := w.solver, session := w.session })
    | (.ok report?, w) =>
      (onWatches (Watches.init P.observer (P.solver.name w.solver)
        ((report?.map (·.notes)).getD []))).exec (opened r report? w) := by
  unfold opening
  simp only [Action.exec_bind, Action.exec_get, exec_onSolver]
  rcases (P.solver.init P.setting r.progress).exec ⟨r.solver, r.session⟩ with ⟨_ | report?, w⟩
  · rfl
  · cases report? <;> rfl

/-- The body of a run: its start, and its iterations up to the cap. -/
theorem body_eq (P : Plan σ ω η α) : body P = (do
    opening P
    let p := (← get).progress
    if p.maxIters = 0 then stop .maxIters else iterations P (iterationsLeft p)) := by
  unfold body opening
  simp only [bind_assoc]
  refine bind_congr fun r => bind_congr fun report? => ?_
  cases report? <;> simp

/-- The run when its body begins. -/
def begun (P : Plan σ ω η α) (r : Run σ ω η α) : Run σ ω η α :=
  let r := logged infoLevel (fun _ => startLine (P.solver.name r.solver) P.config.maxIters) r
  if P.config.guarded then receive (.guarded false) r else r

/-- The run `t`, in which interrupts are received as in `r` if it was guarded. -/
def released (P : Plan σ ω η α) (r t : Run σ ω η α) : Run σ ω η α :=
  if P.config.guarded then receive r.session.host.interrupt t else t

/-- The run `r` when its body has ended in `t`. -/
def finished (P : Plan σ ω η α) (r t : Run σ ω η α) : Run σ ω η α :=
  logged infoLevel (fun _ => finishLine (P.solver.name r.solver) t.progress) (released P r t)

/-- The run `r` when its body has failed in `t`. -/
def aborted (P : Plan σ ω η α) (r : Run σ ω η α) (e : Failure α) (t : Run σ ω η α) : Run σ ω η α :=
  if e.isError then
    logged errorLevel (fun _ => abortLine (P.solver.name r.solver) t.progress.iter e)
      (released P r t)
  else released P r t

/-- **A whole run** is its body between two lines in the logs; the last one tells how it ended. -/
theorem exec_execute (P : Plan σ ω η α) (r : Run σ ω η α) :
    (execute P).exec r =
      match (body P).exec (begun P r) with
      | (.ok _, t) => (.ok (), finished P r t)
      | (.error e, t) => (.error e, aborted P r e t) := by
  -- Guarding is handing the interrupt over at the beginning and back at the end.
  have hguarding : (guarding P.config.guarded (body P)).exec
      (logged infoLevel (fun _ => startLine (P.solver.name r.solver) P.config.maxIters) r) =
        (((body P).exec (begun P r)).1, released P r ((body P).exec (begun P r)).2) := by
    rw [exec_guarding]
    unfold begun released
    split <;> rfl
  have hprogress : ∀ t, (released P r t).progress = t.progress := by
    intro t
    unfold released
    split <;> rfl
  unfold execute
  simp only [Action.exec_bind, Action.exec_get, Action.exec_attempt]
  simp only [exec_log, hguarding]
  rcases (body P).exec (begun P r) with ⟨e | _, t⟩
  · by_cases he : e.isError <;> simp [aborted, he, Action.exec_bind, exec_log, hprogress]
  · simp only [exec_log, hprogress]
    rfl

/-- A run succeeds exactly if its body does. -/
theorem execute_ok_iff (P : Plan σ ω η α) {r r' : Run σ ω η α} :
    (execute P).exec r = (.ok (), r') ↔
      ∃ t, (body P).exec (begun P r) = (.ok (), t) ∧ r' = finished P r t := by
  rw [exec_execute]
  rcases (body P).exec (begun P r) with ⟨_ | _, t⟩
  · simp
  · simp only [Prod.mk.injEq, true_and, exists_eq_left']
    exact eq_comm

end

end Minimization.Run
