import Minimization.Proofs.Coupling.Lockstep
import Minimization.Proofs.Run.Iteration

namespace Minimization

/-!
# Runs side by side

Runs of solvers that keep to a coupling keep to it as well.

* `Coupling.run` — a coupling of sessions, with the same progress, memory and observers on both sides.
* `Plan.Attends`, `Plan.Follows` — two plans for the same run under different settings.
* `Run.execute_related` — the two runs come to the same end.
* `Run.nested_outcome` — what a nested run does to the two sides.
-/

variable {σ ω ω' η α β : Type}

/-- Runs that differ in their sessions only, and these are related. -/
def Run.onSessions (F : Session ω → Session ω' → Prop) (r : Run σ ω η α) (q : Run σ ω' η α) : Prop :=
  F r.session q.session ∧ q = ⟨r.progress, r.solver, q.session, r.observers⟩

/-- A coupling of sessions, with the same progress, memory and observers on both sides. -/
def Coupling.run (η α : Type) (I : σ → Prop) (C : Coupling (Session ω) (Session ω')) :
    Coupling (Run σ ω η α) (Run σ ω' η α) where
  states r q := C.states r.session q.session ∧ I r.solver ∧
    q = ⟨r.progress, r.solver, q.session, r.observers⟩
  failed := Run.onSessions C.failed
  failed_of_states h := ⟨C.failed_of_states h.1, h.2.2⟩

/-- A line in both logs does not change what is left of the sessions. -/
theorem Run.onSessions.logged {F : Session ω → Session ω' → Prop} (hF : Frame F)
    {r : Run σ ω η α} {q : Run σ ω' η α} (h : onSessions F r q) (level : Int)
    (message : Unit → String) : onSessions F (logged level message r) (logged level message q) := by
  obtain ⟨_, _, s, _⟩ := q
  obtain ⟨hs, ⟨⟩⟩ := h
  refine ⟨?_, rfl⟩
  dsimp only [Run.logged]
  rw [hF.logbook hs]
  exact hF.relog hs _

/-- Neither does a request to stop. -/
theorem Run.onSessions.receive {F : Session ω → Session ω' → Prop} (hF : Frame F)
    {r : Run σ ω η α} {q : Run σ ω' η α} (h : onSessions F r q) (i : Interrupt) :
    onSessions F (receive i r) (receive i q) := by
  obtain ⟨_, _, s, _⟩ := q
  obtain ⟨hs, ⟨⟩⟩ := h
  exact ⟨hF.receive hs i, rfl⟩

variable [Scalar α]

/-- Two plans for the same run under different settings; nothing is said of the steps. -/
structure Plan.Attends (I : σ → Prop) (C : Coupling (Session ω) (Session ω')) (P : Plan σ ω η α)
    (P' : Plan σ ω' η α) : Prop where
  lockstep : Lockstep C P.setting P'.setting
  solver : P.solver.Attends (C.keeping I) P.setting P'.setting P'.solver
  observer : P'.observer = P.observer
  config : P'.config = P.config

/-- Two plans for the same run under different settings. -/
structure Plan.Follows (I : σ → Prop) (C : Coupling (Session ω) (Session ω')) (P : Plan σ ω η α)
    (P' : Plan σ ω' η α) : Prop extends Plan.Attends I C P P' where
  step : ∀ p, (C.keeping I).Related (P.solver.step P.setting p) (P'.solver.step P'.setting p)

namespace Run

open Coupling

variable {I : σ → Prop} {C : Coupling (Session ω) (Session ω')} {P : Plan σ ω η α}
  {P' : Plan σ ω' η α}

omit [Scalar α] in
/-- What the observers do is the same on both sides. -/
theorem onWatches_related (h : Lockstep C P.setting P'.setting) (m : Action (Watches η) α β) :
    (C.run η α I).Related (onWatches m) (onWatches m) := by
  rintro r ⟨_, _, s, _⟩ ⟨hs, hI, ⟨⟩⟩
  rw [exec_onWatches, exec_onWatches]
  dsimp only at hs ⊢
  rw [h.states.logbook hs]
  rcases m.exec ⟨r.observers, r.session.logbook⟩ with ⟨_ | b, ws⟩
  · exact .error ⟨C.failed_of_states (h.states.relog hs ws.logbook), rfl⟩
  · exact .ok ⟨h.states.relog hs ws.logbook, hI, rfl⟩

omit [Scalar α] in
/-- Runs in lockstep write the same lines. -/
theorem logged_states (h : Lockstep C P.setting P'.setting) (level : Int)
    (message : Unit → String) {r : Run σ ω η α} {q : Run σ ω' η α}
    (hrq : (C.run η α I).states r q) :
    (C.run η α I).states (logged level message r) (logged level message q) := by
  obtain ⟨hs, hI, hq⟩ := hrq
  have hlogged := onSessions.logged h.states ⟨hs, hq⟩ level message
  exact ⟨hlogged.1, hI, hlogged.2⟩

omit [Scalar α] in
/-- They receive the same requests to stop. -/
theorem receive_states (h : Lockstep C P.setting P'.setting) (i : Interrupt) {r : Run σ ω η α}
    {q : Run σ ω' η α} (hrq : (C.run η α I).states r q) :
    (C.run η α I).states (receive i r) (receive i q) := by
  obtain ⟨hs, hI, hq⟩ := hrq
  have hreceive := onSessions.receive h.states ⟨hs, hq⟩ i
  exact ⟨hreceive.1, hI, hreceive.2⟩

/-- What is shown of an iteration is the same on both sides. -/
theorem display_related (h : Plan.Attends I C P P') (before : Counts) (notes : Notes α)
    (isNewBest : Bool) :
    (C.run η α I).Related (display P before notes isNewBest)
      (display P' before notes isNewBest) := by
  intro r q hrq
  -- The checks look at counts, progress and names, which are the same on both sides.
  have hinspect : inspection P' before q = inspection P before r := by
    obtain ⟨hs, -, hq⟩ := hrq
    rw [hq]
    unfold inspection finding
    dsimp only
    rw [h.lockstep.debug, h.solver.name, h.lockstep.counts hs]
  rw [exec_display, exec_display, hinspect]
  cases inspection P before r with
  | error e => exact .error ((C.run η α I).failed_of_states hrq)
  | ok _ =>
    dsimp only
    have hq : q.progress = r.progress ∧ q.solver = r.solver := by
      rw [hrq.2.2]
      exact ⟨rfl, rfl⟩
    rw [h.observer, h.solver.name, hq.1, hq.2]
    exact onWatches_related h.lockstep _ (logged_states h.lockstep _ _ hrq)

/-- An iteration does the same on both sides if its step does. -/
theorem iterate_related (h : Plan.Attends I C P P') {r : Run σ ω η α} {q : Run σ ω' η α}
    (hr : r.progress.reason = .notTerminated) (hrq : (C.run η α I).states r q)
    (hstep : Agree (C.keeping I).states (C.keeping I).failed
      ((P.solver.step P.setting r.progress).exec ⟨r.solver, r.session⟩)
      ((P'.solver.step P'.setting r.progress).exec ⟨r.solver, q.session⟩)) :
    Agree (C.run η α I).states (C.run η α I).failed ((iterate P).exec r) ((iterate P').exec q) := by
  obtain ⟨_, _, s, _⟩ := q
  obtain ⟨hs, hI, ⟨⟩⟩ := hrq
  rw [exec_iterate P hr, exec_iterate P' hr]
  dsimp only at hstep ⊢
  -- Three things may fail: the step, the display and the question whether to stop.  Whatever follows
  -- starts from related states.
  obtain ⟨e, w, v, hw, hv, hfail⟩ | ⟨report, w, v, hw, hv, hsession, hsolver, hvw⟩ := hstep.both
  · rw [hw, hv, hfail.2]
    exact .error ⟨hfail.1, rfl⟩
  rw [hw, hv, h.lockstep.counts hs]
  dsimp only
  have hshow := display_related h r.session.counts report.notes (r.progress.update report).2
    (s := counted r report w) (t := counted ⟨r.progress, r.solver, s, r.observers⟩ report v)
    ⟨hsession, hsolver, by rw [hvw]; rfl⟩
  obtain ⟨e, shown, shown', hr', hq', hfail⟩ | ⟨_, shown, shown', hr', hq', hsession', hsolver', hvw'⟩ :=
    hshow.both
  · rw [hr', hq']
    exact .error hfail
  rw [hr', hq', hvw']
  dsimp only
  have hown := h.solver.terminate shown.progress (s := ⟨shown.solver, shown.session⟩)
    (t := ⟨shown.solver, shown'.session⟩) ⟨hsession', hsolver', rfl⟩
  obtain ⟨e, w, v, hw, hv, hfail⟩ | ⟨own, w, v, hw, hv, hsession, hsolver, hvw⟩ := hown.both
  · rw [hw, hv, hfail.2]
    exact .error ⟨hfail.1, rfl⟩
  · rw [hw, hv, hvw]
    refine .ok ⟨hsession, hsolver, ?_⟩
    unfold ruled
    rw [h.config]

/-- The loop does the same on both sides. -/
theorem iterations_related (h : Plan.Follows I C P P') (fuel : Nat) :
    (C.run η α I).Related (iterations P fuel) (iterations P' fuel) := by
  induction fuel with
  | zero => exact .pure ()
  | succ fuel ih =>
    intro r q hrq
    obtain ⟨_, _, s, _⟩ := q
    obtain ⟨hs, hI, ⟨⟩⟩ := hrq
    by_cases hr : r.progress.reason = .notTerminated
    -- Both sides have the same interrupt, so that both stop for it or neither does.
    · rw [exec_iterations_of_running P fuel hr, exec_iterations_of_running P' fuel hr]
      rw [h.config, h.lockstep.states.interrupt hs]
      split
      · exact .ok ⟨hs, hI, rfl⟩
      · rw [Action.exec_bind, Action.exec_bind]
        obtain ⟨e, r', q', hr', hq', hfail⟩ | ⟨_, r', q', hr', hq', hnext⟩ :=
          (iterate_related h.toAttends (q := ⟨r.progress, r.solver, s, r.observers⟩) hr
            ⟨hs, hI, rfl⟩ (h.step r.progress ⟨hs, hI, rfl⟩)).both
        · rw [hr', hq']
          exact .error hfail
        · rw [hr', hq']
          exact ih hnext
    · have hstop := ProgressOn.isTerminated_of_stopped hr
      rw [exec_iterations_of_stopped P _ hstop, exec_iterations_of_stopped P' _ hstop]
      exact .ok ⟨hs, hI, rfl⟩

/-- The start of a run does the same on both sides. -/
theorem opening_related (h : Plan.Attends I C P P') :
    (C.run η α I).Related (opening P) (opening P') := by
  intro r q hrq
  obtain ⟨_, _, s, _⟩ := q
  obtain ⟨hs, hI, ⟨⟩⟩ := hrq
  rw [exec_opening, exec_opening]
  dsimp only
  have hinit := h.solver.init r.progress (s := ⟨r.solver, r.session⟩) (t := ⟨r.solver, s⟩)
    ⟨hs, hI, rfl⟩
  obtain ⟨e, w, v, hw, hv, hfail⟩ | ⟨report?, w, v, hw, hv, hsession, hsolver, hvw⟩ := hinit.both
  -- The initialisation has failed on both sides.
  · rw [hw, hv, hfail.2]
    exact .error ⟨hfail.1, rfl⟩
  · rw [hw, hv, hvw]
    dsimp only
    rw [h.observer, h.solver.name]
    exact onWatches_related h.lockstep _ ⟨hsession, hsolver, rfl⟩

omit [Scalar α] in
/-- They are stopped for the same reason. -/
theorem stop_related (reason : Reason) :
    (C.run η α I).Related (stop reason) (stop reason) := by
  intro r q hrq
  obtain ⟨_, _, s, _⟩ := q
  obtain ⟨hs, hI, ⟨⟩⟩ := hrq
  unfold stop
  simp only [Action.exec_bind, Action.exec_get, Action.exec_ofExcept, Action.exec_modify]
  cases r.progress.setReason reason with
  | error e => exact .error ⟨C.failed_of_states hs, rfl⟩
  | ok p => exact .ok ⟨hs, hI, rfl⟩

/-- The body of a run does the same on both sides. -/
theorem body_related (h : Plan.Follows I C P P') : (C.run η α I).Related (body P) (body P') := by
  rw [body_eq, body_eq]
  refine .bind (opening_related h.toAttends) fun _ => ?_
  intro r q hrq
  have hq : q.progress = r.progress := by rw [hrq.2.2]
  simp only [Action.exec_bind, Action.exec_get, hq]
  split
  · exact stop_related _ hrq
  · exact iterations_related h _ hrq

omit [Scalar α] in
/-- They begin together. -/
theorem begun_states (h : Plan.Attends I C P P') {r : Run σ ω η α} {q : Run σ ω' η α}
    (hrq : (C.run η α I).states r q) : (C.run η α I).states (begun P r) (begun P' q) := by
  have hlogged := logged_states h.lockstep infoLevel
    (fun _ => startLine (P.solver.name r.solver) P.config.maxIters) hrq
  have hq : q.solver = r.solver := by rw [hrq.2.2]
  unfold begun
  rw [h.config, h.solver.name, hq]
  dsimp only
  split
  · exact receive_states h.lockstep _ hlogged
  · exact hlogged

/-- The two runs come to the same end if their bodies do, whatever holds after a failure. -/
theorem execute_agree (h : Plan.Attends I C P P') {F : Session ω → Session ω' → Prop}
    (hF : Frame F) {r : Run σ ω η α} {q : Run σ ω' η α} (hrq : (C.run η α I).states r q)
    (hbody : Agree (C.run η α I).states (onSessions F) ((body P).exec (begun P r))
      ((body P').exec (begun P' q))) :
    Agree (C.run η α I).states (onSessions F) ((execute P).exec r) ((execute P').exec q) := by
  have hq : q.solver = r.solver := by rw [hrq.2.2]
  have hinterrupt : q.session.host.interrupt = r.session.host.interrupt :=
    h.lockstep.states.interrupt hrq.1
  rw [exec_execute, exec_execute]
  obtain ⟨e, r', q', hr', hq', hfail⟩ | ⟨_, r', q', hr', hq', hend⟩ := hbody.both
  -- After a failure the interrupts are handed back and the line is logged in frames that relate no more
  -- than the sessions.
  · have hreleased : onSessions F (released P r r') (released P' q q') := by
      unfold released
      rw [h.config, hinterrupt]
      split
      · exact hfail.receive hF _
      · exact hfail
    have hprogress : q'.progress = r'.progress := by rw [hfail.2]
    rw [hr', hq']
    refine .error ?_
    unfold aborted
    rw [h.solver.name, hq, hprogress]
    split
    · exact hreleased.logged hF _ _
    · exact hreleased
  · have hreleased : (C.run η α I).states (released P r r') (released P' q q') := by
      unfold released
      rw [h.config, hinterrupt]
      split
      · exact receive_states h.lockstep _ hend
      · exact hend
    have hprogress : q'.progress = r'.progress := by rw [hend.2.2]
    rw [hr', hq']
    refine .ok ?_
    unfold finished
    rw [h.solver.name, hq, hprogress]
    exact logged_states h.lockstep _ _ hreleased

/-- **A whole run does the same on both sides.** -/
theorem execute_related (h : Plan.Follows I C P P') :
    (C.run η α I).Related (execute P) (execute P') :=
  fun _ _ hrq => execute_agree h.toAttends h.lockstep.failed hrq
    (body_related h (begun_states h.toAttends hrq))

/-! ### Nested runs -/

/-- The plan of a nested run. -/
def nestedPlan (S : Solver σ ω α) (A : Setting ω α) : Plan σ ω Empty α :=
  ⟨S, noObserver, A, { RunConfig.standard with guarded := false }⟩

/-- A nested run as an action on a workspace, on the wrapper that is there. -/
def inner (S : Solver σ ω α) (A : Setting ω α) (start : RunConfig α → Progress α) :
    Action (Workspace σ ω) α (Progress α) :=
  .ofFun fun w =>
    match (execute (nestedPlan S A)).exec ⟨start (nestedPlan S A).config, w.solver, w.session, []⟩ with
    | (.ok _, r) => (.ok r.progress, ⟨r.solver, r.session⟩)
    | (.error e, r) => (.error e, ⟨r.solver, r.session⟩)

/-- A nested run is one with counts of its own. -/
theorem nested_eq (S : Solver σ ω α) (A : Setting ω α) (start : RunConfig α → Progress α) :
    nested S A start = Workspace.nested (inner S A start) := rfl

/-- The run inside a step does the same on both sides. -/
theorem inner_related {A : Setting ω α} {A' : Setting ω' α} {S : Solver σ ω α}
    {S' : Solver σ ω' α} (h : Lockstep C A A') (hS : S.Follows (C.workspace σ) A A' S')
    (start : RunConfig α → Progress α) :
    (C.workspace σ).Related (inner S A start) (inner S' A' start) := by
  have hplan : Plan.Follows (fun _ => True) C (nestedPlan S A) (nestedPlan S' A') :=
    ⟨⟨h, hS.toAttends, rfl, rfl⟩, hS.step⟩
  rintro w ⟨_, s⟩ ⟨hs, -, ⟨⟩⟩
  unfold inner
  simp only [Action.exec_ofFun]
  obtain ⟨e, r', q', hr', hq', hfail, hqr⟩ | ⟨_, r', q', hr', hq', hend, -, hqr⟩ :=
    (execute_related hplan (s := ⟨start (nestedPlan S A).config, w.solver, w.session, []⟩)
      (t := ⟨start (nestedPlan S A).config, w.solver, s, []⟩) ⟨hs, trivial, rfl⟩).both
  -- The nested run has been given the same configuration on both sides.
  · have hconfig : (nestedPlan S' A').config = (nestedPlan S A).config := rfl
    rw [hconfig, hr', hq', hqr]
    exact .error ⟨hfail, rfl⟩
  · have hconfig : (nestedPlan S' A').config = (nestedPlan S A).config := rfl
    rw [hconfig, hr', hq', hqr]
    exact .ok ⟨hend, trivial, rfl⟩

end Run

end Minimization
