import Minimization.Proofs.Run.Iteration

namespace Minimization.Run

/-!
# Invariants of runs

A property of runs that every part of a run keeps holds at its end, whether the run returns or fails.

* `Invariant` — what the parts have to keep: the solver's three, the observers and the loggers, the
  reason to stop and the way in which interrupts are received.
* `Invariant.execute` — the property at the end of a run.
-/

variable {σ ω η α : Type} [Scalar α]

/-- The run after its solver has acted. -/
def acted (r : Run σ ω η α) (w : Workspace σ ω) : Run σ ω η α :=
  { r with solver := w.solver, session := w.session }

/-- A property that every part of a run keeps. -/
structure Invariant (P : Plan σ ω η α) (J : Run σ ω η α → Prop) : Prop where
  watched : ∀ {r} (ws : Watches η), J r → J (watched ws r)
  receive : ∀ {r} (i : Interrupt), J r → J (receive i r)
  stopped : ∀ {r} (reason : Reason), J r →
    J { r with progress := { r.progress with reason := reason } }
  init_failed : ∀ {r e w}, J r →
    (P.solver.init P.setting r.progress).exec ⟨r.solver, r.session⟩ = (.error e, w) → J (acted r w)
  init : ∀ {r report? w}, J r →
    (P.solver.init P.setting r.progress).exec ⟨r.solver, r.session⟩ = (.ok report?, w) →
      J (opened r report? w)
  step_failed : ∀ {r e w}, J r →
    (P.solver.step P.setting r.progress).exec ⟨r.solver, r.session⟩ = (.error e, w) → J (acted r w)
  step : ∀ {r report w}, J r →
    (P.solver.step P.setting r.progress).exec ⟨r.solver, r.session⟩ = (.ok report, w) →
      J (counted r report w)
  terminate : ∀ {r outcome w}, J r →
    (P.solver.terminate r.progress).exec ⟨r.solver, r.session⟩ = (outcome, w) → J (acted r w)

namespace Invariant

variable {P : Plan σ ω η α} {J : Run σ ω η α → Prop}

/-- A line in the log. -/
theorem logged (h : Invariant P J) {r : Run σ ω η α} (level : Int) (message : Unit → String)
    (hr : J r) : J (logged level message r) :=
  h.watched ⟨r.observers, r.session.logbook.emit level Logbook.runLogger message⟩ hr

/-- What is checked and shown after a step. -/
theorem display (h : Invariant P J) {r : Run σ ω η α} (before : Counts) (notes : Notes α)
    (isNewBest : Bool) (hr : J r) : J ((display P before notes isNewBest).exec r).2 := by
  rw [exec_display]
  split
  · exact hr
  · rw [exec_onWatches]
    exact h.watched _ (h.logged _ _ hr)

/-- **An iteration** keeps the invariant, whether it succeeds or fails. -/
theorem iterate (h : Invariant P J) {r : Run σ ω η α} (hrun : r.progress.reason = .notTerminated)
    (hr : J r) : J ((iterate P).exec r).2 := by
  rw [exec_iterate P hrun]
  -- Step, display and question in turn; the state that is left is the one after the last of them.
  rcases hstep : (P.solver.step P.setting r.progress).exec ⟨r.solver, r.session⟩ with
    ⟨_ | report, w⟩
  · exact h.step_failed hr hstep
  have hshow := h.display r.session.counts report.notes (r.progress.update report).2 (h.step hr hstep)
  dsimp only
  rcases hshown : (Run.display P r.session.counts report.notes (r.progress.update report).2).exec
    (counted r report w) with ⟨_ | _, shown⟩
  · rw [hshown] at hshow
    exact hshow
  rw [hshown] at hshow
  dsimp only
  rcases hown : (P.solver.terminate shown.progress).exec ⟨shown.solver, shown.session⟩ with
    ⟨_ | own, v⟩
  · exact h.terminate hshow hown
  · exact h.stopped (ruling P.config shown.progress own) (h.terminate hshow hown)

/-- So do any number of them. -/
theorem iterations (h : Invariant P J) (fuel : Nat) {r : Run σ ω η α} (hr : J r) :
    J ((iterations P fuel).exec r).2 := by
  induction fuel generalizing r with
  | zero => exact hr
  | succ fuel ih =>
    -- A run that goes on is stopped by an interrupt or iterates once more.
    by_cases hrun : r.progress.reason = .notTerminated
    · rw [exec_iterations_of_running P fuel hrun]
      split
      · exact h.stopped .keyboardInterrupt hr
      · have hnext := h.iterate hrun hr
        rw [Action.exec_bind]
        rcases hit : (Run.iterate P).exec r with ⟨_ | _, next⟩
        · rw [hit] at hnext
          exact hnext
        · rw [hit] at hnext
          exact ih hnext
    · have hstop := ProgressOn.isTerminated_of_stopped hrun
      rw [exec_iterations_of_stopped P _ hstop]
      exact hr

/-- So does the start. -/
theorem opening (h : Invariant P J) {r : Run σ ω η α} (hr : J r) : J ((opening P).exec r).2 := by
  rw [exec_opening]
  rcases hinit : (P.solver.init P.setting r.progress).exec ⟨r.solver, r.session⟩ with
    ⟨_ | report?, w⟩
  · exact h.init_failed hr hinit
  · dsimp only
    rw [exec_onWatches]
    exact h.watched _ (h.init hr hinit)

/-- So does a run from its start to its end. -/
theorem body (h : Invariant P J) {r : Run σ ω η α} (hr : J r) : J ((body P).exec r).2 := by
  rw [body_eq, Action.exec_bind]
  have hopened := h.opening hr
  rcases hopen : (Run.opening P).exec r with ⟨_ | _, t⟩
  · rw [hopen] at hopened
    exact hopened
  · rw [hopen] at hopened
    simp only [Action.exec_bind, Action.exec_get]
    -- The cap of zero is a stop, anything else iterates.
    split
    · unfold stop
      simp only [Action.exec_bind, Action.exec_get, Action.exec_ofExcept]
      cases hreason : t.progress.setReason .maxIters with
      | error e => exact hopened
      | ok p =>
        rw [ProgressOn.eq_of_setReason hreason]
        exact h.stopped .maxIters hopened
    · exact h.iterations _ hopened

/-- **What every part keeps holds at the end of a run**, however it ends. -/
theorem execute (h : Invariant P J) {r : Run σ ω η α} (hr : J r) : J ((execute P).exec r).2 := by
  -- Log lines and interrupts are changed before the body and after it.
  have hbegun : J (begun P r) := by
    unfold begun
    dsimp only
    split
    · exact h.receive _ (h.logged _ _ hr)
    · exact h.logged _ _ hr
  have hreleased : ∀ t, J t → J (released P r t) := by
    intro t ht
    unfold released
    split
    · exact h.receive _ ht
    · exact ht
  have hbody := h.body hbegun
  rw [exec_execute]
  rcases hend : (Run.body P).exec (begun P r) with ⟨e | _, t⟩
  · rw [hend] at hbody
    show J (aborted P r e t)
    unfold aborted
    split
    · exact h.logged _ _ (hreleased t hbody)
    · exact hreleased t hbody
  · rw [hend] at hbody
    exact h.logged _ _ (hreleased t hbody)

end Invariant

end Minimization.Run
