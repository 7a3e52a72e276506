import Minimization.Proofs.Run.Cap

namespace Minimization.Run

open Minimization

/-!
# Calling a run that has returned

A call that returns leaves a run that has stopped.  Another call initialises the solver, shows this to
the observers, and does not iterate.

* `halts_ok_iff`, `body_ok_cases` — where a call that returns ends.
* `Finished` — the run has stopped, and for its cap if that is zero.
* `finished_of_ok` — so has every run that returns; `goes_of_ok` — it has made some iterations, and
  `reached_of_ok` — has come to a state that it reaches.
* `Finished.execute_eq` — another call makes the start of a run and nothing else.
* `Finished.overheard_execute` — its solver hears of the initialisation only.
-/

variable {σ ω η α : Type} [Scalar α] {P : Plan σ ω η α} {r t final : Run σ ω η α}

/-- The run has stopped; if it may not iterate at all, then for that reason. -/
structure Finished (r : Run σ ω η α) : Prop where
  stopped : ¬ r.progress.reason = .notTerminated
  barred : r.progress.maxIters = 0 → r.progress.reason = .maxIters

/-! ### What a call leaves that returns -/

omit [Scalar α] in
/-- Stopping sets the reason and does nothing else. -/
theorem stop_ok {reason : Reason} (h : (stop reason).exec t = (.ok (), final)) :
    final = { t with progress := { t.progress with reason := reason } } := by
  unfold stop at h
  simp only [Action.exec_bind, Action.exec_get, Action.exec_ofExcept] at h
  cases hset : t.progress.setReason reason with
  | error e =>
    rw [hset] at h
    cases h
  | ok p =>
    rw [hset] at h
    obtain ⟨-, rfl⟩ := Prod.mk.inj h
    rw [ProgressOn.eq_of_setReason hset]

/-- The loop ends without a failure where the run has stopped or the user has asked it to. -/
theorem halts_ok_iff : Halts P t (.ok (), final) ↔
    (¬ t.progress.reason = .notTerminated ∧ final = t) ∨
      (t.progress.reason = .notTerminated ∧ raised P.config t.session.host.interrupt = true ∧
        final = { t with progress := { t.progress with reason := .keyboardInterrupt } }) := by
  constructor
  · intro h
    generalize hx : ((.ok (), final) : Except (Failure α) Unit × _) = x at h
    cases h with
    | stopped hstop => exact .inl ⟨hstop, (Prod.mk.inj hx).2⟩
    | interrupted hgo hi => exact .inr ⟨hgo, hi, (Prod.mk.inj hx).2⟩
    | failed => cases hx
  · rintro (⟨hstop, rfl⟩ | ⟨hgo, hi, rfl⟩)
    · exact .stopped hstop
    · exact .interrupted hgo hi

/-- The body of a call that returns ends in front of an iteration, unless the cap is zero. -/
theorem body_ok_cases (h : (body P).exec (begun P r) = (.ok (), final)) :
    (Goes P r 0 ∧ r.progress.maxIters = 0 ∧
      (stop .maxIters).exec (stateAfter P r 0) = (.ok (), final)) ∨
    ∃ n, Goes P r n ∧ ¬ r.progress.maxIters = 0 ∧ Halts P (stateAfter P r n) (.ok (), final) := by
  have hfate := body_fate P r
  rw [h] at hfate
  generalize hx : ((.ok (), final) : Except (Failure α) Unit × _) = x at hfate
  cases hfate with
  | unopened => cases hx
  | barred hzero hcap => exact .inl ⟨hzero, hcap, rfl⟩
  | halted hn hcap hhalts => exact .inr ⟨_, hn, hcap, hhalts⟩

/-- A cap of zero ends the body in front of the first iteration. -/
theorem Goes.body_of_barred (h : Goes P r 0) (hcap : r.progress.maxIters = 0) :
    (body P).exec (begun P r) = (stop .maxIters).exec (stateAfter P r 0) := by
  have hmax : (stateAfter P r 0).progress.maxIters = 0 := h.progress_zero.2.1.trans hcap
  rw [Run.body_eq, Action.exec_bind, h.opening_eq]
  simp only [Action.exec_bind, Action.exec_get, if_pos hmax]

/-- The body of a call that returns has made some iterations, and stops there. -/
theorem body_ok {u : Run σ ω η α} (h : (body P).exec (begun P r) = (.ok (), u)) :
    Finished u ∧ ∃ n reason, Goes P r n ∧ u =
      { stateAfter P r n with progress := { (stateAfter P r n).progress with reason := reason } } := by
  have hfate := body_fate P r
  rw [h] at hfate
  generalize hx : ((.ok (), u) : Except (Failure α) Unit × _) = x at hfate
  -- Three ways lead to success: a cap of zero, a reason from the last iteration, and the interrupt.
  cases hfate with
  | unopened hopen => cases hx
  | barred hzero hcap =>
    obtain rfl := stop_ok hx.symm
    exact ⟨⟨by simp, fun _ => rfl⟩, 0, _, hzero, rfl⟩
  | @halted n _ hn hcap hhalts =>
    have hmax : ¬ (stateAfter P r n).progress.maxIters = 0 := by
      rw [hn.maxIters_eq]
      exact hcap
    cases hhalts with
    | stopped hstop =>
      obtain rfl := (Prod.mk.inj hx).2
      exact ⟨⟨hstop, fun hzero => absurd hzero hmax⟩, n, _, hn, rfl⟩
    | interrupted =>
      obtain rfl := (Prod.mk.inj hx).2
      exact ⟨⟨by simp, fun hzero => absurd hzero hmax⟩, n, _, hn, rfl⟩
    | failed => cases hx

/-- A run that has returned comes from its body with another line in the logs. -/
theorem finished_course (P : Plan σ ω η α) (r t : Run σ ω η α) :
    (finished P r t).progress = t.progress ∧ (finished P r t).solver = t.solver ∧
      (finished P r t).observers = t.observers ∧
      (finished P r t).session.counts = t.session.counts := by
  unfold finished released
  split <;> exact ⟨rfl, rfl, rfl, rfl⟩

/-- What the operator remembers is left alone. -/
theorem memory_finished (P : Plan σ ω η α) (r t : Run σ ω η α) :
    (finished P r t).session.host.memory = t.session.host.memory := by
  unfold finished released
  split <;> rfl

/-- **A run that returns has stopped.** -/
theorem finished_of_ok (h : (execute P).exec r = (.ok (), final)) : Finished final := by
  obtain ⟨u, hbody, rfl⟩ := (execute_ok_iff P).1 h
  have hu := (body_ok hbody).1
  constructor
  · rw [(finished_course P r u).1]
    exact hu.stopped
  · rw [(finished_course P r u).1]
    exact hu.barred

/-- **A run that returns** has made some iterations, and is where they have led it, up to the reason to
    stop. -/
theorem goes_of_ok (h : (execute P).exec r = (.ok (), final)) :
    ∃ n reason, Goes P r n ∧
      final.progress = { (stateAfter P r n).progress with reason := reason } ∧
      final.solver = (stateAfter P r n).solver ∧ final.observers = (stateAfter P r n).observers ∧
      final.session.counts = (stateAfter P r n).session.counts ∧
      final.session.host.memory = (stateAfter P r n).session.host.memory := by
  obtain ⟨u, hbody, rfl⟩ := (execute_ok_iff P).1 h
  obtain ⟨-, n, reason, hn, rfl⟩ := body_ok hbody
  obtain ⟨hprogress, hsolver, hobservers, hcounts⟩ := finished_course P r { stateAfter P r n with
    progress := { (stateAfter P r n).progress with reason := reason } }
  exact ⟨n, reason, hn, hprogress, hsolver, hobservers, hcounts, memory_finished P r _⟩

/-- It has come to a state that it reaches. -/
theorem reached_of_ok (h : (execute P).exec r = (.ok (), final)) :
    ∃ t reason, Reached P r t ∧ final.progress = { t.progress with reason := reason } ∧
      final.solver = t.solver ∧ final.observers = t.observers := by
  obtain ⟨n, reason, hn, hprogress, hsolver, hobservers, -⟩ := goes_of_ok h
  exact ⟨stateAfter P r n, reason, hn.consecutive.reached hn.reached n le_rfl, hprogress, hsolver,
    hobservers⟩

/-! ### Another call -/

/-- The start of a call succeeds if its parts do. -/
theorem exec_opening_of_parts {report? : Option (Report α)} {w : Workspace σ ω} {after : Watches η}
    (hinit : (P.solver.init P.setting r.progress).exec ⟨r.solver, r.session⟩ = (.ok report?, w))
    (hshown : (Watches.init P.observer (P.solver.name w.solver)
      ((report?.map (·.notes)).getD [])).exec ⟨r.observers, w.session.logbook⟩ = (.ok (), after)) :
    (opening P).exec r = (.ok (), watched after (opened r report? w)) := by
  rw [exec_opening, hinit]
  dsimp only
  have hseen : (Watches.init P.observer (P.solver.name w.solver)
      ((report?.map (·.notes)).getD [])).exec
        ⟨(opened r report? w).observers, (opened r report? w).session.logbook⟩ = (.ok (), after) :=
    hshown
  rw [exec_onWatches, hseen]

namespace Finished

omit [Scalar α] in
/-- A run that has stopped for its cap may be stopped for that again. -/
theorem exec_stop (h : Finished t) (hcap : t.progress.maxIters = 0) :
    (stop .maxIters).exec t = (.ok (), t) := by
  have hset : t.progress.setReason .maxIters = (.ok t.progress : Except (Failure α) _) := by
    unfold ProgressOn.setReason
    rw [← h.barred hcap, if_neg (by simp)]
  unfold stop
  simp only [Action.exec_bind, Action.exec_get, Action.exec_ofExcept, hset, Action.exec_modify]

/-- After its start such a call has nothing to do. -/
theorem exec_rest (h : Finished t) : (if t.progress.maxIters = 0 then stop .maxIters
    else iterations P (iterationsLeft t.progress)).exec t = (.ok (), t) := by
  by_cases hcap : t.progress.maxIters = 0
  · rw [if_pos hcap]
    exact h.exec_stop hcap
  · rw [if_neg hcap]
    exact exec_iterations_of_stopped P _ (ProgressOn.isTerminated_of_stopped h.stopped)

/-- The start of a call does not change that the run has stopped. -/
theorem opening (h : Finished r) (hopen : (opening P).exec (begun P r) = (.ok (), t)) :
    Finished t := by
  obtain ⟨-, hmax, hreason⟩ := opening_progress hopen
  rw [begun_progress] at hmax hreason
  exact ⟨by rw [hreason]; exact h.stopped, fun hzero => by rw [hreason]; exact h.barred (hmax ▸ hzero)⟩

/-- **Another call of a run that has stopped** is the start of a run. -/
theorem execute_eq (h : Finished r) (hopen : (Run.opening P).exec (begun P r) = (.ok (), t)) :
    (execute P).exec r = (.ok (), Run.finished P r t) := by
  refine (execute_ok_iff P).2 ⟨t, ?_, rfl⟩
  rw [body_eq, Action.exec_bind, hopen]
  simp only [Action.exec_bind, Action.exec_get]
  exact (h.opening hopen).exec_rest

/-- **The solver of such a call** hears of the initialisation and of nothing else. -/
theorem overheard_execute (h : Finished r)
    (hopen : (Run.opening P).exec (begun P r) = (.ok (), t)) :
    (execute P.overheard).exec (r.overheard []) =
      (.ok (), (Run.finished P r t).overheard [.init t.session.host.interrupt]) := by
  have hover := overheard_opening [] hopen
  rw [← overheard_begun] at hover
  have hfinished : Finished (r.overheard []) := ⟨h.stopped, h.barred⟩
  rw [hfinished.execute_eq hover]
  exact congrArg _ (overheard_finished P r t [] _)

end Finished

end Minimization.Run
