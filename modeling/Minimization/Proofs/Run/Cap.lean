import Mathlib.Data.Nat.Count
import Minimization.Method.Landweber
import Minimization.Problem.Sphere
import Minimization.Proofs.Run.Ending
import Minimization.Proofs.Scalar.Exact

namespace Minimization.Run

open Minimization

/-!
# The cap over several calls

A run that has failed may be executed again; it goes on from the state in which it was left.  The cap
is looked at after an iteration only, so a run that was left at its cap with no reason to have stopped
makes one more.

* `again` — the run after so many calls, each of which may fail.
* `Overdue` — the run has as many iterations as it may have, and nothing has stopped it.
* `Overruns` — the next call makes one more.
* `iter_execute_le`, `iter_execute_of_full` — what a call does to the number of iterations, below the
  cap and from the cap on.
* `excess_again` — the run exceeds its cap by as many iterations as there were calls that overran it.
* `FailsLate`, `failsLate_of_overdue` — a call leaves a run overdue only if it fails in an iteration
  whose step has succeeded.

The cap holds after any number of calls if and only if none of them overruns.
-/

variable {σ ω η α : Type} [Scalar α] {P : Plan σ ω η α} {r : Run σ ω η α}

/-- The run after `k` calls in a row, each of which may fail. -/
def again (P : Plan σ ω η α) (r : Run σ ω η α) : ℕ → Run σ ω η α
  | 0 => r
  | k + 1 => ((execute P).exec (again P r k)).2

/-- The run has as many iterations as it may have, and nothing has stopped it. -/
structure Overdue (r : Run σ ω η α) : Prop where
  positive : ¬ r.progress.maxIters = 0
  full : r.progress.maxIters ≤ r.progress.iter
  running : r.progress.reason = .notTerminated

/-- The next call makes an iteration beyond the cap: it starts, the user does not stop it, and the
    step succeeds. -/
structure Overruns (P : Plan σ ω η α) (r : Run σ ω η α) : Prop extends Overdue r where
  opens : Goes P r 0
  undisturbed : raised P.config (stateAfter P r 0).session.host.interrupt = false
  steps : ((P.solver.step P.setting (stateAfter P r 0).progress).exec
    ⟨(stateAfter P r 0).solver, (stateAfter P r 0).session⟩).1.isOk = true

/-- The next call fails in iteration `n + 1`, although its step has succeeded: in a check, in an
    observer, or in the solver's own stopping rule. -/
structure FailsLateIn (P : Plan σ ω η α) (r : Run σ ω η α) (n : ℕ) : Prop where
  positive : ¬ r.progress.maxIters = 0
  goes : Goes P r n
  running : (stateAfter P r n).progress.reason = .notTerminated
  undisturbed : raised P.config (stateAfter P r n).session.host.interrupt = false
  steps : ((P.solver.step P.setting (stateAfter P r n).progress).exec
    ⟨(stateAfter P r n).solver, (stateAfter P r n).session⟩).1.isOk = true
  fails : ((iterate P).exec (stateAfter P r n)).1.isOk = false

/-- The next call fails in an iteration whose step has succeeded. -/
def FailsLate (P : Plan σ ω η α) (r : Run σ ω η α) : Prop := ∃ n, FailsLateIn P r n

/-! ### One call -/

/-- The start of a run does not iterate, even if it fails. -/
theorem opening_keeps {e : Failure α} {t : Run σ ω η α}
    (h : (opening P).exec (begun P r) = (.error e, t)) :
    t.progress.iter = r.progress.iter ∧ t.progress.maxIters = r.progress.maxIters ∧
      t.progress.reason = r.progress.reason := by
  rw [exec_opening] at h
  rcases hinit : (P.solver.init P.setting (begun P r).progress).exec
    ⟨(begun P r).solver, (begun P r).session⟩ with ⟨_ | report?, w⟩
  · rw [hinit] at h
    obtain ⟨-, rfl⟩ := Prod.mk.inj h
    simp [begun_progress]
  · simp only [hinit, exec_onWatches] at h
    obtain ⟨-, rfl⟩ := Prod.mk.inj h
    cases report? <;> simp [watched, opened, begun_progress]

omit [Scalar α] in
/-- Stopping changes the reason at most, and only if there was none. -/
theorem stop_keeps (t : Run σ ω η α) (reason : Reason) :
    ((stop reason).exec t).2.progress.iter = t.progress.iter ∧
      ((stop reason).exec t).2.progress.maxIters = t.progress.maxIters ∧
      (reason ≠ .notTerminated →
        ¬ ((stop reason).exec t).2.progress.reason = .notTerminated ∨
          ((stop reason).exec t).2.progress = t.progress) := by
  unfold stop
  simp only [Action.exec_bind, Action.exec_get, Action.exec_ofExcept]
  cases hset : t.progress.setReason reason with
  | error e => exact ⟨rfl, rfl, fun _ => .inr rfl⟩
  | ok p =>
    obtain rfl := ProgressOn.eq_of_setReason hset
    exact ⟨rfl, rfl, fun h => .inl h⟩

/-- No call changes the cap. -/
theorem maxIters_execute (P : Plan σ ω η α) (r : Run σ ω η α) :
    ((execute P).exec r).2.progress.maxIters = r.progress.maxIters := by
  rw [execute_progress]
  have hfate := body_fate P r
  generalize (body P).exec (begun P r) = x at hfate
  -- An opening, a stop and iterations all leave the cap alone, and so does an iteration that fails.
  cases hfate with
  | unopened h => exact (opening_keeps h).2.1
  | barred h hcap => rw [(stop_keeps _ _).2.1, h.maxIters_eq]
  | halted h hcap hx =>
    cases hx with
    | stopped => exact h.maxIters_eq
    | interrupted => exact h.maxIters_eq
    | failed hgo hi hfail =>
      have hkept := (iter_iterate (P := P) hgo).2
      rw [hfail, h.maxIters_eq] at hkept
      exact hkept

/-- A call of a run that has stopped does not iterate. -/
theorem iter_execute_of_stopped (hstop : ¬ r.progress.reason = .notTerminated) :
    ((execute P).exec r).2.progress.iter = r.progress.iter ∧
      ¬ ((execute P).exec r).2.progress.reason = .notTerminated := by
  rw [execute_progress]
  have hfate := body_fate P r
  generalize (body P).exec (begun P r) = x at hfate
  -- A run that had stopped before does not make an iteration, whatever else it does.
  cases hfate with
  | unopened h =>
    obtain ⟨hiter, -, hreason⟩ := opening_keeps h
    exact ⟨hiter, by rw [hreason]; exact hstop⟩
  | barred h hcap =>
    obtain ⟨hiter, -, hreason⟩ := h.progress_zero
    obtain ⟨hkept, -, hend⟩ := stop_keeps (stateAfter P r 0) .maxIters
    obtain hstopped | hsame := hend (by simp)
    · exact ⟨by rw [hkept, hiter], hstopped⟩
    · exact ⟨by rw [hkept, hiter], by rw [hsame, hreason]; exact hstop⟩
  -- No iteration has been made, since the run was not running before the first one.
  | @halted n _ h hcap hx =>
    obtain ⟨hiter, -, hreason⟩ := h.progress_zero
    have hzero : ¬ (stateAfter P r 0).progress.reason = .notTerminated := by
      rw [hreason]
      exact hstop
    obtain rfl : n = 0 := by
      by_contra hn
      exact hzero (h.running 0 (Nat.pos_of_ne_zero hn))
    cases hx with
    | stopped => exact ⟨hiter, hzero⟩
    | interrupted hgo => exact absurd hgo hzero
    | failed hgo => exact absurd hgo hzero

/-- In front of an iteration of a run that started below its cap, the cap is not reached. -/
theorem Goes.below {n : ℕ} (h : Goes P r n) (hbelow : (r.progress.iter : ℤ) < r.progress.maxIters)
    (hgo : (stateAfter P r n).progress.reason = .notTerminated) :
    ((r.progress.iter + n : ℕ) : ℤ) < r.progress.maxIters := by
  obtain rfl | hpos := Nat.eq_zero_or_pos n
  · simpa using hbelow
  · exact h.not_full hpos hgo

/-- **Below the cap** a call does not exceed it. -/
theorem iter_execute_le (hbelow : (r.progress.iter : ℤ) < r.progress.maxIters) :
    (((execute P).exec r).2.progress.iter : ℤ) ≤ r.progress.maxIters := by
  rw [execute_progress]
  have hfate := body_fate P r
  generalize (body P).exec (begun P r) = x at hfate
  cases hfate with
  | unopened h =>
    rw [(opening_keeps h).1]
    exact hbelow.le
  | barred h hcap =>
    rw [(stop_keeps _ _).1, h.iter_eq]
    simpa using hbelow.le
  | @halted n _ h hcap hx =>
    -- The last of the iterations started below the cap.
    have hle : ((stateAfter P r n).progress.iter : ℤ) ≤ r.progress.maxIters := by
      rw [h.iter_eq]
      obtain _ | k := n
      · simpa using hbelow.le
      · have hlast := (h.mono (Nat.le_succ k)).below hbelow (h.running k (Nat.lt_succ_self k))
        push_cast at hlast ⊢
        omega
    cases hx with
    | stopped => exact hle
    | interrupted => exact hle
    | failed hgo hi hfail =>
      have hiter := (iter_iterate (P := P) hgo).1
      have hlast := h.below hbelow hgo
      rw [hfail, h.iter_eq] at hiter
      dsimp only at hiter ⊢
      rw [hiter]
      push_cast at hlast ⊢
      split <;> omega

/-- A run that has reached its cap makes no two iterations in one call. -/
theorem Goes.le_one_of_full {n : ℕ} (h : Goes P r n)
    (hfull : r.progress.maxIters ≤ r.progress.iter) : n ≤ 1 := by
  have hle := h.le_iterationsLeft
  unfold iterationsLeft at hle
  omega

open Classical in
/-- **From the cap on** a call makes one iteration if it overruns, and none otherwise. -/
theorem iter_execute_of_full (hfull : r.progress.maxIters ≤ r.progress.iter) :
    ((execute P).exec r).2.progress.iter =
      r.progress.iter + if Overruns P r then 1 else 0 := by
  by_cases hrun : r.progress.reason = .notTerminated
  case neg =>
    rw [if_neg fun h => hrun h.running]
    exact (iter_execute_of_stopped hrun).1
  rw [execute_progress]
  have hfate := body_fate P r
  generalize (body P).exec (begun P r) = x at hfate
  cases hfate with
  | unopened h =>
    rw [if_neg fun hover => by simp [hover.opens.opening_eq] at h]
    exact (opening_keeps h).1
  | barred h hcap =>
    rw [if_neg fun hover => hover.positive hcap, (stop_keeps _ _).1]
    exact h.progress_zero.1
  | @halted n x h hcap hx =>
    have hzero := h.mono (Nat.zero_le n)
    obtain ⟨hiter, -, hreason⟩ := h.progress_zero
    rw [hrun] at hreason
    have hn := h.le_one_of_full hfull
    obtain rfl | rfl : n = 0 ∨ n = 1 := by omega
    · cases hx with
      | stopped hstop => exact absurd hreason hstop
      | interrupted _ hi =>
        rw [if_neg fun hover => by simp [hover.undisturbed] at hi]
        exact hiter
      | failed hgo hi hfail =>
        have hstep := (iter_iterate (P := P) hgo).1
        rw [hfail, hiter] at hstep
        refine hstep.trans (congrArg _ (if_congr ?_ rfl rfl))
        exact ⟨fun hok => ⟨⟨hcap, hfull, hrun⟩, hzero, hi, hok⟩, fun hover => hover.steps⟩
    · -- One iteration has been made, after which the run has stopped.
      obtain ⟨report, w, -, -, -, hstep, -⟩ :=
        (iterate_ok_iff P hreason).1 (h.iterate_eq Nat.zero_lt_one)
      have hover : Overruns P r :=
        ⟨⟨hcap, hfull, hrun⟩, hzero, h.undisturbed 0 Nat.zero_lt_one, by rw [hstep]; rfl⟩
      rw [if_pos hover]
      have hstopped : ¬ (stateAfter P r 1).progress.reason = .notTerminated := by
        intro hgo
        have hbelow := h.not_full Nat.zero_lt_one hgo
        push_cast at hbelow
        omega
      cases hx with
      | stopped => exact h.iter_eq
      | interrupted hgo => exact absurd hgo hstopped
      | failed hgo => exact absurd hgo hstopped

/-- A call that starts below the cap and leaves the run overdue has failed after a step. -/
theorem failsLate_of_execute (hbelow : (r.progress.iter : ℤ) < r.progress.maxIters)
    (hover : Overdue ((execute P).exec r).2) : FailsLate P r := by
  obtain ⟨-, hfull, hrun⟩ := hover
  rw [maxIters_execute] at hfull
  rw [execute_progress] at hfull hrun
  have hfate := body_fate P r
  generalize (body P).exec (begun P r) = x at hfate hfull hrun
  cases hfate with
  | unopened h =>
    rw [(opening_keeps h).1] at hfull
    omega
  | barred h hcap =>
    rw [(stop_keeps _ _).1, h.progress_zero.1] at hfull
    omega
  | @halted n x h hcap hx =>
    cases hx with
    | stopped hstop => exact absurd hrun hstop
    | interrupted => simp at hrun
    | failed hgo hi hfail =>
      refine ⟨n, hcap, h, hgo, hi, ?_, by rw [hfail]; rfl⟩
      -- Without a step the iteration would not have been counted.
      by_contra hno
      have hiter := (iter_iterate (P := P) hgo).1
      rw [hfail, if_neg hno, h.iter_eq] at hiter
      have hlast := h.below hbelow hgo
      dsimp only at hiter hfull
      rw [hiter] at hfull
      push_cast at hlast hfull
      omega

/-- Such a call does fail. -/
theorem FailsLate.execute_fails (h : FailsLate P r) : ((execute P).exec r).1.isOk = false := by
  obtain ⟨n, hn⟩ := h
  obtain ⟨e, hfail⟩ := Action.exec_eq_of_not_isOk hn.fails
  have hbody := hn.goes.body_eq hn.positive (.failed hn.running hn.undisturbed hfail)
  rw [exec_execute, hbody]
  rfl

/-! ### Several calls -/

theorem maxIters_again (P : Plan σ ω η α) (r : Run σ ω η α) (k : ℕ) :
    (again P r k).progress.maxIters = r.progress.maxIters := by
  induction k with
  | zero => rfl
  | succ k ih =>
    show ((execute P).exec (again P r k)).2.progress.maxIters = _
    rw [maxIters_execute, ih]

open Classical in
/-- **The excess over the cap** is the number of calls that overran it. -/
theorem excess_again (hfresh : (r.progress.iter : ℤ) ≤ r.progress.maxIters) (k : ℕ) :
    ((again P r k).progress.iter - r.progress.maxIters).toNat =
      Nat.count (fun j => Overruns P (again P r j)) k := by
  induction k with
  | zero =>
    rw [Nat.count_zero]
    show (_ - _ : ℤ).toNat = 0
    simpa [again] using hfresh
  | succ k ih =>
    rw [Nat.count_succ, ← ih]
    have hcap := maxIters_again P r k
    show ((((execute P).exec (again P r k)).2.progress.iter : ℤ) - _).toNat = _
    -- A call at the cap exceeds it by one iteration if it overruns, any other one stays at most at the
    -- cap.
    by_cases hfull : (again P r k).progress.maxIters ≤ (again P r k).progress.iter
    · rw [iter_execute_of_full hfull]
      split <;> omega
    · have hle := iter_execute_le (P := P) (r := again P r k) (by omega)
      rw [if_neg fun hover => hfull hover.full]
      omega

/-- **A run becomes overdue** in a call that fails in an iteration whose step has succeeded. -/
theorem failsLate_of_overdue (hstart : ¬ Overdue r) (k : ℕ) (h : Overdue (again P r k)) :
    ∃ j < k, FailsLate P (again P r j) := by
  induction k with
  | zero => exact absurd h hstart
  | succ k ih =>
    by_cases hbelow : ((again P r k).progress.iter : ℤ) < (again P r k).progress.maxIters
    · exact ⟨k, Nat.lt_succ_self k, failsLate_of_execute hbelow h⟩
    · -- The run was at its cap before this call, and had not stopped either.
      have hrun : (again P r k).progress.reason = .notTerminated := by
        by_contra hstop
        exact (iter_execute_of_stopped (P := P) hstop).2 h.running
      have hpos : ¬ (again P r k).progress.maxIters = 0 := by
        rw [← maxIters_execute P]
        exact h.positive
      obtain ⟨j, hj, hlate⟩ := ih ⟨hpos, by omega, hrun⟩
      exact ⟨j, by omega, hlate⟩

/-- **The cap over any number of calls.**  A fresh run that is executed `k` times, whether the calls
    return or fail, has at most as many iterations as its cap allows if and only if none of the calls
    overruns the cap.  If no call fails after the step of an iteration, in a check, an observer or the
    solver's own stopping rule, then none does. -/
theorem iter_again_le_iff (P : Plan σ ω η α) (x : Tensor α) (cost? : Option α)
    (gradient? hessian? : Option (Tensor α)) (solver : σ) (session : Session ω)
    (observers : List (Watch η)) (k : ℕ) :
    let r := fresh P x cost? gradient? hessian? solver session observers
    ((again P r k).progress.iter ≤ P.config.maxIters ↔ ∀ j < k, ¬ Overruns P (again P r j)) ∧
      ((∀ j < k, ¬ FailsLate P (again P r j)) →
        (again P r k).progress.iter ≤ P.config.maxIters) := by
  intro r
  classical
  obtain ⟨hiter, hmax, -⟩ :=
    seeded_unstarted x (P.config.maxIters : ℤ) cost? gradient? hessian?
  have hiter : r.progress.iter = 0 := hiter
  have hmax : r.progress.maxIters = P.config.maxIters := hmax
  have hfresh : (r.progress.iter : ℤ) ≤ r.progress.maxIters := by omega
  -- Nothing is overdue before the first call: no iteration has been counted.
  have hstart : ¬ Overdue r := by
    rintro ⟨hpos, hfull, -⟩
    omega
  have hexcess := excess_again (P := P) hfresh k
  have hiff : (again P r k).progress.iter ≤ P.config.maxIters ↔
      ∀ j < k, ¬ Overruns P (again P r j) := by
    rw [← Nat.count_iff_forall_not, ← hexcess]
    omega
  -- An overrun needs a late failure in an earlier call.
  refine ⟨hiff, fun hnone => hiff.2 fun j hj hover => ?_⟩
  obtain ⟨i, hi, hlate⟩ := failsLate_of_overdue hstart j hover.toOverdue
  exact hnone i (by omega) hlate

theorem iter_again_le_iff_halving :
    (∀ j < 1, ¬ FailsLate halving (again halving halvingStart j)) ∧
      (again halving halvingStart 1).progress.iter ≤ halving.config.maxIters := by
  have hreturns : ((execute halving).exec halvingStart).1.isOk = true := by decide +kernel
  have hnone : ∀ j < 1, ¬ FailsLate halving (again halving halvingStart j) := by
    intro j hj hlate
    obtain rfl : j = 0 := by omega
    have hfails := hlate.execute_fails
    rw [show again halving halvingStart 0 = halvingStart from rfl, hreturns] at hfails
    simp at hfails
  exact ⟨hnone, (iter_again_le_iff halving (.vector .array [1.0]) none none none ⟨0.25, true⟩
    (.start ()) [] 1).2 hnone⟩

/-- Gradient steps on the sphere function, at most one of them, shown to an observer that has no
    directory to save a point in. -/
def unsaved : Plan (Landweber (Exact ℚ)) Unit Unit (Exact ℚ) where
  solver := Landweber.solver
  observer := { iteration := fun _ _ => throw .missingDirectory }
  setting := ⟨sphereOperator, false⟩
  config := ⟨1, -Scalar.infinity, true⟩

/-- From one on. -/
def unsavedStart : Run (Landweber (Exact ℚ)) Unit Unit (Exact ℚ) :=
  fresh unsaved (.vector .array [1.0]) none none none ⟨0.25, false⟩ (.start ()) [⟨.always, ()⟩]

/-- **The cap is exceeded.**  The observer fails after the only iteration that the cap allows, and the
    second call makes another one. -/
theorem iter_again_unsaved : unsaved.config.maxIters = 1 ∧
    ((execute unsaved).exec unsavedStart).1.isOk = false ∧
    (again unsaved unsavedStart 1).progress.iter = 1 ∧
    (again unsaved unsavedStart 2).progress.iter = 2 := by
  decide +kernel

end Minimization.Run
