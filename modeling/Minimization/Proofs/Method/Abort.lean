import Minimization.Observer.Kinds
import Minimization.Problem.Sphere
import Minimization.Proofs.Method.Fuse
import Minimization.Proofs.Observer.Diary
import Minimization.Proofs.Scalar.Exact

namespace Minimization

/-!
# What an aborted run leaves

A step of a built-in method does all that can fail before its report is merged.  So a run that an
evaluation aborts, wherever that was, leaves the state after its last complete iteration.

* `Method.inverseHessian?` — what a quasi-Newton method has learnt; a call that fails keeps it.
* `Interrupt.isGuarded` — requests of the user to stop are noted down.
* `Run.stateAfter_kept` — what evaluations keep is kept in all iterations.
* `Run.Leaving` — the progress, the inverse Hessian and the calls to observers that a failed call of
  `execute` leaves; `Run.leaving_of_init_failed`, `Run.leaving_of_step_failed` — what that is if the
  initialisation or a step has failed.

Together with the interrupt, which is received as before, this is `Run.aborted_at_last_iteration`.
-/

variable {ω η α : Type}

/-- The inverse Hessian of a quasi-Newton method. -/
def Method.inverseHessian? : Method α → Option (Tensor α)
  | .quasiNewton s => some s.inverseHessian
  | _ => none

/-- Requests of the user to stop are noted down. -/
def Interrupt.isGuarded : Interrupt → Bool
  | .unguarded => false
  | .guarded _ => true

/-- Evaluations do not change the way in which requests of the user to stop are received. -/
def Operator.KeepsHandler (op : Operator ω α) : Prop :=
  ∀ guarded, op.Keeps fun h => h.interrupt.isGuarded = guarded

variable [Scalar α] {A : Setting ω α}

/-! ### The inverse Hessian -/

/-- An initialisation keeps the inverse Hessian, whether it succeeds or fails. -/
theorem Method.inverseHessian?_init (A : Setting ω α) (p : Progress α) (w : Workspace (Method α) ω) :
    ((Method.solver.init A p).exec w).2.solver.inverseHessian? = w.solver.inverseHessian? := by
  obtain ⟨m, s⟩ := w
  rw [Method.exec_init]
  cases m with
  -- The initialisation evaluates and merges, and never writes to the solver.
  | quasiNewton x =>
    have hkept := ((QuasiNewton.joined A.operator.keeps_nothing.hosts.toAbreast
      fun y => y.inverseHessian = x.inverseHessian).init p).kept (w := ⟨x, s⟩) trivial rfl
    exact congrArg some hkept.2
  | _ => rfl

/-- A step that fails keeps the inverse Hessian. -/
theorem Method.inverseHessian?_step {p : Progress α} {e : Failure α} {w v : Workspace (Method α) ω}
    (h : (Method.solver.step A p).exec w = (.error e, v)) :
    v.solver.inverseHessian? = w.solver.inverseHessian? := by
  obtain ⟨m, s⟩ := w
  rw [Method.exec_step] at h
  obtain rfl : _ = v := congrArg Prod.snd h
  -- A quasi-Newton step assigns the inverse Hessian after everything that can raise. The other methods
  -- have none, and both sides compute to the same.
  cases m with
  | quasiNewton x =>
    rcases hstep : (QuasiNewton.solver.step A p).exec ⟨x, s⟩ with ⟨e' | report, u⟩
    · have hkept : ((QuasiNewton.solver.step A p).exec ⟨x, s⟩).2.solver.inverseHessian =
          x.inverseHessian := by
        rw [hstep]
        exact QuasiNewton.inverseHessian_of_step_failed hstep
      exact congrArg some hkept
    · have hok : ((QuasiNewton.solver.step A p).exec ⟨x, s⟩).1 = .error e := congrArg Prod.fst h
      rw [hstep] at hok
      cases hok
  | _ => rfl

namespace Run

variable {O : Observer η α} {c : RunConfig α} {r t : Run (Method α) ω η α} {e : Failure α} {n : ℕ}

/-! ### What is left where an evaluation fails -/

/-- A call that fails with `e` leaves a progress and an inverse Hessian, and its observers have been
    told what stands in their diaries. -/
structure Leaving (A : Setting ω α) (O : Observer η α) (c : RunConfig α) (r : Run (Method α) ω η α)
    (e : Failure α) (r' : Run (Method α) ω η α) (p : Progress α) (inverseHessian? : Option (Tensor α))
    (D : ObserverMode → List (Page α)) : Prop where
  progress : r'.progress = p
  inverseHessian : r'.solver.inverseHessian? = inverseHessian?
  diaries : (execute (plan A O.diarised c)).exec (r.diarised fun _ => []) = (.error e, r'.diarised D)

/-- What is left is what the body of the call has left. -/
theorem leaving_of_body {D : ObserverMode → List (Page α)} (e : Failure α)
    (h : (body (plan A O.diarised c)).exec (begun (plan A O.diarised c) (r.diarised fun _ => [])) =
      (.error e, t.diarised D)) :
    Leaving A O c r e (aborted (plan A O c) r e t) t.progress t.solver.inverseHessian? D where
  progress := aborted_progress (plan A O c) r e t
  inverseHessian := by
    rw [(aborted_course (plan A O c) r e t).1]
  diaries := by
    rw [exec_execute, h]
    exact congrArg _ (aborted_diarised (plan A O c) r t e (fun _ => []) D)

/-- A run whose initialisation fails has not left the point it starts from. -/
theorem leaving_of_init_failed {w : Workspace (Method α) ω}
    (h : (Method.solver.init A r.progress).exec ⟨r.solver, (begun (plan A O c) r).session⟩ =
      (.error e, w)) :
    Leaving A O c r e (aborted (plan A O c) r e
        { begun (plan A O c) r with solver := w.solver, session := w.session })
      r.progress r.solver.inverseHessian? fun _ => [] := by
  -- The run that keeps diaries starts from the same progress and solver, so its initialisation raises
  -- the same error.
  obtain ⟨hprogress, hsolver, -⟩ := begun_course (plan A O c) r
  have hmemory := Method.inverseHessian?_init A r.progress ⟨r.solver, (begun (plan A O c) r).session⟩
  rw [h] at hmemory
  rw [← hprogress, ← hmemory]
  refine leaving_of_body (t := { begun (plan A O c) r with solver := w.solver, session := w.session })
    e ?_
  have hbegun := begun_diarised (plan A O c) r fun _ => []
  have hinit : ((plan A O c).diarised.solver.init (plan A O c).diarised.setting
      ((begun (plan A O c) r).diarised fun _ => []).progress).exec
        ⟨((begun (plan A O c) r).diarised fun _ => []).solver,
          ((begun (plan A O c) r).diarised fun _ => []).session⟩ = (.error e, w) := by
    rw [← h, ← hprogress, ← hsolver]
    rfl
  show (body (plan A O c).diarised).exec (begun (plan A O c).diarised (r.diarised fun _ => [])) = _
  rw [hbegun, body_eq, Action.exec_bind, exec_opening, hinit]
  rfl

/-- A run whose step fails leaves the state after its last complete iteration. -/
theorem leaving_of_step_failed {w : Workspace (Method α) ω} (hn : Goes (plan A O c) r n)
    (hcap : ¬ r.progress.maxIters = 0)
    (hgo : (stateAfter (plan A O c) r n).progress.reason = .notTerminated)
    (hi : raised c (stateAfter (plan A O c) r n).session.host.interrupt = false)
    (h : (Method.solver.step A (stateAfter (plan A O c) r n).progress).exec
      ⟨(stateAfter (plan A O c) r n).solver, (stateAfter (plan A O c) r n).session⟩ =
        (.error e, w)) :
    Leaving A O c r e (aborted (plan A O c) r e
        { stateAfter (plan A O c) r n with solver := w.solver, session := w.session })
      (stateAfter (plan A O c) r n).progress (stateAfter (plan A O c) r n).solver.inverseHessian?
      (diary (plan A O c) r n) := by
  have hmemory : w.solver.inverseHessian? = _ := Method.inverseHessian?_step h
  rw [← hmemory]
  refine leaving_of_body
    (t := { stateAfter (plan A O c) r n with solver := w.solver, session := w.session }) e ?_
  -- The iterations before the failing one are those of the run that keeps diaries too.
  obtain ⟨hgoes, hstate⟩ := hn.diarised
  have hfail : (iterate (plan A O c).diarised).exec
      ((stateAfter (plan A O c) r n).diarised (diary (plan A O c) r n)) =
        (.error e, Run.diarised { stateAfter (plan A O c) r n with
          solver := w.solver, session := w.session } (diary (plan A O c) r n)) :=
    exec_iterate_of_step_failed (plan A O c).diarised hgo h
  refine hgoes.body_eq hcap (.failed ?_ ?_ ?_)
  · rw [hstate]
    exact hgo
  · rw [hstate]
    exact hi
  · rw [hstate]
    exact hfail

/-! ### How interrupts are received -/

omit [Scalar α] in
/-- An executor that guards hands back the handling of interrupts that it found. -/
theorem interrupt_released {P : Plan (Method α) ω η α} (hc : P.config.guarded = true)
    (r t : Run (Method α) ω η α) :
    (released P r t).session.host.interrupt = r.session.host.interrupt := by
  unfold released
  rw [if_pos hc]
  rfl

/-- A failure is logged, which leaves the host alone. -/
theorem host_aborted (P : Plan (Method α) ω η α) (r t : Run (Method α) ω η α) (e : Failure α) :
    (aborted P r e t).session.host = (released P r t).session.host := by
  unfold aborted
  split
  · rfl
  · rfl

/-- If the operator does not change how interrupts are received, neither does an unguarded run that an
    evaluation aborts. -/
theorem Site.isGuarded_eq (hA : A.operator.KeepsHandler) (hm : r.solver.BuiltIn)
    (hc : c.guarded = false) (h : Site A O c r e t) :
    t.session.host.interrupt.isGuarded = r.session.host.interrupt.isGuarded := by
  -- An unguarded run leaves the handler of the process as it finds it.
  have hbegun : (begun (plan A O c) r).session.host = r.session.host := by
    unfold begun
    have hconfig : (plan A O c).config.guarded = false := hc
    rw [hconfig]
    rfl
  have hK := hA r.session.host.interrupt.isGuarded
  cases h with
  -- From there on the operator keeps the handler, by its own promise: in the initialisation, …
  | init h =>
    have hkept := Method.init_kept hK r.progress
      (w := ⟨r.solver, (begun (plan A O c) r).session⟩) (by rw [hbegun]) hm
    rw [h] at hkept
    exact hkept.1
  | @step n w hn hcap hgo hi h =>
    -- … in the iterations that succeed, and in the step that raises.
    obtain ⟨hhost, hbuiltIn⟩ := stateAfter_kept hK hm (by rw [hbegun]) hn
    have hkept := Method.step_kept hK (stateAfter (plan A O c) r n).progress (w :=
      ⟨(stateAfter (plan A O c) r n).solver, (stateAfter (plan A O c) r n).session⟩) hhost hbuiltIn
    rw [h] at hkept
    exact hkept.1

/-! ### All of it -/

/-- **An aborted run leaves the state of its last complete iteration.**  If an evaluation aborts a run
    of a built-in method, wherever it is made, then

    * either the initialisation of the method has failed: the progress is that from which the run has
      started, and no observer has been called,
    * or so many iterations are complete and the next one is not: the progress and the inverse Hessian
      are those after these iterations (after the initialisation, if there are none), and the
      observers have been called for those that their mode selects.

    The run has not stopped for a reason.  Interrupts are received as before the run: if it was
    guarded, in any case, and otherwise if the operator does not change that. -/
theorem aborted_at_last_iteration (A : Setting ω α) (O : Observer η α) (c : RunConfig α)
    (r r' : Run (Method α) ω η α) (hm : r.solver.BuiltIn)
    (hr : r.progress.reason = .notTerminated) (e : Failure α)
    (h : (execute (plan A O c)).exec r = (.error e, r')) (hblown : Blown A O c r) :
    (((Method.solver.init A r.progress).exec ⟨r.solver, (begun (plan A O c) r).session⟩).1 = .error e ∧
        Leaving A O c r e r' r.progress r.solver.inverseHessian? (fun _ => []) ∨
      ∃ n, Goes (plan A O c) r n ∧ ¬ Goes (plan A O c) r (n + 1) ∧
        Leaving A O c r e r' (stateAfter (plan A O c) r n).progress
          (stateAfter (plan A O c) r n).solver.inverseHessian? (diary (plan A O c) r n)) ∧
      r'.progress.reason = .notTerminated ∧
      (c.guarded = true → r'.session.host.interrupt = r.session.host.interrupt) ∧
      (A.operator.KeepsHandler →
        r'.session.host.interrupt.isGuarded = r.session.host.interrupt.isGuarded) := by
  obtain ⟨t, hsite, rfl⟩ := site_of_blown hm hr h hblown
  have hguarded : c.guarded = true →
      (aborted (plan A O c) r e t).session.host.interrupt = r.session.host.interrupt := by
    intro hc
    rw [host_aborted]
    exact interrupt_released hc r t
  have hhandler : A.operator.KeepsHandler →
      (aborted (plan A O c) r e t).session.host.interrupt.isGuarded =
        r.session.host.interrupt.isGuarded := by
    intro hA
    -- A guarded run puts the handler back itself; an unguarded one never touches it.
    by_cases hc : c.guarded = true
    · rw [hguarded hc]
    · have hreleased : released (plan A O c) r t = t := if_neg hc
      rw [host_aborted, hreleased]
      exact hsite.isGuarded_eq hA hm (by simpa using hc)
  cases hsite with
  | init hinit =>
    have hleaving := leaving_of_init_failed (O := O) (c := c) hinit
    refine ⟨.inl ⟨congrArg Prod.fst hinit, hleaving⟩, ?_, hguarded, hhandler⟩
    rw [hleaving.progress]
    exact hr
  | @step n w hn hcap hgo hi hstep =>
    have hleaving := leaving_of_step_failed hn hcap hgo hi hstep
    refine ⟨.inr ⟨n, hn, ?_, hleaving⟩, ?_, hguarded, hhandler⟩
    -- Had the run gone one iteration further, the failing step would have succeeded.
    · intro hnext
      have hok := hnext.iterate_eq (Nat.lt_succ_self n)
      rw [exec_iterate_of_step_failed (plan A O c) hgo hstep] at hok
      cases (Prod.mk.inj hok).1
    · rw [hleaving.progress]
      exact hgo

/-- The sphere function, whose gradient fails from the third time on. -/
def wearySphere : Operator Nat (Exact ℚ) where
  name := "Problem"
  cost? := some fun x => pure (sphere x)
  gradient? := some fun x => do
    let calls := (← get).memory
    modify fun h => { h with memory := calls + 1 }
    if calls < 2 then return sphereGradient x else throw (.operator "broken")

/-- The quasi-Newton method with backtracking from the identity. -/
def wearyMethod : Method (Exact ℚ) :=
  .quasiNewton ⟨.matrix .array 1 [[1.0]],
    .backtracking ⟨⟨none, 0.25, 10, 0, none, none⟩, 0.25, 0.5, 0.25⟩⟩

/-- From one on, with an observer that records everything and one that records every second
    iteration. -/
def wearyStart : Run (Method (Exact ℚ)) Nat (Watcher (Exact ℚ)) (Exact ℚ) :=
  ⟨seeded (.vector .array [1.0]) 5 none none none, wearyMethod, .start 0,
    [⟨.always, .recorder []⟩, ⟨⟨.every, 2⟩, .recorder []⟩]⟩

/-- Its plan. -/
def wearyPlan : Plan (Method (Exact ℚ)) Nat (Watcher (Exact ℚ)) (Exact ℚ) :=
  plan ⟨wearySphere, false⟩ Watcher.observer ⟨5, 0.0, true⟩

/-- Its evaluations touch its memory alone. -/
theorem wearySphere_keepsHandler : wearySphere.KeepsHandler := by
  intro guarded
  refine ⟨fun x host h => h, fun x host h => ?_, fun x host h => h⟩
  show (((if host.memory < 2 then pure (sphereGradient x) else throw (.operator "broken") :
    Action (Host Nat) (Exact ℚ) (Tensor (Exact ℚ))).exec
      { host with memory := host.memory + 1 }).2).interrupt.isGuarded = guarded
  split
  · exact h
  · exact h

/-- The run fails in its second iteration. -/
theorem aborted_at_last_iteration_weary :
    wearyStart.solver.BuiltIn ∧ wearyStart.progress.reason = .notTerminated ∧
      wearySphere.KeepsHandler ∧ ∃ e r', (execute wearyPlan).exec wearyStart = (.error e, r') ∧
        Blown ⟨wearySphere, false⟩ Watcher.observer ⟨5, 0.0, true⟩ wearyStart ∧
        Goes wearyPlan wearyStart 1 ∧
        Leaving ⟨wearySphere, false⟩ Watcher.observer ⟨5, 0.0, true⟩ wearyStart e r'
          (stateAfter wearyPlan wearyStart 1).progress
          (stateAfter wearyPlan wearyStart 1).solver.inverseHessian?
          (diary wearyPlan wearyStart 1) ∧
        r'.progress.reason = .notTerminated ∧ r'.session.host.interrupt = .unguarded := by
  have hfail : ((execute wearyPlan).exec wearyStart).1.isOk = false := by decide +kernel
  have hiter : ((execute wearyPlan).exec wearyStart).2.progress.iter = 1 := by decide +kernel
  have hinit : ((Method.solver.init ⟨wearySphere, false⟩ wearyStart.progress).exec
      ⟨wearyStart.solver, (begun wearyPlan wearyStart).session⟩).1.isOk = true := by decide +kernel
  have hblown : Blown ⟨wearySphere, false⟩ Watcher.observer ⟨5, 0.0, true⟩ wearyStart := by
    decide +kernel
  obtain ⟨e, h⟩ := Action.exec_eq_of_not_isOk hfail
  obtain ⟨⟨hfailed, -⟩ | ⟨n, hn, -, hleaving⟩, hreason, hguarded, -⟩ :=
    aborted_at_last_iteration ⟨wearySphere, false⟩ Watcher.observer ⟨5, 0.0, true⟩ wearyStart _ trivial
      rfl e h hblown
  · have hok : ((Method.solver.init ⟨wearySphere, false⟩ wearyStart.progress).exec
      ⟨wearyStart.solver, (begun wearyPlan wearyStart).session⟩).1.isOk = false := by
      have hfailed : ((Method.solver.init ⟨wearySphere, false⟩ wearyStart.progress).exec
        ⟨wearyStart.solver, (begun wearyPlan wearyStart).session⟩).1 = .error e := hfailed
      rw [hfailed]
      rfl
    rw [hinit] at hok
    cases hok
  · -- The count of iterations tells which state it is.
    rw [hleaving.progress, hn.iter_eq] at hiter
    obtain rfl : n = 1 := (Nat.zero_add n).symm.trans hiter
    exact ⟨trivial, rfl, wearySphere_keepsHandler, e, _, h, hblown, hn, hleaving, hreason, hguarded rfl⟩

end Run

end Minimization
