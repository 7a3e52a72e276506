import Minimization.Proofs.Method.Resumption
import Minimization.Proofs.Operator.Sphere

namespace Minimization

/-!
# Calling again after a failure

An operator whose answers depend on the point alone may fail once.  The call of `execute` that this
aborts leaves the state of its last complete iteration, and a second call takes the run up again from
there: it ends as the run would have ended.

* `Run.Struck`, `Run.struck_of_error` — what is left of the first call.
* `Run.recovers_opening`, `Run.recovers_iteration` — the second call, from where the first one has
  started and from where it has come to.
* `Run.recovers_from_failure` — both calls.
-/

variable {ω ω' η η' α : Type}

namespace Run

variable [Scalar α] {op : Operator ω α} {op' : Operator ω' α} {spent : ω' → Prop} {Q : η' → Prop}
  {F : Tensor α → Except (Failure α) α} {G H : Tensor α → Except (Failure α) (Tensor α)}
  {O : Observer η α} {O' : Observer η' α} {debug : Bool} {c : RunConfig α}

/-! ### The first call -/

/-- What a call may leave if the failure strikes it: progress and method are those with which it has
    started, or those after an iteration that another one follows, up to what a search has left. -/
inductive Struck (P : Plan (Method α) ω η α) (r : Run (Method α) ω η α) :
    Progress α → Method α → Prop
  | opening : Struck P r r.progress r.solver
  | iteration {n : ℕ} {m : Method α} (hn : Goes P r (n + 1)) (hcap : ¬ r.progress.maxIters = 0)
      (hm : m.resting = (stateAfter P r n).solver.resting) : Struck P r (stateAfter P r n).progress m

section
variable {r final : Run (Method α) ω η α} {q left : Run (Method α) ω' η' α} {f : Failure α}

/-- **What the first call leaves**, if it fails where it succeeds without the failure. -/
theorem struck_of_error (hop : op.Pointwise F G H) (hop' : op'.Transient spent F G H)
    (hO : O'.Quiet Q) (hprogress : q.progress = r.progress) (hsolver : q.solver = r.solver)
    (hm : r.solver.Stateless) (hq : Watches.Attentive Q q.observers)
    (hr : r.progress.reason = .notTerminated)
    (hok : (execute (plan ⟨op, debug⟩ O c)).exec r = (.ok (), final))
    (hfail : (execute (plan ⟨op', debug⟩ O' c)).exec q = (.error f, left)) :
    Struck (plan ⟨op, debug⟩ O c) r left.progress left.solver ∧ spent left.session.host.memory ∧
      Watches.Attentive Q left.observers := by
  obtain ⟨hbroken, hspent, hleft⟩ := broken_of_error Method.lasting_stateless hop hop' hO hprogress
    hsolver hm hq hr hok hfail
  refine ⟨?_, hspent, hleft⟩
  generalize left.progress = p at hbroken
  generalize left.solver = m at hbroken
  -- A failing initialisation leaves the solver as it was; a failing step leaves its settings.
  cases hbroken with
  | opening hinit =>
    have hkept := Method.solver_of_init (plan ⟨op', debug⟩ O' c).setting r.progress
      (w := ⟨r.solver, (begun (plan ⟨op', debug⟩ O' c) q).session⟩) hm
    rw [hinit] at hkept
    rw [hkept]
    exact .opening
  | iteration hn hcap _ hstep =>
    exact .iteration hn hcap (Method.resting_of_step_failed
      ((hn.mono (Nat.le_succ _)).lasts Method.lasting_stateless hm) hstep)

end

/-! ### The second call -/

section
variable {r final : Run (Method α) ω η α} {left : Run (Method α) ω' η' α}

/-- From where the first call has started, the second one does what the run without the failure does. -/
theorem recovers_opening (hop : op.Pointwise F G H) (hop' : op'.Transient spent F G H)
    (hO : O'.Quiet Q) (hm : r.solver.Stateless)
    (hok : (execute (plan ⟨op, debug⟩ O c)).exec r = (.ok (), final))
    (hprogress : left.progress = r.progress) (hsolver : left.solver = r.solver)
    (hspent : spent left.session.host.memory) (hleft : Watches.Attentive Q left.observers) :
    ∃ final', (execute (plan ⟨op', debug⟩ O' c)).exec left = (.ok (), final') ∧
      final'.progress = final.progress ∧ final'.solver = final.solver :=
  resumes_opening Method.lasting_stateless hop hop' hO hm hok hprogress hsolver hspent hleft

/-- The second call takes up the run after the iteration that the first one has come to. -/
theorem recovers_iteration (hop : op.Pointwise F G H) (hop' : op'.Transient spent F G H)
    (hO : O'.Quiet Q) (hm : r.solver.Stateless) (hm' : left.solver.Stateless)
    (hok : (execute (plan ⟨op, debug⟩ O c)).exec r = (.ok (), final)) {n : ℕ}
    (hn : Goes (plan ⟨op, debug⟩ O c) r (n + 1)) (hcap : ¬ r.progress.maxIters = 0)
    (hsettled : ∀ s, left.solver = .quasiNewton s → left.progress.Settled F G)
    (hprogress : left.progress = (stateAfter (plan ⟨op, debug⟩ O c) r n).progress)
    (hresting : left.solver.resting = (stateAfter (plan ⟨op, debug⟩ O c) r n).solver.resting)
    (hspent : spent left.session.host.memory) (hleft : Watches.Attentive Q left.observers) :
    ∃ final', (execute (plan ⟨op', debug⟩ O' c)).exec left = (.ok (), final') ∧
      final'.progress = final.progress ∧ final'.solver = final.solver := by
  have hms : (stateAfter (plan ⟨op, debug⟩ O c) r n).solver.Stateless :=
    (hn.mono (Nat.le_succ n)).lasts Method.lasting_stateless hm
  -- What the failed step has left in the solver is overwritten by the next step before it is read.
  refine resumes_iteration Method.lasting_stateless hop hop' hO hm hok hn hcap hprogress ?_ hspent hleft
  exact ⟨hm'.builtIn, fun t ht => Method.init_again (A := ⟨op', debug⟩) hop' hm' hsettled ht,
    fun hstep => Method.step_of_resting hms hresting hstep⟩

end

/-! ### Both calls -/

/-- A call does not turn a method into another one. -/
theorem stateless_invariant (A : Setting ω α) (O : Observer η α) (c : RunConfig α) (m : Method α) :
    Invariant (plan A O c) fun r => m.StatelessLike r.solver where
  watched _ h := h
  receive _ h := h
  stopped _ h := h
  init_failed h hexec := h.of_dispatch (fun S => S.init A _) hexec
  init h hexec := h.of_dispatch (fun S => S.init A _) hexec
  step_failed h hexec := h.of_dispatch (fun S => S.step A _) hexec
  step h hexec := h.of_dispatch (fun S => S.step A _) hexec
  terminate h hexec := h.of_dispatch (fun S => S.terminate _) hexec

section
variable {K : Type} [Field K] [LinearOrder K] [IsStrictOrderedRing K] [Roots K]

/-- **A failure that passes is made up for by another call.**  The answers of both operators are those
    of the same functions of the point, except that the second one may fail once; observers do not
    fail.  If the run on the first one succeeds where a call on the second one fails, then another
    call succeeds, with the same progress and the same memory of the method at the end. -/
theorem recovers_from_failure {op : Operator ω (Exact K)} {op' : Operator ω' (Exact K)}
    {spent : ω' → Prop} {Q : η' → Prop} {F : Tensor (Exact K) → Except (Failure (Exact K)) (Exact K)}
    {G H : Tensor (Exact K) → Except (Failure (Exact K)) (Tensor (Exact K))}
    (hop : op.Pointwise F G H) (hop' : op'.Transient spent F G H) (O : Observer η (Exact K))
    {O' : Observer η' (Exact K)} (hO : O'.Quiet Q) (debug : Bool) (c : RunConfig (Exact K))
    {r final : Run (Method (Exact K)) ω η (Exact K)} {q left : Run (Method (Exact K)) ω' η' (Exact K)}
    {f : Failure (Exact K)} (hr : r.progress.reason = .notTerminated)
    (hm : r.solver.Recovers F G r.progress.param) (hprogress : q.progress = r.progress)
    (hsolver : q.solver = r.solver) (hq : Watches.Attentive Q q.observers)
    (hok : (execute (plan ⟨op, debug⟩ O c)).exec r = (.ok (), final))
    (hfail : (execute (plan ⟨op', debug⟩ O' c)).exec q = (.error f, left)) :
    ∃ final', (execute (plan ⟨op', debug⟩ O' c)).exec left = (.ok (), final') ∧
      final'.progress = final.progress ∧ final'.solver = final.solver := by
  have hstateless := hm.stateless
  obtain ⟨hstruck, hspent, hleft⟩ :=
    struck_of_error hop hop' hO hprogress hsolver hstateless hq hr hok hfail
  have hkept := (stateless_invariant ⟨op', debug⟩ O' c r.solver).execute (r := q)
    (by rw [hsolver]; exact ⟨hstateless, id⟩)
  rw [hfail] at hkept
  obtain ⟨hm', hkind⟩ := hkept
  generalize hp : left.progress = p at hstruck
  generalize hs : left.solver = m at hstruck
  cases hstruck with
  | opening => exact recovers_opening hop hop' hO hstateless hok hp hs hspent hleft
  | @iteration n _ hn hcap hresting =>
    refine recovers_iteration hop hop' hO hstateless hm' hok hn hcap (fun s hleft => ?_) hp
      (by rw [hs, hresting]) hspent hleft
    -- Of the method at hand it is the progress between two iterations that is settled.
    have hquasi : r.solver.IsQuasiNewton := hkind (by rw [hleft]; trivial)
    cases hstart : r.solver with
    | quasiNewton s₀ =>
      rw [hstart] at hm
      rw [hp]
      exact QuasiNewton.settled_of_reached (A := ⟨op, debug⟩) hop hstart hm
        (hn.consecutive.reached hn.reached n (Nat.le_succ n))
    | _ =>
      rw [hstart] at hquasi
      exact hquasi.elim

end

/-- The sphere function, of which the search in the second iteration asks in vain. -/
def falteringSphere : Operator (Unit × Nat) (Exact ℚ) := sphereOperator.faltering 4 (.operator "broken")

/-- The answers of the sphere function, which has no Hessian. -/
theorem sphereOperator_pointwise : (sphereOperator : Operator Unit (Exact ℚ)).Pointwise
    (fun x => .ok (sphere x)) (fun x => .ok (sphereGradient x))
    fun _ => .error (.unsupported "Problem" .hessian) where
  cost _ _ := ⟨(), rfl⟩
  gradient _ _ := ⟨(), rfl⟩
  hessian _ _ := ⟨(), rfl⟩

/-- The quasi-Newton method with backtracking from the identity. -/
def steadyMethod : Method (Exact ℚ) :=
  .quasiNewton ⟨.ofMat .array (1 : Matrix (Fin 2) (Fin 2) ℚ),
    .backtracking ⟨⟨none, 0.25, 10, 0, none, none⟩, 0.25, 0.5, 0.25⟩⟩

/-- Three iterations without a failure. -/
def smoothPlan : Plan (Method (Exact ℚ)) Unit Empty (Exact ℚ) :=
  plan ⟨sphereOperator, true⟩ noObserver ⟨3, -1.0, true⟩

/-- From the point `(1, 2)`. -/
def smoothStart : Run (Method (Exact ℚ)) Unit Empty (Exact ℚ) :=
  ⟨seeded (.ofVec .array ![1, 2]) 3 none none none, steadyMethod, .start (), []⟩

/-- The same with the failure. -/
def falteringPlan : Plan (Method (Exact ℚ)) (Unit × Nat) (Watcher (Exact ℚ)) (Exact ℚ) :=
  plan ⟨falteringSphere, true⟩ Watcher.observer ⟨3, -1.0, true⟩

/-- The same, with a recorder. -/
def falteringStart : Run (Method (Exact ℚ)) (Unit × Nat) (Watcher (Exact ℚ)) (Exact ℚ) :=
  ⟨seeded (.ofVec .array ![1, 2]) 3 none none none, steadyMethod, .start ((), 0),
    [⟨.always, .recorder []⟩]⟩

/-- The first call makes one iteration, and the second one the other two. -/
theorem recovers_from_failure_faltering :
    ∃ final f left final', (execute smoothPlan).exec smoothStart = (.ok (), final) ∧
      (execute falteringPlan).exec falteringStart = (.error f, left) ∧ left.progress.iter = 1 ∧
      (execute falteringPlan).exec left = (.ok (), final') ∧
      final'.progress = final.progress ∧ final'.solver = final.solver := by
  have hclean : ((execute smoothPlan).exec smoothStart).1.isOk = true := by decide +kernel
  have hbroken : ((execute falteringPlan).exec falteringStart).1.isOk = false := by decide +kernel
  have hiter : ((execute falteringPlan).exec falteringStart).2.progress.iter = 1 := by decide +kernel
  have hmethod : steadyMethod.Recovers (fun x => .ok (sphere x)) (fun x => .ok (sphereGradient x))
      (.ofVec .array ![1, 2]) :=
    ⟨⟨⟨1 / 4, by decide +kernel, by decide +kernel⟩, 1 / 2, by decide +kernel, by decide +kernel⟩,
      .array, 2, ![1, 2], 1, rfl, rfl, fun y => ⟨⟨_, rfl⟩, 2 • y,
        congrArg Except.ok (sphereGradient_ofVec y)⟩⟩
  obtain ⟨f, hfail⟩ := Action.exec_eq_of_not_isOk hbroken
  obtain ⟨final', hagain, hprogress, hsolver⟩ := recovers_from_failure sphereOperator_pointwise
    (sphereOperator_pointwise.faltering 4 (.operator "broken")) noObserver Watcher.observer_quiet true
    ⟨3, -1.0, true⟩ (r := smoothStart) (q := falteringStart) rfl hmethod rfl rfl
    ⟨by simp [falteringStart, Watcher.Sure], by simp [falteringStart, ObserverMode.always]⟩
    (Action.exec_eq_of_isOk hclean) hfail
  exact ⟨_, f, _, final', Action.exec_eq_of_isOk hclean, hfail, hiter, hagain, hprogress, hsolver⟩

end Run

end Minimization
