import Minimization.Proofs.Backend.Carried
import Minimization.Proofs.Contract.Nested
import Minimization.Proofs.Coupling.Run
import Minimization.Proofs.Observer.Quiet
import Minimization.Proofs.Run.Ending

namespace Minimization

/-!
# Runs on two backends

A solver that does alike on two backends makes alike runs on them, as far as observers leave it in peace.

* `Plan.Carries` — the same run on two backends.
* `Run.Matched`, `Run.Level` — runs that have come equally far, and what is left of that after a failure.
* `Run.parallel_opening`, `Run.parallel_iterate`, `Run.parallel_execute` — start, iterations and end.
* `Run.goes_matched` — the iterations, one by one.
* `Run.parallel_nested` — the runs inside a step.
-/

variable {σ ω ω' η η' α β : Type} {b b' : Backend} {n : ℕ} {M : ω → ω' → Prop} {U V : σ → σ → Prop}
  {Q : η → Prop} {Q' : η' → Prop}

/-- The same run on two backends.  `M` relates the memories of the two operators, `U` those of the solvers
    before the start, and `V` those after it.  The observers do not fail, as far as `Q` and `Q'` hold of
    what they remember. -/
structure Plan.Carries (b b' : Backend) (n : ℕ) (M : ω → ω' → Prop) (U V : σ → σ → Prop)
    (Q : η → Prop) (Q' : η' → Prop) (P : Plan σ ω η α) (P' : Plan σ ω' η' α) : Prop where
  solver : P.solver.Carries b b' n M U V P.setting P'.setting P'.solver
  debug : P'.setting.debug = P.setting.debug
  config : P'.config = P.config
  observer : P.observer.Quiet Q
  observer' : P'.observer.Quiet Q'

namespace Run

/-- Two runs have come equally far: the progress of the one is that of the other on `b'`, the counts are the
    same, and both can go on alike. -/
structure Matched (b b' : Backend) (n : ℕ) (M : ω → ω' → Prop) (V : σ → σ → Prop) (Q : η → Prop)
    (Q' : η' → Prop) (r : Run σ ω η α) (q : Run σ ω' η' α) : Prop where
  progress : Carried (ProgressOn.Shaped b n) (ProgressOn.onBackend b') r.progress q.progress
  solver : V r.solver q.solver
  session : Minimization.Paired M r.session q.session
  observers : Watches.Attentive Q r.observers
  observers' : Watches.Attentive Q' q.observers

/-- Two runs have come to the same progress and the same counts. -/
structure Level (b' : Backend) (M : ω → ω' → Prop) (r : Run σ ω η α) (q : Run σ ω' η' α) : Prop where
  progress : q.progress = r.progress.onBackend b'
  session : Minimization.Paired M r.session q.session

/-- Runs that can go on alike have come to the same progress and counts. -/
theorem Matched.level {r : Run σ ω η α} {q : Run σ ω' η' α} (h : Matched b b' n M V Q Q' r q) :
    Level b' M r q :=
  ⟨h.progress.2, h.session⟩

variable {r : Run σ ω η α} {q : Run σ ω' η' α} {P : Plan σ ω η α} {P' : Plan σ ω' η' α}

/-! ### What is logged and who is asked to stop -/

/-- A request to stop reaches both runs alike. -/
theorem Level.receive (h : Level b' M r q) (i : Interrupt) : Level b' M (receive i r) (receive i q) :=
  ⟨h.progress, ⟨h.session.host.memory, rfl⟩, h.session.counts⟩

/-- What they log does not count. -/
theorem Level.logged (h : Level b' M r q) (level level' : Int) (message message' : Unit → String) :
    Level b' M (logged level message r) (logged level' message' q) :=
  ⟨h.progress, h.session.host, h.session.counts⟩

/-- A request to stop does not keep them from going on alike. -/
theorem Matched.receive (h : Matched b b' n M V Q Q' r q) (i : Interrupt) :
    Matched b b' n M V Q Q' (receive i r) (receive i q) :=
  ⟨h.progress, h.solver, (h.level.receive i).session, h.observers, h.observers'⟩

/-- Log lines may differ, since nothing in a run depends on them. -/
theorem Matched.logged (h : Matched b b' n M V Q Q' r q) (level level' : Int)
    (message message' : Unit → String) :
    Matched b b' n M V Q Q' (logged level message r) (logged level' message' q) :=
  ⟨h.progress, h.solver, (h.level.logged level level' message message').session, h.observers,
    h.observers'⟩

/-- What their solvers work with belongs together. -/
theorem Matched.workspace (h : Matched b b' n M V Q Q' r q) :
    Workspace.Paired M V ⟨r.solver, r.session⟩ ⟨q.solver, q.session⟩ :=
  ⟨h.solver, h.session⟩

/-- They stop for the same reason or both go on. -/
theorem Matched.reason (h : Matched b b' n M V Q Q' r q) : q.progress.reason = r.progress.reason := by
  rw [h.progress.2, ProgressOn.reason_onBackend]

/-- They may be stopped for the same reason. -/
theorem Matched.stopped (h : Matched b b' n M V Q Q' r q) (reason : Reason) :
    Matched b b' n M V Q Q' { r with progress := { r.progress with reason := reason } }
      { q with progress := { q.progress with reason := reason } } where
  progress := ⟨h.progress.1.stopped reason, by
    show ({ q.progress with reason := reason } : Progress α) = _
    rw [h.progress.2]
    rfl⟩
  solver := h.solver
  session := h.session
  observers := h.observers
  observers' := h.observers'

/-- What observers that do not fail are shown leaves the runs as far as they are. -/
theorem parallel_onWatches (h : Matched b b' n M V Q Q' r q) {m : Action (Watches η) α Unit}
    {m' : Action (Watches η') α Unit}
    (hm : m.Ends ⟨r.observers, r.session.logbook⟩ (fun _ after => Watches.Attentive Q after.list)
      fun _ => False)
    (hm' : m'.Ends ⟨q.observers, q.session.logbook⟩ (fun _ after => Watches.Attentive Q' after.list)
      fun _ => False) :
    Parallel (fun _ _ => Matched b b' n M V Q Q') (Level b' M) ((onWatches m).exec r)
      ((onWatches m').exec q) := by
  obtain ⟨_, after, hexec, hafter⟩ := hm.exists_ok
  obtain ⟨_, after', hexec', hafter'⟩ := hm'.exists_ok
  rw [exec_onWatches, exec_onWatches, hexec, hexec']
  exact .ok ⟨h.progress, h.solver, ⟨h.session.host, h.session.counts⟩, hafter, hafter'⟩

/-! ### Iterations -/

variable [Scalar α]

/-- The checks find something on both sides or on neither. -/
theorem kindred_inspection (h : Plan.Carries b b' n M U V Q Q' P P') (before : Counts)
    (hrq : Matched b b' n M V Q Q' r q) :
    Kindred (fun _ _ => True) (inspection P before r) (inspection P' before q) := by
  unfold inspection finding
  rw [h.debug, hrq.progress.2, ProgressOn.cost_onBackend, hrq.session.counts]
  split
  · split
    · exact .error rfl
    · cases Counts.decreased? before r.session.counts with
      | none => exact .ok trivial
      | some capability => exact .error rfl
  · exact .ok trivial

/-- What is checked and shown after a step leaves both as far as they were, or fails on both sides. -/
theorem parallel_display (h : Plan.Carries b b' n M U V Q Q' P P') (before : Counts) (notes : Notes α)
    (isNewBest : Bool) (hrq : Matched b b' n M V Q Q' r q) :
    Parallel (fun _ _ => Matched b b' n M V Q Q') (Level b' M)
      ((display P before notes isNewBest).exec r) ((display P' before notes isNewBest).exec q) := by
  rw [exec_display, exec_display]
  have hfound := kindred_inspection h before hrq
  generalize inspection P before r = x at hfound
  generalize inspection P' before q = y at hfound
  cases hfound with
  | error hkind => exact .error hkind hrq.level
  | ok _ =>
    refine parallel_onWatches (hrq.logged _ _ _ _) ?_ ?_
    · exact h.observer.ends_iteration r.progress notes isNewBest hrq.observers
    · exact h.observer'.ends_iteration q.progress notes isNewBest hrq.observers'

/-- Reports are merged on both sides. -/
theorem Matched.counted (h : Matched b b' n M V Q Q' r q) {report : Report α}
    {w : Workspace σ ω} {v : Workspace σ ω'} (hreport : report.Shaped b n)
    (hwv : Workspace.Paired M V w v) :
    Matched b b' n M V Q Q' (counted r report w) (counted q (report.onBackend b') v) where
  progress := by
    refine ⟨(h.progress.1.update hreport).increment, ?_⟩
    show (q.progress.update (report.onBackend b')).1.increment = _
    rw [h.progress.2, ProgressOn.update_onBackend]
    rfl
  solver := hwv.solver
  session := hwv.session
  observers := h.observers
  observers' := h.observers'

/-- The rules look at numbers only. -/
theorem Matched.ruled (h : Matched b b' n M V Q Q' r q) (c : RunConfig α) (own : Reason)
    {w : Workspace σ ω} {v : Workspace σ ω'} (hwv : Workspace.Paired M V w v) :
    Matched b b' n M V Q Q' (ruled c r own w) (ruled c q own v) where
  progress := by
    refine ⟨h.progress.1.stopped _, ?_⟩
    show ({ q.progress with reason := ruling c q.progress own } : Progress α) = _
    rw [h.progress.2]
    rfl
  solver := hwv.solver
  session := hwv.session
  observers := h.observers
  observers' := h.observers'

/-- **An iteration.** -/
theorem parallel_iterate (h : Plan.Carries b b' n M U V Q Q' P P') (hrq : Matched b b' n M V Q Q' r q)
    (hgo : r.progress.reason = .notTerminated) :
    Parallel (fun _ _ => Matched b b' n M V Q Q') (Level b' M) ((iterate P).exec r)
      ((iterate P').exec q) := by
  have hstep := h.solver.step hrq.progress.1 hrq.workspace
  rw [← hrq.progress.2] at hstep
  rw [exec_iterate P hgo, exec_iterate P' (hrq.reason.trans hgo)]
  -- The parts of an iteration in turn: step, display, the question whether to stop.  Each may end it.
  obtain ⟨e, e', w, v, hw, hv, hkind, hR⟩ | ⟨report, _, w, v, hw, hv, ⟨hreport, rfl⟩, hwv⟩ := hstep.both
  · rw [hw, hv]
    exact .error hkind ⟨hrq.progress.2, hR⟩
  have hupdate : (q.progress.update (report.onBackend b')).2 = (r.progress.update report).2 := by
    rw [hrq.progress.2, ProgressOn.update_onBackend]
  rw [hw, hv]
  dsimp only
  rw [hupdate, hrq.session.counts, ReportOn.notes_onBackend]
  obtain ⟨e, e', shown, shown', hw, hv, hkind, hlevel⟩ | ⟨_, _, shown, shown', hw, hv, hshown⟩ :=
    (parallel_display h r.session.counts report.notes (r.progress.update report).2
      (hrq.counted hreport hwv)).both
  · rw [hw, hv]
    exact .error hkind hlevel
  have hterminate := h.solver.terminate hshown.progress.1 hshown.workspace
  rw [← hshown.progress.2] at hterminate
  rw [hw, hv]
  dsimp only
  obtain ⟨e, e', w, v, hw, hv, hkind, hR⟩ | ⟨own, _, w, v, hw, hv, rfl, hwv⟩ := hterminate.both
  · rw [hw, hv]
    exact .error hkind ⟨hshown.progress.2, hR⟩
  · rw [hw, hv, h.config]
    exact .ok (hshown.ruled P.config own hwv)

/-- **The start of a run.** -/
theorem parallel_opening (h : Plan.Carries b b' n M U V Q Q' P P') (hrq : Matched b b' n M U Q Q' r q) :
    Parallel (fun _ _ => Matched b b' n M V Q Q') (Level b' M) ((opening P).exec r)
      ((opening P').exec q) := by
  have hinit := h.solver.init hrq.progress.1 hrq.workspace
  rw [← hrq.progress.2] at hinit
  rw [exec_opening, exec_opening]
  -- What the initialisation reports is merged on both sides before observers are called.
  obtain ⟨e, e', w, v, hw, hv, hkind, hR⟩ | ⟨report?, _, w, v, hw, hv, ⟨hreport, rfl⟩, hwv⟩ := hinit.both
  · rw [hw, hv]
    exact .error hkind ⟨hrq.progress.2, hR⟩
  rw [hw, hv]
  have hopened : Matched b b' n M V Q Q' (opened r report? w)
      (opened q (report?.map (ReportOn.onBackend b')) v) := by
    refine ⟨?_, hwv.solver, hwv.session, hrq.observers, hrq.observers'⟩
    cases report? with
    | none => exact hrq.progress
    | some report =>
      refine ⟨hrq.progress.1.update (hreport report rfl), ?_⟩
      show (q.progress.update (report.onBackend b')).1 = _
      rw [hrq.progress.2, ProgressOn.update_onBackend]
      rfl
  refine parallel_onWatches hopened ?_ ?_
  · exact h.observer.ends_init _ _ hopened.observers
  · exact h.observer'.ends_init _ _ hopened.observers'

/-! ### Whole runs -/

/-- **All the iterations**, by induction on the number that is allowed. -/
theorem parallel_iterations (h : Plan.Carries b b' n M U V Q Q' P P') (fuel : ℕ)
    (hrq : Matched b b' n M V Q Q' r q) :
    Parallel (fun _ _ => Matched b b' n M V Q Q') (Level b' M) ((iterations P fuel).exec r)
      ((iterations P' fuel).exec q) := by
  -- The runs stop for the same reasons, so one lemma about an iteration carries the induction.
  induction fuel generalizing r q with
  | zero => exact .ok hrq
  | succ fuel ih =>
    by_cases hgo : r.progress.reason = .notTerminated
    · rw [exec_iterations_of_running P fuel hgo,
        exec_iterations_of_running P' fuel (hrq.reason.trans hgo), h.config, hrq.session.host.interrupt]
      split
      · exact .ok (hrq.stopped .keyboardInterrupt)
      · refine .bind (parallel_iterate h hrq hgo) ?_
        rintro _ _ r q hrq
        exact ih hrq
    · rw [exec_iterations_of_stopped P _ (ProgressOn.isTerminated_of_stopped hgo),
        exec_iterations_of_stopped P' _
          (ProgressOn.isTerminated_of_stopped (mt hrq.reason.symm.trans hgo))]
      exact .ok hrq

omit [Scalar α] in
/-- A run that is stopped at its cap is stopped on the other side as well. -/
theorem parallel_stop (hrq : Matched b b' n M V Q Q' r q) (reason : Reason) :
    Parallel (fun _ _ => Matched b b' n M V Q Q') (Level b' M) ((stop reason).exec r)
      ((stop reason).exec q) := by
  -- The refusal of a second reason looks at reasons only.
  have hset : Kindred (fun p p' => p = { r.progress with reason := reason } ∧
        p' = { q.progress with reason := reason })
      (r.progress.setReason reason) (q.progress.setReason reason) := by
    unfold ProgressOn.setReason ProgressOn.isTerminated
    rw [hrq.reason]
    split
    · exact .error rfl
    · exact .ok ⟨rfl, rfl⟩
  show Parallel _ _
    ((Action.ofExcept (r.progress.setReason reason) >>= fun p =>
      modify fun r => { r with progress := p }).exec r)
    ((Action.ofExcept (q.progress.setReason reason) >>= fun p =>
      modify fun q => { q with progress := p }).exec q)
  refine .ofExcept_bind hset hrq.level ?_
  rintro _ _ ⟨rfl, rfl⟩
  exact .ok (hrq.stopped reason)

/-- A run from its start to its end. -/
theorem parallel_body (h : Plan.Carries b b' n M U V Q Q' P P') (hrq : Matched b b' n M U Q Q' r q) :
    Parallel (fun _ _ => Matched b b' n M V Q Q') (Level b' M) ((body P).exec r) ((body P').exec q) := by
  rw [body_eq, body_eq]
  refine .bind (parallel_opening h hrq) ?_
  rintro _ _ r q hrq
  have hmax : q.progress.maxIters = r.progress.maxIters := by
    rw [hrq.progress.2, ProgressOn.maxIters_onBackend]
  -- The fuel is computed from the cap and the count of iterations, which the runs share.
  have hleft : iterationsLeft q.progress = iterationsLeft r.progress := by
    unfold iterationsLeft
    rw [hmax, hrq.progress.2, ProgressOn.iter_onBackend]
  show Parallel _ _
    ((if r.progress.maxIters = 0 then stop .maxIters
      else iterations P (iterationsLeft r.progress)).exec r)
    ((if q.progress.maxIters = 0 then stop .maxIters
      else iterations P' (iterationsLeft q.progress)).exec q)
  rw [hmax, hleft]
  split
  · exact parallel_stop hrq .maxIters
  · exact parallel_iterations h _ hrq

omit [Scalar α] in
/-- Runs that begin with the same progress begin alike. -/
theorem Matched.begun (h : Plan.Carries b b' n M U V Q Q' P P') (hrq : Matched b b' n M U Q Q' r q) :
    Matched b b' n M U Q Q' (begun P r) (begun P' q) := by
  unfold Run.begun
  rw [h.config]
  split
  · exact (hrq.logged _ _ _ _).receive _
  · exact hrq.logged _ _ _ _

omit [Scalar α] in
/-- At their end the requests to stop are received as they were before. -/
theorem Matched.released (h : Plan.Carries b b' n M U V Q Q' P P') (hrq : Matched b b' n M U Q Q' r q)
    {t : Run σ ω η α} {u : Run σ ω' η' α} (htu : Matched b b' n M V Q Q' t u) :
    Matched b b' n M V Q Q' (released P r t) (released P' q u) := by
  unfold Run.released
  rw [h.config, hrq.session.host.interrupt]
  split
  · exact htu.receive _
  · exact htu

omit [Scalar α] in
/-- So they are after a failure. -/
theorem Level.released (h : Plan.Carries b b' n M U V Q Q' P P') (hrq : Matched b b' n M U Q Q' r q)
    {t : Run σ ω η α} {u : Run σ ω' η' α} (htu : Level b' M t u) :
    Level b' M (released P r t) (released P' q u) := by
  unfold Run.released
  rw [h.config, hrq.session.host.interrupt]
  split
  · exact htu.receive _
  · exact htu

/-- What is logged about an abort need not be the same. -/
theorem Level.aborted (h : Plan.Carries b b' n M U V Q Q' P P') (hrq : Matched b b' n M U Q Q' r q)
    {t : Run σ ω η α} {u : Run σ ω' η' α} (htu : Level b' M t u) (e e' : Failure α) :
    Level b' M (aborted P r e t) (aborted P' q e' u) := by
  have hreleased := htu.released h hrq
  unfold Run.aborted
  split <;> split
  · exact hreleased.logged _ _ _ _
  · exact ⟨hreleased.progress, hreleased.session.host, hreleased.session.counts⟩
  · exact ⟨hreleased.progress, hreleased.session.host, hreleased.session.counts⟩
  · exact hreleased

/-- **A whole run.** -/
theorem parallel_execute (h : Plan.Carries b b' n M U V Q Q' P P') (hrq : Matched b b' n M U Q Q' r q) :
    Parallel (fun _ _ => Matched b b' n M V Q Q') (Level b' M) ((execute P).exec r)
      ((execute P').exec q) := by
  rw [exec_execute, exec_execute]
  obtain ⟨e, e', t, u, ht, hu, hkind, htu⟩ | ⟨_, _, t, u, ht, hu, htu⟩ :=
    (parallel_body h (hrq.begun h)).both
  · rw [ht, hu]
    exact .error hkind (htu.aborted h hrq e e')
  · rw [ht, hu]
    exact .ok ((Matched.released h hrq htu).logged _ _ _ _)

/-! ### The iterations, one by one -/

/-- A run makes one more iteration if it has not stopped, nobody has asked it to, and the iteration
    succeeds. -/
theorem goes_succ_iff {i : ℕ} : Goes P r (i + 1) ↔
    Goes P r i ∧ (stateAfter P r i).progress.reason = .notTerminated ∧
      raised P.config (stateAfter P r i).session.host.interrupt = false ∧
      ((iterate P).exec (stateAfter P r i)).1.isOk = true := by
  have hlast := Nat.lt_succ_self i
  constructor
  · intro h
    exact ⟨h.mono (Nat.le_succ i), h.running i hlast, h.undisturbed i hlast, h.succeeds i hlast⟩
  · rintro ⟨h, hgo, hraised, hok⟩
    exact h.next hgo hraised hok

/-- **The iterations of two runs belong together**: the one makes as many as the other, and after every one
    of them they have come equally far. -/
theorem goes_matched (h : Plan.Carries b b' n M U V Q Q' P P') (hrq : Matched b b' n M U Q Q' r q) (i : ℕ) :
    (Goes P r i ↔ Goes P' q i) ∧
      (Goes P r i → Matched b b' n M V Q Q' (stateAfter P r i) (stateAfter P' q i)) := by
  induction i with
  | zero =>
    have hopening := parallel_opening h (hrq.begun h)
    refine ⟨⟨fun hr => .zero ?_, fun hq => .zero ?_⟩, fun hr => hopening.states hr.opens⟩
    · exact hopening.isOk_eq.trans hr.opens
    · exact hopening.isOk_eq.symm.trans hq.opens
  | succ i ih =>
    obtain ⟨hiff, hmatched⟩ := ih
    -- Whether there is a next iteration is decided by what the two have in common.
    have hnext (hi : Goes P r i) (hgo : (stateAfter P r i).progress.reason = .notTerminated) :=
      parallel_iterate h (hmatched hi) hgo
    have hinterrupt (hi : Goes P r i) :
        raised P'.config (stateAfter P' q i).session.host.interrupt =
          raised P.config (stateAfter P r i).session.host.interrupt := by
      rw [h.config, (hmatched hi).session.host.interrupt]
    rw [goes_succ_iff, goes_succ_iff]
    refine ⟨⟨?_, ?_⟩, ?_⟩
    · rintro ⟨hi, hgo, hraised, hok⟩
      exact ⟨hiff.1 hi, (hmatched hi).reason.trans hgo, (hinterrupt hi).trans hraised,
        (hnext hi hgo).isOk_eq.trans hok⟩
    · rintro ⟨hi, hgo, hraised, hok⟩
      have hi := hiff.2 hi
      have hgo := (hmatched hi).reason.symm.trans hgo
      exact ⟨hi, hgo, (hinterrupt hi).symm.trans hraised, (hnext hi hgo).isOk_eq.symm.trans hok⟩
    · rintro ⟨hi, hgo, -, hok⟩
      exact (hnext hi hgo).states hok

/-! ### Where runs start -/

/-- The same start, from the same values. -/
theorem seeded_onBackend (b : Backend) (x : Tensor α) (maxIters : Int) (cost? : Option α)
    (gradient? hessian? : Option (Tensor α)) :
    (seeded x maxIters cost? gradient? hessian?).onBackend b =
      seeded (x.onBackend b) maxIters cost? (gradient?.map (·.onBackend b))
        (hessian?.map (·.onBackend b)) := by
  cases cost? <;> cases gradient? <;> cases hessian? <;> rfl

/-- What a nested run starts from has the right shape if what is handed over has. -/
theorem seeded_shaped {x : Tensor α} (hx : x.Shaped b [n]) (maxIters : Int) (cost? : Option α)
    (gradient? hessian? : Option (Tensor α)) (hg : ∀ g, gradient? = some g → g.Shaped b [n])
    (hh : ∀ m, hessian? = some m → m.Square b n) :
    (seeded x maxIters cost? gradient? hessian?).Shaped b n := by
  cases cost? <;> cases gradient? <;> cases hessian? <;> exact ⟨hx, hg, hh⟩

/-- A start from values that belong together. -/
theorem seeded_carried {x : Tensor α} (hx : x.Shaped b [n]) (maxIters : Int) (cost? : Option α)
    (gradient? hessian? : Option (Tensor α)) (hg : ∀ g, gradient? = some g → g.Shaped b [n])
    (hh : ∀ m, hessian? = some m → m.Square b n) :
    Carried (ProgressOn.Shaped b n) (ProgressOn.onBackend b')
      (seeded x maxIters cost? gradient? hessian?)
      (seeded (x.onBackend b') maxIters cost? (gradient?.map (·.onBackend b'))
        (hessian?.map (·.onBackend b'))) :=
  ⟨seeded_shaped hx maxIters cost? gradient? hessian? hg hh,
    (seeded_onBackend b' x maxIters cost? gradient? hessian?).symm⟩

/-! ### Nested runs -/

omit [Scalar α] in
/-- Without observers none fails. -/
theorem noObserver_quiet : (noObserver (α := α)).Quiet fun _ => False where
  init _ _ _ h := h.elim
  iteration _ _ _ h := h.elim

omit [Scalar α] in
/-- Where there are no observers, none of them fails. -/
theorem nobody_attentive {Q : η → Prop} : Watches.Attentive Q ([] : List (Watch η)) :=
  ⟨nofun, nofun⟩

variable {A : Setting ω α} {A' : Setting ω' α} {S : Solver σ ω α} {S' : Solver σ ω' α}

/-- **A nested run.** -/
theorem parallel_nested (hS : S.Carries b b' n M U V A A' S') (hdebug : A'.debug = A.debug)
    {start start' : RunConfig α → Progress α}
    (hstart : ∀ c, Carried (ProgressOn.Shaped b n) (ProgressOn.onBackend b') (start c) (start' c))
    {w : Workspace σ ω} {v : Workspace σ ω'} (hwv : Workspace.Paired M U w v) :
    Parallel (fun p p' w v => Carried (ProgressOn.Shaped b n) (ProgressOn.onBackend b') p p' ∧
        Workspace.Paired M V w v)
      (Workspace.onSessions (Minimization.Paired M)) ((nested S A start).exec w)
      ((nested S' A' start').exec v) := by
  -- Nested runs have no observers, so there is nothing to be said about them.
  have hplan : Plan.Carries b b' n M U V (fun _ => False) (fun _ => False) (nestedPlan S A)
      (nestedPlan S' A') := ⟨hS, hdebug, rfl, noObserver_quiet, noObserver_quiet⟩
  have hinner {w : Workspace σ ω} {v : Workspace σ ω'} (hwv : Workspace.Paired M U w v) :
      Parallel (fun p p' w v => Carried (ProgressOn.Shaped b n) (ProgressOn.onBackend b') p p' ∧
          Workspace.Paired M V w v)
        (Workspace.onSessions (Minimization.Paired M)) ((inner S A start).exec w)
        ((inner S' A' start').exec v) := by
    unfold inner
    rw [Action.exec_ofFun, Action.exec_ofFun]
    obtain ⟨e, e', r, q, hr, hq, hkind, hlevel⟩ | ⟨_, _, r, q, hr, hq, hrq⟩ :=
      (parallel_execute hplan (r := ⟨start (nestedPlan S A).config, w.solver, w.session, []⟩)
        (q := ⟨start' (nestedPlan S' A').config, v.solver, v.session, []⟩)
        ⟨hstart _, hwv.solver, hwv.session, nobody_attentive, nobody_attentive⟩).both
    · rw [hr, hq]
      exact .error hkind hlevel.session
    · rw [hr, hq]
      exact .ok ⟨hrq.progress, hrq.workspace⟩
  -- What the nested runs have counted is added to the same counts outside.
  have hcounts := hwv.session.counts
  rw [nested_eq, nested_eq]
  refine .nested (hinner (w := w.withCounts .zero) (v := v.withCounts .zero)
    ⟨hwv.solver, hwv.session.host, rfl⟩) ?_ ?_
  · rintro p p' w' v' ⟨hp, hwv'⟩
    refine ⟨hp, hwv'.solver, hwv'.session.host, ?_⟩
    show v.session.counts + v'.session.counts = w.session.counts + w'.session.counts
    rw [hcounts, hwv'.session.counts]
  · rintro s t hst
    exact ⟨hst.host, hcounts⟩

end Run

end Minimization
