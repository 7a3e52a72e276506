import Minimization.Proofs.Coupling.Abreast
import Minimization.Proofs.Coupling.Run

namespace Minimization

/-!
# Runs that may part

Runs keep to a bond if their solvers and their observers do; so do the nested runs of line searches
and of the dogleg method, and with them every built-in method.

* `Run.Beside`, `Bond.run` — a bond of sessions and a relation of observers, with the same progress and
  memory on both sides.
* `Hosts` — what runs rely on: besides evaluations and log lines, debug mode finds the same on both
  sides, or may end either of them; `Lockstep.hosts` — a coupling provides it.
* `Plan.Joined`, `Plan.Bonded` — two plans whose parts keep to a bond, outside the steps or all the
  time.
* `Run.rest_bonded` — an iteration after its step, whatever has been before; `Run.iterate_bonded`,
  `Run.execute_bonded` — an iteration, and a whole run that is unguarded.
* `LineSearch.run_bonded`, `TrustRegion.subproblemStep_bonded` — runs inside a step, which nobody
  watches.
* `Method.bonded` — the built-in methods, nested runs included.
-/

variable {σ ω ω' η η' α β : Type}

/-- Runs with the same progress and memory.  Their sessions belong together by `S` and their observers
    by `V`, and the memory has a property. -/
structure Run.Beside (S : Session ω → Session ω' → Prop) (I : σ → Prop)
    (V : List (Watch η) → List (Watch η') → Prop) (r : Run σ ω η α) (q : Run σ ω' η' α) : Prop where
  session : S r.session q.session
  memory : I r.solver
  observers : V r.observers q.observers
  progress : q.progress = r.progress
  solver : q.solver = r.solver

/-- A bond of sessions and a relation of observers, with the same progress and memory on both sides. -/
def Bond.run (α : Type) (I : σ → Prop) (V : List (Watch η) → List (Watch η') → Prop)
    (B : Bond (Session ω) (Session ω')) : Bond (Run σ ω η α) (Run σ ω' η' α) where
  states := Run.Beside B.states I V
  failed := Run.Beside B.failed I V
  failed_of_states h := ⟨B.failed_of_states h.session, h.memory, h.observers, h.progress, h.solver⟩
  first r := B.first r.session
  second q := B.second q.session

/-- What runs rely on besides their solvers and observers. -/
structure Hosts (B : Bond (Session ω) (Session ω')) (A : Setting ω α) (A' : Setting ω' α) : Prop
    extends Abreast B A A' where
  /-- What debug mode finds in an iteration from one pair of sessions to another. -/
  check : ∀ {s t u v}, B.states s t → B.states u v →
    (A'.debug = A.debug ∧
      Counts.decreased? t.counts v.counts = Counts.decreased? s.counts u.counts) ∨
    (B.first u ∧ B.second v)
  failed_log : ∀ {s t}, B.failed s t → ∀ level message,
    B.failed { s with logbook := s.logbook.emit level Logbook.runLogger message }
      { t with logbook := t.logbook.emit level Logbook.runLogger message }
  first_relog : ∀ {s}, B.first s → ∀ b : Logbook, B.first { s with logbook := b }
  second_relog : ∀ {t}, B.second t → ∀ b : Logbook, B.second { t with logbook := b }

/-- Where neither side fails alone, debug mode finds the same on both. -/
theorem Lockstep.hosts {C : Coupling (Session ω) (Session ω')} {A : Setting ω α} {A' : Setting ω' α}
    (h : Lockstep C A A') : Hosts C.bond A A' where
  toAbreast := h.abreast
  check hst huv := .inl ⟨h.debug, by rw [h.counts hst, h.counts huv]⟩
  failed_log := by
    intro s t hst level message
    rw [h.failed.logbook hst]
    exact h.failed.relog hst _
  first_relog hs _ := hs
  second_relog ht _ := ht

/-- Two plans whose parts keep to a bond; nothing is said of the steps. -/
structure Plan.Joined [Scalar α] (I : σ → Prop) (V : List (Watch η) → List (Watch η') → Prop)
    (B : Bond (Session ω) (Session ω')) (P : Plan σ ω η α) (P' : Plan σ ω' η' α) : Prop where
  hosts : Hosts B P.setting P'.setting
  solver : P.solver.Joined (B.keeping I) P.setting P'.setting P'.solver
  introduced : ∀ name notes, (B.run α I V).Related
    (Run.onWatches (Watches.init P.observer name notes))
    (Run.onWatches (Watches.init P'.observer name notes))
  shown : ∀ p notes isNewBest, (B.run α I V).Related
    (Run.onWatches (Watches.iteration P.observer p notes isNewBest))
    (Run.onWatches (Watches.iteration P'.observer p notes isNewBest))
  config : P'.config = P.config

/-- Two plans whose parts keep to a bond. -/
structure Plan.Bonded [Scalar α] (I : σ → Prop) (V : List (Watch η) → List (Watch η') → Prop)
    (B : Bond (Session ω) (Session ω')) (P : Plan σ ω η α) (P' : Plan σ ω' η' α) : Prop
    extends Plan.Joined I V B P P' where
  step : ∀ p, (B.keeping I).Related (P.solver.step P.setting p) (P'.solver.step P'.setting p)

namespace Run

open Bond

/-! ### Part by part -/

/-- The initialisation of a solver, and what is merged and shown of it. -/
theorem exec_opening_eq_resume [Scalar α] (P : Plan σ ω η α) (r : Run σ ω η α) :
    (opening P).exec r = Action.resume
      ((P.solver.init P.setting r.progress).exec ⟨r.solver, r.session⟩)
      (fun report? w => (onWatches (Watches.init P.observer (P.solver.name w.solver)
        ((report?.map (·.notes)).getD []))).exec (opened r report? w))
      fun w => { r with solver := w.solver, session := w.session } := by
  rw [exec_opening]
  rcases (P.solver.init P.setting r.progress).exec ⟨r.solver, r.session⟩ with ⟨_ | _, _⟩ <;> rfl

/-- An iteration after its step. -/
def rest [Scalar α] (P : Plan σ ω η α) (r : Run σ ω η α) (report : Report α) (w : Workspace σ ω) :
    Except (Failure α) Unit × Run σ ω η α :=
  Action.resume ((display P r.session.counts report.notes (r.progress.update report).2).exec
      (counted r report w))
    (fun _ shown => Action.resume
      ((P.solver.terminate shown.progress).exec ⟨shown.solver, shown.session⟩)
      (fun own v => (.ok (), ruled P.config shown own v))
      fun v => { shown with solver := v.solver, session := v.session })
    id

/-- A step, and the rest of the iteration. -/
theorem exec_iterate_eq_resume [Scalar α] (P : Plan σ ω η α) {r : Run σ ω η α}
    (hr : r.progress.reason = .notTerminated) :
    (iterate P).exec r = Action.resume
      ((P.solver.step P.setting r.progress).exec ⟨r.solver, r.session⟩) (rest P r)
      fun w => { r with solver := w.solver, session := w.session } := by
  rw [exec_iterate P hr]
  rcases (P.solver.step P.setting r.progress).exec ⟨r.solver, r.session⟩ with ⟨_ | report, w⟩
  · rfl
  dsimp only [Action.resume, rest]
  rcases (display P r.session.counts report.notes (r.progress.update report).2).exec
    (counted r report w) with ⟨_ | _, shown⟩
  · rfl
  dsimp only
  rcases (P.solver.terminate shown.progress).exec ⟨shown.solver, shown.session⟩ with ⟨_ | _, _⟩ <;> rfl

variable [Scalar α] {I : σ → Prop} {V : List (Watch η) → List (Watch η') → Prop}
  {B : Bond (Session ω) (Session ω')} {P : Plan σ ω η α} {P' : Plan σ ω' η' α} {r : Run σ ω η α}
  {q : Run σ ω' η' α}

omit [Scalar α] in
/-- The states that the solvers of both runs are in. -/
theorem Beside.workspace {S : Session ω → Session ω' → Prop} (h : Beside S I V r q) :
    S r.session q.session ∧ I r.solver ∧
      (⟨q.solver, q.session⟩ : Workspace σ ω') = ⟨r.solver, q.session⟩ :=
  ⟨h.session, h.memory, by rw [h.solver]⟩

omit [Scalar α] in
/-- A line in both logs. -/
theorem logged_bonded {A : Setting ω α} {A' : Setting ω' α} (h : Hosts B A A') (level : Int)
    (message : Unit → String) (hrq : Beside B.states I V r q) :
    Beside B.states I V (logged level message r) (logged level message q) :=
  ⟨(h.log level Logbook.runLogger message hrq.session).of_ok.2, hrq.memory, hrq.observers,
    hrq.progress, hrq.solver⟩

/-- The checks, the log line and the observers. -/
theorem display_bonded (h : Plan.Joined I V B P P') {s : Session ω} {t : Session ω'}
    (hst : B.states s t) (notes : Notes α) (isNewBest : Bool) (hrq : (B.run α I V).states r q) :
    Accord (B.run α I V).states (B.run α I V).failed (B.run α I V).first (B.run α I V).second
      ((display P s.counts notes isNewBest).exec r)
      ((display P' t.counts notes isNewBest).exec q) := by
  have hshown := h.shown r.progress notes isNewBest
    (logged_bonded h.hosts debugLevel (fun _ => iterationLine (P.solver.name r.solver) r.progress) hrq)
  rw [exec_display, exec_display, h.solver.name, hrq.progress, hrq.solver]
  -- The checks of debug mode come first: they agree, or both sides have parted already.
  obtain ⟨hdebug, hverdict⟩ | ⟨hfirst, hsecond⟩ := h.hosts.check hst hrq.session
  · have hsame : inspection P' t.counts q = inspection P s.counts r := by
      unfold inspection finding
      rw [hdebug, h.solver.name, hrq.progress, hrq.solver, hverdict]
    rw [hsame]
    cases inspection P s.counts r with
    | error e => exact .error ((B.run α I V).failed_of_states hrq)
    | ok _ => exact hshown
  · cases inspection P s.counts r with
    | error e => exact .first hfirst
    | ok _ =>
      cases inspection P' t.counts q with
      | error e => exact .second hsecond
      | ok _ => exact hshown

/-- **After a step** that has come to the same on both sides, an iteration goes on in the same way.
    What the two runs were like before the step does not matter. -/
theorem rest_bonded (h : Plan.Joined I V B P P') (hrq : B.states r.session q.session)
    (hobservers : V r.observers q.observers) {report : Report α}
    (hupdate : q.progress.update report = r.progress.update report) {w : Workspace σ ω}
    {v : Workspace σ ω'} (hwv : (B.keeping I).states w v) :
    Accord (B.run α I V).states (B.run α I V).failed (B.run α I V).first (B.run α I V).second
      (rest P r report w) (rest P' q report v) := by
  obtain ⟨_, v⟩ := v
  obtain ⟨hwv, hI, ⟨⟩⟩ := hwv
  have hcounted : Beside B.states I V (counted r report w) (counted q report ⟨w.solver, v⟩) :=
    ⟨hwv, hI, hobservers, by rw [counted, counted, hupdate], rfl⟩
  unfold rest
  rw [hupdate]
  -- A display that has ended in any of the four ways passes that on; only a success is asked whether to
  -- stop.
  refine (display_bonded h hrq report.notes _ hcounted).resume (fun _ shown shown' hshown => ?_)
    (fun _ _ => id) (fun _ => id) fun _ => id
  have hterminate := h.solver.terminate shown.progress (s := ⟨shown.solver, shown.session⟩)
    (t := ⟨shown'.solver, shown'.session⟩) hshown.workspace
  rw [hshown.progress]
  refine hterminate.resume (fun own u u' hu => .ok ?_) (fun u u' hu => ?_) (fun _ => id) fun _ => id
  · obtain ⟨hu, hJ, hmemory⟩ := hu
    refine ⟨hu, hJ, hshown.observers, ?_, congrArg (·.solver) hmemory⟩
    unfold ruled
    rw [h.config, hshown.progress]
  · obtain ⟨hu, hJ, hmemory⟩ := hu
    exact ⟨hu, hJ, hshown.observers, rfl, congrArg (·.solver) hmemory⟩

/-- **An iteration.** -/
theorem iterate_bonded (h : Plan.Bonded I V B P P') (hr : r.progress.reason = .notTerminated)
    (hrq : (B.run α I V).states r q) :
    Accord (B.run α I V).states (B.run α I V).failed (B.run α I V).first (B.run α I V).second
      ((iterate P).exec r) ((iterate P').exec q) := by
  rw [exec_iterate_eq_resume P hr, exec_iterate_eq_resume P' (by rw [hrq.progress]; exact hr),
    hrq.progress]
  refine (h.step r.progress (s := ⟨r.solver, r.session⟩) (t := ⟨q.solver, q.session⟩)
    hrq.workspace).resume (fun report w v hwv => ?_) (fun w v hwv => ?_) (fun _ => id) fun _ => id
  · exact rest_bonded h.toJoined hrq.session hrq.observers (by rw [hrq.progress]) hwv
  · obtain ⟨hwv, hI, hmemory⟩ := hwv
    exact ⟨hwv, hI, hrq.observers, rfl, congrArg (·.solver) hmemory⟩

/-- The loop of a run that the user does not ask to stop. -/
theorem iterations_bonded (h : Plan.Bonded I V B P P')
    (hcalm : ∀ ⦃s t⦄, B.states s t →
      raised P.config s.host.interrupt = false ∧ raised P.config t.host.interrupt = false)
    (fuel : Nat) : (B.run α I V).Related (iterations P fuel) (iterations P' fuel) := by
  -- The fuel is the same on both sides; what is known of one iteration does the rest.
  induction fuel with
  | zero => exact .pure ()
  | succ fuel ih =>
    intro r q hrq
    by_cases hr : r.progress.reason = .notTerminated
    · obtain ⟨hleft, hright⟩ := hcalm hrq.session
      rw [exec_iterations_of_running P fuel hr,
        exec_iterations_of_running P' fuel (by rw [hrq.progress]; exact hr), h.config, hleft, hright,
        if_neg Bool.false_ne_true, if_neg Bool.false_ne_true, Action.exec_bind_eq_resume,
        Action.exec_bind_eq_resume]
      exact (iterate_bonded h hr hrq).resume (fun _ _ _ hnext => ih hnext) (fun _ _ => id)
        (fun _ => id) fun _ => id
    · have hstop := ProgressOn.isTerminated_of_stopped hr
      rw [exec_iterations_of_stopped P _ hstop,
        exec_iterations_of_stopped P' _ (by rw [hrq.progress]; exact hstop)]
      exact .ok hrq

/-- The start of a run. -/
theorem opening_bonded (h : Plan.Joined I V B P P') :
    (B.run α I V).Related (opening P) (opening P') := by
  intro r q hrq
  rw [exec_opening_eq_resume, exec_opening_eq_resume, hrq.progress]
  refine (h.solver.init r.progress (s := ⟨r.solver, r.session⟩) (t := ⟨q.solver, q.session⟩)
    hrq.workspace).resume (fun report? w v hwv => ?_) (fun w v hwv => ?_) (fun _ => id) fun _ => id
  · obtain ⟨_, v⟩ := v
    obtain ⟨hwv, hI, ⟨⟩⟩ := hwv
    rw [h.solver.name]
    exact h.introduced _ _ ⟨hwv, hI, hrq.observers, by
      unfold opened
      rw [hrq.progress], rfl⟩
  · obtain ⟨hwv, hI, hmemory⟩ := hwv
    exact ⟨hwv, hI, hrq.observers, rfl, congrArg (·.solver) hmemory⟩

omit [Scalar α] in
/-- Both runs are stopped for the same reason. -/
theorem stop_bonded (reason : Reason) : (B.run α I V).Related (stop reason) (stop reason) := by
  intro r q hrq
  unfold stop
  simp only [Action.exec_bind, Action.exec_get, Action.exec_ofExcept, Action.exec_modify,
    hrq.progress]
  cases r.progress.setReason reason with
  | error e => exact .error ((B.run α I V).failed_of_states hrq)
  | ok p => exact .ok ⟨hrq.session, hrq.memory, hrq.observers, rfl, hrq.solver⟩

/-- The body of a run that the user does not ask to stop. -/
theorem body_bonded (h : Plan.Bonded I V B P P')
    (hcalm : ∀ ⦃s t⦄, B.states s t →
      raised P.config s.host.interrupt = false ∧ raised P.config t.host.interrupt = false) :
    (B.run α I V).Related (body P) (body P') := by
  rw [body_eq, body_eq]
  refine .bind (opening_bonded h.toJoined) fun _ => ?_
  intro r q hrq
  simp only [Action.exec_bind, Action.exec_get, hrq.progress]
  split
  · exact stop_bonded _ hrq
  · exact iterations_bonded h hcalm _ hrq

/-- **A whole run** that is unguarded. -/
theorem execute_bonded (h : Plan.Bonded I V B P P') (hguard : P.config.guarded = false) :
    (B.run α I V).Related (execute P) (execute P') := by
  intro r q hrq
  have hguard' : P'.config.guarded = false := by rw [h.config, hguard]
  have hbegun : (B.run α I V).states (begun P r) (begun P' q) := by
    unfold begun
    rw [h.config, h.solver.name, hrq.solver, hguard]
    exact logged_bonded h.hosts _ _ hrq
  -- Without a guard neither side looks at interrupts, and none is handed back at the end.
  have hcalm : ∀ i, raised P.config i = false := fun i => by simp [raised, hguard]
  have hbody := body_bonded h (fun _ _ _ => ⟨hcalm _, hcalm _⟩) hbegun
  have hreleased : ∀ t, released P r t = t := fun t => by simp [released, hguard]
  have hreleased' : ∀ t, released P' q t = t := fun t => by simp [released, hguard']
  rw [exec_execute, exec_execute]
  generalize (body P).exec (begun P r) = x at hbody
  generalize (body P').exec (begun P' q) = y at hbody
  -- The ways in which two bodies may end together.
  cases hbody with
  | first hw =>
    refine .first ?_
    unfold aborted
    rw [hreleased]
    split
    · exact h.hosts.first_relog hw _
    · exact hw
  | @second x e v hv =>
    have hend : (B.run α I V).second (aborted P' q e v) := by
      unfold aborted
      rw [hreleased']
      split
      · exact h.hosts.second_relog hv _
      · exact hv
    obtain ⟨_ | _, w⟩ := x
    · exact .second hend
    · exact .second hend
  | @error e u v huv =>
    refine .error ?_
    unfold aborted
    rw [hreleased, hreleased', h.solver.name, hrq.solver, huv.progress]
    split
    · exact ⟨h.hosts.failed_log huv.session _ _, huv.memory, huv.observers, huv.progress, huv.solver⟩
    · exact huv
  | @ok _ u v huv =>
    refine .ok ?_
    unfold finished
    rw [hreleased, hreleased', h.solver.name, hrq.solver, huv.progress]
    exact logged_bonded h.hosts _ _ huv

/-! ### Nested runs -/

omit [Scalar α] in
/-- Nobody is called. -/
theorem exec_onWatches_empty {m : Action (Watches Empty) α β} (r : Run σ ω Empty α) {b : β}
    (h : ∀ logbook, m.exec ⟨[], logbook⟩ = (.ok b, ⟨[], logbook⟩)) :
    (onWatches m).exec r = (.ok b, r) := by
  obtain ⟨p, s, t, l⟩ := r
  cases l with
  | nil =>
    rw [exec_onWatches]
    dsimp only
    rw [h]
    rfl
  | cons w l => exact w.memory.elim

/-- The plans of nested runs. -/
theorem nestedPlan_bonded {A : Setting ω α} {A' : Setting ω' α} {S : Solver σ ω α}
    {S' : Solver σ ω' α} (h : Hosts B A A') (hS : S.Bonded (B.keeping I) A A' S') :
    Plan.Bonded I (fun _ _ => True) B (nestedPlan S A) (nestedPlan S' A') where
  hosts := h
  solver := hS.toJoined
  introduced name notes r q hrq := by
    -- Nobody observes a nested run.
    rw [exec_onWatches_empty (m := Watches.init _ name notes) r fun _ => rfl,
      exec_onWatches_empty (m := Watches.init _ name notes) q fun _ => rfl]
    exact .ok hrq
  shown p notes isNewBest r q hrq := by
    rw [exec_onWatches_empty (m := Watches.iteration _ p notes isNewBest) r fun _ => rfl,
      exec_onWatches_empty (m := Watches.iteration _ p notes isNewBest) q fun _ => rfl]
    exact .ok hrq
  config := rfl
  step := hS.step

/-- What a nested run yields. -/
theorem exec_inner_eq_resume (S : Solver σ ω α) (A : Setting ω α) (start : RunConfig α → Progress α)
    (w : Workspace σ ω) : (inner S A start).exec w = Action.resume
      ((execute (nestedPlan S A)).exec ⟨start (nestedPlan S A).config, w.solver, w.session, []⟩)
      (fun _ r => (.ok r.progress, ⟨r.solver, r.session⟩)) fun r => ⟨r.solver, r.session⟩ := by
  unfold inner
  rw [Action.exec_ofFun]
  rcases (execute (nestedPlan S A)).exec
    ⟨start (nestedPlan S A).config, w.solver, w.session, []⟩ with ⟨_ | _, _⟩ <;> rfl

/-- The run inside a step, on the wrapper that is there. -/
theorem inner_bonded {A : Setting ω α} {A' : Setting ω' α} {S : Solver σ ω α} {S' : Solver σ ω' α}
    (h : Hosts B A A') (hS : S.Bonded (B.keeping I) A A' S') (start : RunConfig α → Progress α) :
    (B.keeping I).Related (inner S A start) (inner S' A' start) := by
  rintro w ⟨_, t⟩ ⟨hs, hI, ⟨⟩⟩
  have hrun := execute_bonded (nestedPlan_bonded h hS) rfl
    (s := ⟨start (nestedPlan S A).config, w.solver, w.session, []⟩)
    (t := ⟨start (nestedPlan S' A').config, w.solver, t, []⟩) ⟨hs, hI, trivial, rfl, rfl⟩
  rw [exec_inner_eq_resume, exec_inner_eq_resume]
  refine hrun.resume (fun _ u v huv => ?_) (fun u v huv => ?_) (fun _ => id) fun _ => id
  · rw [huv.progress]
    exact .ok huv.workspace
  · exact huv.workspace

/-- The run inside a step, on a wrapper of its own. -/
theorem nested_bonded {D : Bond (Session ω) (Session ω')} {A : Setting ω α} {A' : Setting ω' α}
    {S : Solver σ ω α} {S' : Solver σ ω' α} (hnest : B.Nests D) (h : Hosts D A A')
    (hS : S.Bonded (D.keeping I) A A' S') (start : RunConfig α → Progress α) :
    (B.keeping I).Related (nested S A start) (nested S' A' start) := by
  rw [nested_eq, nested_eq]
  exact .nested hnest (inner_bonded h hS start)

end Run

section
open Bond

variable [Scalar α] {B D : Bond (Session ω) (Session ω')} {A : Setting ω α} {A' : Setting ω' α}

omit [Scalar α] in
/-- A direction is no setting. -/
theorem LineSearch.blank_of_setDirection {direction : Option (Tensor α)} {s search : LineSearch α}
    (h : s.setDirection direction = .ok search) : search.blank = s.blank := by
  cases s with
  | backtracking s =>
    obtain rfl := Except.ok.inj h
    rfl
  | strongWolfe s =>
    obtain rfl := Except.ok.inj h
    rfl
  | unsuited text => cases h

/-- **The run of a line search** inside a step.  The search keeps its settings. -/
theorem LineSearch.run_bonded (hnest : B.Nests D) (h : Hosts D A A') (l₀ : LineSearch α)
    (x : Tensor α) (direction : Option (Tensor α)) (cost : Option α) (gradient : Option (Tensor α)) :
    (B.fixing LineSearch.blank l₀).Related (LineSearch.run A x direction cost gradient)
      (LineSearch.run A' x direction cost gradient) := by
  refine .reading fun s hs => ?_
  refine .trying fun search hset => ?_
  have hsearch : search.blank = l₀ := by rw [blank_of_setDirection hset, hs]
  refine .bind (.modifySolver fun _ _ => hsearch) fun _ => ?_
  exact Run.nested_bonded hnest h (LineSearch.bonded h.toAbreast l₀) _

/-- The run of the dogleg method inside a step of the trust-region method. -/
theorem TrustRegion.subproblemStep_bonded (hnest : B.Nests D) (h : Hosts D A A')
    (x gradient hessian : Tensor α) : (B.workspace _).Related
      (TrustRegion.subproblemStep A x gradient hessian)
      (TrustRegion.subproblemStep A' x gradient hessian) := by
  refine .bind .readSolver fun s => ?_
  refine .bind (.ofExcept _) fun dogleg => ?_
  refine .bind (.within (J := fun _ => True) (fun _ _ => trivial) (fun _ _ _ _ => trivial) ?_)
    fun found => .pure _
  exact Run.nested_bonded hnest h (Dogleg.bonded h.toAbreast _) _

/-! ### Methods with what they run -/

/-- Steepest descent, which keeps the settings of its search. -/
theorem SteepestDescent.bonded_fixing (hB : Abreast B A A') (hnest : B.Nests D)
    (h : Hosts D A A') (l₀ : LineSearch α) :
    (SteepestDescent.solver (ω := ω) (α := α)).Bonded (B.fixing LineSearch.blank l₀) A A'
      SteepestDescent.solver :=
  SteepestDescent.bonded hB _ (LineSearch.run_bonded hnest h l₀)

/-- The quasi-Newton method, which keeps them too. -/
theorem QuasiNewton.bonded_fixing (hB : Abreast B A A') (hnest : B.Nests D)
    (h : Hosts D A A') (l₀ : LineSearch α) :
    (QuasiNewton.solver (ω := ω) (α := α)).Bonded (B.fixing (·.search.blank) l₀) A A'
      QuasiNewton.solver :=
  QuasiNewton.bonded hB (fun s => s.blank = l₀) (LineSearch.run_bonded hnest h l₀)

/-- **The built-in methods** keep to a bond, nested runs included. -/
theorem Method.bonded (hB : Abreast B A A') (hnest : B.Nests D) (h : Hosts D A A') :
    (Method.solver (ω := ω) (α := α)).Bonded (B.keeping Method.BuiltIn) A A' Method.solver where
  toJoined := Method.joined hB
  step p := by
    refine dispatch_bonded (fun S => S.step A p) (fun S => S.step A' p) fun m hm => ?_
    cases m with
    | landweber x => exact .wrapped (fun _ => trivial) x ((Landweber.bonded hB _).step p)
    | newton x => exact .wrapped (fun _ => trivial) x ((Newton.bonded hB _).step p)
    | steepestDescent x =>
      exact .wrapped (fun _ => trivial) x
        (.forget fun l₀ => (SteepestDescent.bonded_fixing hB hnest h l₀).step p)
    | quasiNewton x =>
      exact .wrapped (fun _ => trivial) x
        (.forget fun l₀ => (QuasiNewton.bonded_fixing hB hnest h l₀).step p)
    | lineSearch x => exact .wrapped (fun _ => trivial) x ((LineSearch.bonded_workspace hB).step p)
    | dogleg x => exact .wrapped (fun _ => trivial) x ((Dogleg.bonded hB _).step p)
    | trustRegion x =>
      exact .wrapped (fun _ => trivial) x
        ((TrustRegion.bonded hB (TrustRegion.subproblemStep_bonded hnest h)).step p)
    | script x => exact hm.elim

end

end Minimization
