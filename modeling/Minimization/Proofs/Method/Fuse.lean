import Minimization.Proofs.Counts.Runs
import Minimization.Proofs.Coupling.Alone
import Minimization.Proofs.Run.Ending

namespace Minimization

/-!
# Where an evaluation fails

An operator can be given a fuse that blows when an evaluation fails.  It answers as before, so the fuse
tells of any run whether an evaluation has failed in it.  A run of a built-in method in which that
happens fails in the initialisation of its solver or in a step, because nothing else in a run
evaluates the operator.

* `Operator.fused` — the operator with a fuse.
* `Session.fused`, `Run.fused` — states in which the operator has one.
* `fuse`, `fuse_lockstep` — as long as nothing has failed the fuse is whole.
* `Run.stateAfter_related` — the iterations of two runs that keep to a coupling.
* `Run.host_opening`, `Run.host_iterate` — the host is left alone by all but the solver;
  `Run.stateAfter_kept` — so what evaluations keep is kept in all iterations.
* `Run.Blown` — an evaluation has failed in a run; `Run.site_of_blown` — where that was.
-/

variable {σ ω ω' η α β : Type}

/-! ### Fuses -/

/-- Carries out an evaluation.  The fuse blows if it fails. -/
def Action.fused (m : Action (Host ω) α β) : Action (Host (ω × Bool)) α β :=
  .ofFun fun h =>
    let (outcome, after) := m.exec ⟨h.memory.1, h.interrupt⟩
    (outcome, ⟨(after.memory, h.memory.2 || !outcome.isOk), after.interrupt⟩)

/-- The operator with a fuse.  A question that it cannot answer is an evaluation that fails. -/
def Operator.fused (op : Operator ω α) : Operator (ω × Bool) α where
  name := op.name
  cost? := some fun x => (op.cost x).fused
  gradient? := some fun x => (op.gradient x).fused
  hessian? := some fun x => (op.hessian x).fused
  jacobian? := some fun x => (op.jacobian x).fused

/-- The setting with a fuse. -/
def Setting.fused (A : Setting ω α) : Setting (ω × Bool) α := ⟨A.operator.fused, A.debug⟩

/-- The session of an operator with a fuse. -/
def Session.fused (s : Session ω) (blown : Bool) : Session (ω × Bool) :=
  ⟨⟨(s.host.memory, blown), s.host.interrupt⟩, s.counts, s.logbook⟩

/-- The run of an operator with a fuse. -/
def Run.fused (r : Run σ ω η α) (blown : Bool) : Run σ (ω × Bool) η α :=
  ⟨r.progress, r.solver, r.session.fused blown, r.observers⟩

/-- As long as nothing has failed the fuse is whole. -/
def fuse (ω : Type) : Coupling (Session ω) (Session (ω × Bool)) where
  states s t := t = s.fused false
  failed s t := ∃ blown, t = s.fused blown
  failed_of_states h := ⟨false, h⟩

/-- An evaluation blows the fuse exactly if it fails. -/
theorem fuse_evaluate (k : Capability) (m : Action (Host ω) α β) :
    (fuse ω).Related (Session.evaluate k m) (Session.evaluate k m.fused) := by
  rintro s t rfl
  -- Both calls run the same evaluation; the fuse only remembers whether it failed.
  have hleft : (Session.evaluate k m).exec s = ((m.exec s.host).1,
      ⟨(m.exec s.host).2, s.counts.tick k, s.logbook⟩) := rfl
  have hright : (Session.evaluate k m.fused).exec (s.fused false) = ((m.exec s.host).1,
      Session.fused ⟨(m.exec s.host).2, s.counts.tick k, s.logbook⟩
        (false || !(m.exec s.host).1.isOk)) := rfl
  rw [hleft, hright]
  cases (m.exec s.host).1 with
  | ok b => exact .ok rfl
  | error e => exact .error ⟨true, rfl⟩

/-- Evaluations and log lines, with a fuse and without. -/
theorem fuse_lockstep (A : Setting ω α) : Lockstep (fuse ω) A A.fused where
  debug := rfl
  cost x := fuse_evaluate .cost (A.operator.cost x)
  gradient x := fuse_evaluate .gradient (A.operator.gradient x)
  hessian x := fuse_evaluate .hessian (A.operator.hessian x)
  counts := by
    rintro s t rfl
    rfl
  states :=
    { logbook := by
        rintro s t rfl
        rfl
      relog := by
        rintro s t rfl b
        rfl
      interrupt := by
        rintro s t rfl
        rfl
      receive := by
        rintro s t rfl i
        rfl }
  failed :=
    { logbook := by
        rintro s t ⟨blown, rfl⟩
        rfl
      relog := by
        rintro s t ⟨blown, rfl⟩ b
        exact ⟨blown, rfl⟩
      interrupt := by
        rintro s t ⟨blown, rfl⟩
        rfl
      receive := by
        rintro s t ⟨blown, rfl⟩ i
        exact ⟨blown, rfl⟩ }

/-- The session of a nested run has the fuse of the session around it. -/
theorem fuse_nests : (fuse ω).bond.Nests (fuse ω).bond where
  enter := by
    rintro s t rfl
    rfl
  leave := by
    rintro s t u v rfl rfl
    rfl
  failed := by
    rintro s t u v rfl ⟨blown, rfl⟩
    exact ⟨blown, rfl⟩
  first h _ := h
  second h _ := h

variable [Scalar α]

/-- A method does not look at the fuse. -/
theorem Method.fuse_follows (A : Setting ω α) :
    (Method.solver (ω := ω) (α := α)).Follows ((fuse ω).keeping Method.BuiltIn) A A.fused
      Method.solver :=
  (Method.bonded (fuse_lockstep A).abreast fuse_nests (fuse_lockstep A).hosts).follows

namespace Run

/-! ### Iterations of two runs -/

/-- **The iterations of two runs** that keep to a coupling: if the one makes so many, so does the other,
    and after every one of them the two belong together. -/
theorem stateAfter_related {I : σ → Prop} {C : Coupling (Session ω) (Session ω')}
    {P : Plan σ ω η α} {P' : Plan σ ω' η α} (h : Plan.Follows I C P P') {r : Run σ ω η α}
    {q : Run σ ω' η α} (hrq : (C.run η α I).states r q) {n : ℕ} (hn : Goes P r n) :
    Goes P' q n ∧ (C.run η α I).states (stateAfter P r n) (stateAfter P' q n) := by
  induction n with
  -- The opening first, then one iteration after the other: what succeeds on the left succeeds on the
  -- right.
  | zero =>
    have hopening := opening_related h.toAttends (begun_states h.toAttends hrq)
    rw [hn.opening_eq] at hopening
    generalize hq : (opening P').exec (begun P' q) = y at hopening
    cases hopening with
    | @ok _ _ u hu =>
      have hstate : stateAfter P' q 0 = u := congrArg Prod.snd hq
      rw [hstate]
      exact ⟨⟨by rw [hq]; rfl, fun _ h => absurd h (Nat.not_lt_zero _),
        fun _ h => absurd h (Nat.not_lt_zero _), fun _ h => absurd h (Nat.not_lt_zero _)⟩, hu⟩
  | succ n ih =>
    have hlast := Nat.lt_succ_self n
    obtain ⟨hgoes, hstates⟩ := ih (hn.mono (Nat.le_succ n))
    have hprogress : (stateAfter P' q n).progress = (stateAfter P r n).progress := by
      rw [hstates.2.2]
    have hiterate := iterate_related h.toAttends (hn.running n hlast) hstates
      (h.step _ ⟨hstates.1, hstates.2.1, rfl⟩)
    rw [hn.iterate_eq hlast] at hiterate
    generalize hq : (iterate P').exec (stateAfter P' q n) = y at hiterate
    cases hiterate with
    | @ok _ _ u hu =>
      have hstate : stateAfter P' q (n + 1) = u := congrArg Prod.snd hq
      rw [hstate]
      -- The two runs share the progress and the interrupt, so the second goes on where the first does.
      refine ⟨hgoes.next ?_ ?_ (by rw [hq]; rfl), hu⟩
      · rw [hprogress]
        exact hn.running n hlast
      · rw [h.config, h.lockstep.states.interrupt hstates.1]
        exact hn.undisturbed n hlast

variable {A : Setting ω α} {O : Observer η α} {c : RunConfig α}

/-! ### What leaves the host alone -/

/-- After the initialisation the start of a run leaves the host alone. -/
theorem host_opening {P : Plan σ ω η α} {r : Run σ ω η α} {report? : Option (Report α)}
    {w : Workspace σ ω}
    (h : (P.solver.init P.setting r.progress).exec ⟨r.solver, r.session⟩ = (.ok report?, w)) :
    ((opening P).exec r).2.session.host = w.session.host := by
  rw [exec_opening, h]
  rfl

/-- After the step an iteration of a built-in method leaves the host alone. -/
theorem host_iterate {r : Run (Method α) ω η α} {report : Report α} {w : Workspace (Method α) ω}
    (hr : r.progress.reason = .notTerminated) (hw : w.solver.BuiltIn)
    (h : (Method.solver.step A r.progress).exec ⟨r.solver, r.session⟩ = (.ok report, w)) :
    ((iterate (plan A O c)).exec r).2.session.host = w.session.host := by
  have hstep : ((plan A O c).solver.step (plan A O c).setting r.progress).exec
      ⟨r.solver, r.session⟩ = (.ok report, w) := h
  rw [exec_iterate _ hr, hstep]
  dsimp only
  -- Neither the observers nor the termination test reaches the host: what the step leaves is what the
  -- iteration leaves.
  rcases hshow : (display (plan A O c) r.session.counts report.notes (r.progress.update report).2).exec
    (counted r report w) with ⟨e | _, shown⟩
  · exact (display_frame hshow).host
  · have hframe := display_frame hshow
    have hbuiltIn : shown.solver.BuiltIn := by
      rw [hframe.solver]
      exact hw
    have hterminate := Method.terminate_frame (w := ⟨shown.solver, shown.session⟩) shown.progress
      hbuiltIn
    dsimp only
    rcases hown : ((plan A O c).solver.terminate shown.progress).exec ⟨shown.solver, shown.session⟩ with
      ⟨e | own, v⟩
    · obtain rfl : v = _ := (congrArg Prod.snd hown).symm.trans hterminate
      exact hframe.host
    · obtain rfl : v = _ := (congrArg Prod.snd hown).symm.trans hterminate
      exact hframe.host

/-- What evaluations keep is kept in an iteration. -/
theorem iterate_kept {K : Host ω → Prop} (hK : A.operator.Keeps K) {r r' : Run (Method α) ω η α}
    (hgo : r.progress.reason = .notTerminated) (hm : r.solver.BuiltIn) (hr : K r.session.host)
    (h : (iterate (plan A O c)).exec r = (.ok (), r')) : K r'.session.host ∧ r'.solver.BuiltIn := by
  -- An iteration that succeeds is a step, a display and a termination test, of which only the step can
  -- touch the host.
  obtain ⟨report, w, shown, own, v, hstep, hshow, hown, rfl⟩ := (iterate_ok_iff _ hgo).1 h
  have hstep : (Method.solver.step A r.progress).exec ⟨r.solver, r.session⟩ = (.ok report, w) := hstep
  have hkept := Method.step_kept hK r.progress (w := ⟨r.solver, r.session⟩) hr hm
  rw [hstep] at hkept
  have hframe := display_frame hshow
  obtain rfl : v = ⟨shown.solver, shown.session⟩ := (congrArg Prod.snd hown).symm.trans
    (Method.terminate_frame _ (by rw [hframe.solver]; exact hkept.2))
  constructor
  · show K shown.session.host
    rw [hframe.host]
    exact hkept.1
  · show shown.solver.BuiltIn
    rw [hframe.solver]
    exact hkept.2

/-- What evaluations keep is kept in the start of a run. -/
theorem opening_kept {K : Host ω → Prop} (hK : A.operator.Keeps K) {r r' : Run (Method α) ω η α}
    (hm : r.solver.BuiltIn) (hr : K r.session.host)
    (h : (opening (plan A O c)).exec r = (.ok (), r')) : K r'.session.host ∧ r'.solver.BuiltIn := by
  obtain ⟨report?, w, hinit, hframe⟩ := opening_reports h
  have hinit : (Method.solver.init A r.progress).exec ⟨r.solver, r.session⟩ = (.ok report?, w) := hinit
  have hkept := Method.init_kept hK r.progress (w := ⟨r.solver, r.session⟩) hr hm
  rw [hinit] at hkept
  rw [hframe.host, hframe.solver]
  exact hkept

/-- What evaluations keep is kept from any iteration to a later one. -/
theorem stateAfter_kept_from {K : Host ω → Prop} (hK : A.operator.Keeps K)
    {r : Run (Method α) ω η α} {i n : ℕ} (hin : i ≤ n) (hn : Goes (plan A O c) r n)
    (hm : (stateAfter (plan A O c) r i).solver.BuiltIn)
    (hi : K (stateAfter (plan A O c) r i).session.host) :
    K (stateAfter (plan A O c) r n).session.host ∧ (stateAfter (plan A O c) r n).solver.BuiltIn := by
  -- The invariant is the property of the host together with the method being built in.
  induction n, hin using Nat.le_induction with
  | base => exact ⟨hi, hm⟩
  | succ n hle ih =>
    have hlast := Nat.lt_succ_self n
    obtain ⟨hhost, hbuiltIn⟩ := ih (hn.mono (Nat.le_succ n))
    exact iterate_kept hK (hn.running n hlast) hbuiltIn hhost (hn.iterate_eq hlast)

/-- What evaluations keep is kept in all iterations. -/
theorem stateAfter_kept {K : Host ω → Prop} (hK : A.operator.Keeps K) {r : Run (Method α) ω η α}
    {n : ℕ} (hm : r.solver.BuiltIn) (hr : K (begun (plan A O c) r).session.host)
    (hn : Goes (plan A O c) r n) :
    K (stateAfter (plan A O c) r n).session.host ∧ (stateAfter (plan A O c) r n).solver.BuiltIn := by
  rw [← (begun_course (plan A O c) r).2.1] at hm
  obtain ⟨hhost, hbuiltIn⟩ := opening_kept hK hm hr hn.opening_eq
  exact stateAfter_kept_from hK (Nat.zero_le n) hn hbuiltIn hhost

/-! ### Where it was -/

/-- An evaluation fails in the course of the run. -/
def Blown (A : Setting ω α) (O : Observer η α) (c : RunConfig α) (r : Run (Method α) ω η α) : Prop :=
  ((execute (plan A.fused O c)).exec (r.fused false)).2.session.host.memory.2 = true

/-- The fuse is a value, so it can be looked at. -/
instance (A : Setting ω α) (O : Observer η α) (c : RunConfig α) (r : Run (Method α) ω η α) :
    Decidable (Blown A O c r) :=
  inferInstanceAs (Decidable (_ = true))

/-- Where a run fails that fails with an evaluation, and what it has come to by then. -/
inductive Site (A : Setting ω α) (O : Observer η α) (c : RunConfig α) (r : Run (Method α) ω η α)
    (e : Failure α) : Run (Method α) ω η α → Prop
  /-- In the initialisation of the solver. -/
  | init {w : Workspace (Method α) ω}
      (h : (Method.solver.init A r.progress).exec
        ⟨r.solver, (begun (plan A O c) r).session⟩ = (.error e, w)) :
      Site A O c r e { begun (plan A O c) r with solver := w.solver, session := w.session }
  /-- In a step, after so many iterations. -/
  | step {n : ℕ} {w : Workspace (Method α) ω} (hn : Goes (plan A O c) r n)
      (hcap : ¬ r.progress.maxIters = 0)
      (hgo : (stateAfter (plan A O c) r n).progress.reason = .notTerminated)
      (hi : raised c (stateAfter (plan A O c) r n).session.host.interrupt = false)
      (h : (Method.solver.step A (stateAfter (plan A O c) r n).progress).exec
        ⟨(stateAfter (plan A O c) r n).solver, (stateAfter (plan A O c) r n).session⟩ =
          (.error e, w)) :
      Site A O c r e { stateAfter (plan A O c) r n with solver := w.solver, session := w.session }

variable {r r' : Run (Method α) ω η α} {e : Failure α}

/-- A plan with a fuse is followed as the plan itself. -/
theorem plan_fused (A : Setting ω α) (O : Observer η α) (c : RunConfig α) :
    Plan.Follows Method.BuiltIn (fuse ω) (plan A O c) (plan A.fused O c) :=
  ⟨⟨fuse_lockstep A, (Method.fuse_follows A).toAttends, rfl, rfl⟩, (Method.fuse_follows A).step⟩

omit [Scalar α] in
/-- A run of an operator with a fuse that is whole, beside the run itself. -/
theorem fused_states (hm : r.solver.BuiltIn) :
    ((fuse ω).run η α Method.BuiltIn).states r (r.fused false) :=
  ⟨rfl, hm, rfl⟩

omit [Scalar α] in
/-- Beside a run there is no other run with a whole fuse. -/
theorem eq_fused {q : Run (Method α) (ω × Bool) η α}
    (h : ((fuse ω).run η α Method.BuiltIn).states r q) : q = r.fused false := by
  obtain ⟨_, _, s, _⟩ := q
  obtain ⟨hs, -, ⟨⟩⟩ := h
  obtain rfl : s = r.session.fused false := hs
  rfl

/-- If the initialisation succeeds, the fuse is whole at the end of the start. -/
theorem whole_opening {report? : Option (Report α)} {w : Workspace (Method α) ω}
    (hm : r.solver.BuiltIn)
    (h : (Method.solver.init A r.progress).exec ⟨r.solver, r.session⟩ = (.ok report?, w)) :
    ((opening (plan A.fused O c)).exec (r.fused false)).2.session.host.memory.2 = false := by
  -- An initialisation that succeeds leaves the fuse whole, and the display does not reach it.
  have hinit := (Method.fuse_follows A).init r.progress (s := ⟨r.solver, r.session⟩)
    (t := ⟨r.solver, r.session.fused false⟩) ⟨rfl, hm, rfl⟩
  rw [h] at hinit
  generalize hv : (Method.solver.init A.fused r.progress).exec ⟨r.solver, r.session.fused false⟩ = y
    at hinit
  cases hinit with
  | ok hwv =>
    obtain ⟨hsession, -⟩ := hwv
    rw [host_opening (r := r.fused false) hv, hsession]
    rfl

/-- If the step succeeds, the fuse is whole at the end of the iteration. -/
theorem whole_iterate {report : Report α} {w : Workspace (Method α) ω} (hm : r.solver.BuiltIn)
    (hr : r.progress.reason = .notTerminated)
    (h : (Method.solver.step A r.progress).exec ⟨r.solver, r.session⟩ = (.ok report, w)) :
    ((iterate (plan A.fused O c)).exec (r.fused false)).2.session.host.memory.2 = false := by
  -- A step that succeeds leaves the fuse whole, however the iteration ends.
  have hstep := (Method.fuse_follows A).step r.progress (s := ⟨r.solver, r.session⟩)
    (t := ⟨r.solver, r.session.fused false⟩) ⟨rfl, hm, rfl⟩
  rw [h] at hstep
  generalize hv : (Method.solver.step A.fused r.progress).exec ⟨r.solver, r.session.fused false⟩ = y
    at hstep
  cases hstep with
  | ok hwv =>
    obtain ⟨hsession, hbuiltIn, heq⟩ := hwv
    rw [host_iterate (r := r.fused false) hr (by rw [heq]; exact hbuiltIn) hv, hsession]
    rfl

/-- The fuse that has blown at the end of a run has blown in its body. -/
theorem Blown.of_body {t : Run (Method α) (ω × Bool) η α} (h : Blown A O c r)
    (hbody : (body (plan A.fused O c)).exec (begun (plan A.fused O c) (r.fused false)) =
      (.error e, t)) : t.session.host.memory.2 = true := by
  unfold Blown at h
  rw [exec_execute, hbody] at h
  rwa [← (aborted_course (plan A.fused O c) (r.fused false) e t).2.2]

/-- If the start of a run fails after the initialisation has succeeded, no evaluation has failed. -/
theorem not_blown_of_opening {report? : Option (Report α)} {t : Run (Method α) ω η α}
    {w : Workspace (Method α) ω} (hm : r.solver.BuiltIn)
    (hinit : (Method.solver.init A (begun (plan A O c) r).progress).exec
      ⟨(begun (plan A O c) r).solver, (begun (plan A O c) r).session⟩ = (.ok report?, w))
    (hopen : (opening (plan A O c)).exec (begun (plan A O c) r) = (.error e, t)) :
    ¬ Blown A O c r := by
  intro hblown
  have hfollows := plan_fused A O c
  have hbegun := begun_states hfollows.toAttends (fused_states hm)
  have hopening := opening_related hfollows.toAttends hbegun
  have hwhole := whole_opening (O := O) (c := c)
    (by rw [(begun_course (plan A O c) r).2.1]; exact hm) hinit
  rw [← eq_fused hbegun] at hwhole
  rw [hopen] at hopening
  generalize hq : (opening (plan A.fused O c)).exec
    (begun (plan A.fused O c) (r.fused false)) = y at hopening hwhole
  cases hopening with
  | @error _ _ u _ =>
    -- The same failure happens with the fuse, which is whole then.
    have hbody : (body (plan A.fused O c)).exec (begun (plan A.fused O c) (r.fused false)) =
        (.error e, u) := by
      rw [body_eq, Action.exec_bind, hq]
    exact Bool.false_ne_true (hwhole.symm.trans (hblown.of_body hbody))

/-- If an iteration fails whose step has succeeded, no evaluation has failed. -/
theorem not_blown_of_iterate {n : ℕ} {report : Report α} {t : Run (Method α) ω η α}
    {w : Workspace (Method α) ω} (hm : r.solver.BuiltIn) (hn : Goes (plan A O c) r n)
    (hcap : ¬ r.progress.maxIters = 0)
    (hgo : (stateAfter (plan A O c) r n).progress.reason = .notTerminated)
    (hi : raised c (stateAfter (plan A O c) r n).session.host.interrupt = false)
    (hstep : (Method.solver.step A (stateAfter (plan A O c) r n).progress).exec
      ⟨(stateAfter (plan A O c) r n).solver, (stateAfter (plan A O c) r n).session⟩ =
        (.ok report, w))
    (hit : (iterate (plan A O c)).exec (stateAfter (plan A O c) r n) = (.error e, t)) :
    ¬ Blown A O c r := by
  -- The step succeeded, so the fused run leaves this iteration with its fuse whole: no evaluation was
  -- what failed.
  intro hblown
  have hfollows := plan_fused A O c
  obtain ⟨hn', hstates⟩ := stateAfter_related hfollows (fused_states hm) hn
  have hiterate := iterate_related hfollows.toAttends hgo hstates
    (hfollows.step _ ⟨hstates.1, hstates.2.1, rfl⟩)
  have hwhole := whole_iterate (O := O) (c := c) hstates.2.1 hgo hstep
  rw [← eq_fused hstates] at hwhole
  rw [hit] at hiterate
  generalize hq : (iterate (plan A.fused O c)).exec
    (stateAfter (plan A.fused O c) (r.fused false) n) = y at hiterate hwhole
  cases hiterate with
  | @error _ _ u _ =>
    have hprogress : (stateAfter (plan A.fused O c) (r.fused false) n).progress =
        (stateAfter (plan A O c) r n).progress := by rw [hstates.2.2]
    have hbody := hn'.body_eq hcap (.failed (by rw [hprogress]; exact hgo)
      (by rw [(fuse_lockstep A).states.interrupt hstates.1]; exact hi) hq)
    exact Bool.false_ne_true (hwhole.symm.trans (hblown.of_body hbody))

/-- **A run in which an evaluation fails** fails in the initialisation of its solver or in a step. -/
theorem site_of_blown (hm : r.solver.BuiltIn) (hr : r.progress.reason = .notTerminated)
    (h : (execute (plan A O c)).exec r = (.error e, r')) (hblown : Blown A O c r) :
    ∃ t, Site A O c r e t ∧ r' = aborted (plan A O c) r e t := by
  obtain ⟨t, hbody, rfl⟩ := (execute_error_iff _).1 h
  refine ⟨t, ?_, rfl⟩
  obtain ⟨hprogress, hsolver, -⟩ := begun_course (plan A O c) r
  have hfate := body_fate (plan A O c) r
  rw [hbody] at hfate
  generalize hx : ((.error e, t) : Except (Failure α) Unit × _) = x at hfate
  -- A run fails in its opening, at a cap of zero or in an iteration; only an evaluation blows the fuse.
  cases hfate with
  | unopened hopen =>
    cases hx
    rcases hinit : (Method.solver.init A (begun (plan A O c) r).progress).exec
      ⟨(begun (plan A O c) r).solver, (begun (plan A O c) r).session⟩ with ⟨e' | report?, w⟩
    · have hfail : ((plan A O c).solver.init (plan A O c).setting (begun (plan A O c) r).progress).exec
          ⟨(begun (plan A O c) r).solver, (begun (plan A O c) r).session⟩ = (.error e', w) := hinit
      rw [exec_opening, hfail] at hopen
      cases hopen
      rw [hprogress, hsolver] at hinit
      exact .init hinit
    · exact absurd hblown (not_blown_of_opening hm hinit hopen)
  | barred hzero hcap =>
    rw [exec_stop (by rw [hzero.progress_zero.2.2]; exact hr)] at hx
    cases hx
  | @halted n _ hn hcap hhalts =>
    subst hx
    cases hhalts with
    | failed hgo hi hit =>
      rcases hstep : (Method.solver.step A (stateAfter (plan A O c) r n).progress).exec
        ⟨(stateAfter (plan A O c) r n).solver, (stateAfter (plan A O c) r n).session⟩ with
        ⟨e' | report, w⟩
      · rw [exec_iterate_of_step_failed _ hgo hstep] at hit
        cases hit
        exact .step hn hcap hgo hi hstep
      · exact absurd hblown (not_blown_of_iterate hm hn hcap hgo hi hstep hit)

end Run

end Minimization
