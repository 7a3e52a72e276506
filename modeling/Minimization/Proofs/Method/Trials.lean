import Minimization.Proofs.LineSearch.Capped
import Minimization.Proofs.Method.BestCost

namespace Minimization

/-!
# The trials of a run

A search ends after as many trials as it may make at most, and a run makes as many searches as its
cap says at most.

* `LineSearch.Lasts` — the iterations of a search: their number, what each of them evaluates, and why
  the last of them was the last.
* `LineSearch.Ready.exists_stopped`, `LineSearch.Ready.lasts` — a search that has started stops.
* `LineSearch.goes_of_run` — a search that succeeds is where some iterations have led its run.
* `LineSearch.Outcome`, `LineSearch.run_outcome` — a search is refused when it starts, or it stops.
* `Run.Makes`, `Run.exists_makes_iff` — the iterations that a run makes, also one that fails, are no
  more than its cap says.
* `Run.sum_trials_le` — the trials of the searches of a run.
* `LineSearch.searches_bounded` — both, for the two searches and the two methods that use them.
-/

variable {ω η α : Type} [Scalar α]

namespace LineSearch

/-! ### The run of a search -/

/-- How the run of a search goes that makes `n` iterations, of which there may be `cap`. -/
structure Lasts (A : Setting ω α) (r : Run (LineSearch α) ω Empty α) (strong still : Bool)
    (start : Counts) (cap n : ℕ) : Prop where
  goes : Run.Goes (Run.nestedPlan solver A) r n
  positive : 1 ≤ n
  bounded : n ≤ cap
  /-- What the start costs. -/
  start : (Run.stateAfter (Run.nestedPlan solver A) r 0).session.counts = start
  /-- Along no direction one iteration runs, and evaluates nothing. -/
  idle : still = true → n = 1 ∧
    (Run.stateAfter (Run.nestedPlan solver A) r 1).session.counts =
      (Run.stateAfter (Run.nestedPlan solver A) r 0).session.counts ∧
    (Run.stateAfter (Run.nestedPlan solver A) r n).progress.reason = .lineSearchCondition
  /-- Else every iteration is a trial. -/
  trial : still = false → ∀ i < n, ∃ k ≤ 1, (strong = false → k = 0) ∧
    (Run.stateAfter (Run.nestedPlan solver A) r (i + 1)).session.counts =
      (Run.stateAfter (Run.nestedPlan solver A) r i).session.counts + ⟨1, k, 0, 0⟩
  trials : (Run.stateAfter (Run.nestedPlan solver A) r n).solver.trials = if still then 0 else n
  reason : (Run.stateAfter (Run.nestedPlan solver A) r n).progress.reason = .lineSearchCondition ∨
    (strong = true ∧
      (Run.stateAfter (Run.nestedPlan solver A) r n).progress.reason = .targetTolerance) ∨
    ((Run.stateAfter (Run.nestedPlan solver A) r n).progress.reason = .maxIters ∧
      n = min cap RunConfig.defaultMaxIters)

variable {A : Setting ω α} {C : α → Prop} {E : Failure α → Prop} {r : Run (LineSearch α) ω Empty α}
  {strong still : Bool} {cap n : ℕ}

/-- A search goes on as long as it has not stopped. -/
theorem Ready.isOk_iterate (hdebug : A.debug = false)
    (hn : Run.Goes (Run.nestedPlan solver A) r n)
    (h : Ready A C (fun _ => False) strong cap still
      (Run.stateAfter (Run.nestedPlan solver A) r 0).progress
      (Run.stateAfter (Run.nestedPlan solver A) r 0).solver)
    (hgo : (Run.stateAfter (Run.nestedPlan solver A) r n).progress.reason = .notTerminated) :
    ((Run.iterate (Run.nestedPlan solver A)).exec
      (Run.stateAfter (Run.nestedPlan solver A) r n)).1.isOk = true := by
  -- Without debugging no check can fail an iteration.
  have hquiet : A.debug = false ∨ ∀ e : Failure α, False := .inl hdebug
  unfold Ready at h
  split at h
  · obtain rfl | ⟨rfl, -, hreason, -⟩ := h.goes hquiet hn
    · obtain ⟨_, u, hit, -⟩ := (h.ends_iterate hquiet).exists_ok
      rw [hit]
      rfl
    · rw [hreason] at hgo
      cases hgo
  · obtain htrying | ⟨-, hend⟩ := h.goes hquiet hn
    · obtain ⟨_, u, hit, -⟩ := (htrying.ends_iterate hquiet).exists_ok
      rw [hit]
      rfl
    · exact absurd hgo hend.stopped

/-- A search stops. -/
theorem Ready.exists_stopped (hdebug : A.debug = false)
    (hzero : Run.Goes (Run.nestedPlan solver A) r 0)
    (h : Ready A C (fun _ => False) strong cap still
      (Run.stateAfter (Run.nestedPlan solver A) r 0).progress
      (Run.stateAfter (Run.nestedPlan solver A) r 0).solver)
    (hmax : r.progress.maxIters = RunConfig.defaultMaxIters) :
    ∃ n, Run.Goes (Run.nestedPlan solver A) r n ∧
      ¬ (Run.stateAfter (Run.nestedPlan solver A) r n).progress.reason = .notTerminated := by
  -- The nested run opens, its cap is not zero and nobody interrupts it, so it ends for a reason or in a
  -- failing iteration; and no iteration fails.
  have hfate := Run.body_fate (Run.nestedPlan solver A) r
  generalize (Run.body (Run.nestedPlan solver A)).exec _ = outcome at hfate
  cases hfate with
  | unopened hopen => simp [hzero.opening_eq] at hopen
  | barred _ hcap =>
    rw [hmax] at hcap
    exact absurd hcap (by decide)
  | @halted n _ hn _ hx =>
    cases hx with
    | stopped hstop => exact ⟨n, hn, hstop⟩
    | interrupted _ hi => cases hi
    | failed hgo _ hit =>
      have hok := h.isOk_iterate hdebug hn hgo
      rw [hit] at hok
      cases hok

/-- What the run of a search has come to when it has stopped. -/
theorem Ready.lasts (hdebug : A.debug = false) (hcap : 1 ≤ cap)
    (hn : Run.Goes (Run.nestedPlan solver A) r n)
    (h : Ready A (fun c => Scalar.le c (-Scalar.infinity) = false) (fun _ => False) strong cap still
      (Run.stateAfter (Run.nestedPlan solver A) r 0).progress
      (Run.stateAfter (Run.nestedPlan solver A) r 0).solver)
    (hiter : r.progress.iter = 0)
    (hstop : ¬ (Run.stateAfter (Run.nestedPlan solver A) r n).progress.reason = .notTerminated)
    {start : Counts}
    (hstart : (Run.stateAfter (Run.nestedPlan solver A) r 0).session.counts = start) :
    Lasts A r strong still start cap n := by
  have hquiet : A.debug = false ∨ ∀ e : Failure α, False := .inl hdebug
  -- The counter of the progress starts at zero, so it is the number of iterations made.
  have hcount : (Run.stateAfter (Run.nestedPlan solver A) r n).progress.iter = n := by
    rw [hn.iter_eq, hiter, Nat.zero_add]
  unfold Ready at h
  -- Standing still, the search ends in its first iteration; moving, each iteration is a trial.
  split at h
  · next hstill =>
    subst hstill
    obtain rfl | ⟨rfl, hcounts, hreason, hsame⟩ := h.goes hquiet hn
    · exact absurd h.running hstop
    · obtain ⟨l, hl, -, -, -, hnone⟩ := h.exists_line
      refine ⟨hn, le_rfl, hcap, hstart, fun _ => ⟨rfl, hcounts, hreason⟩, nofun, ?_, .inl hreason⟩
      rw [hsame, trials_eq hl, hnone]
      rfl
  · next hmoving =>
    rw [Bool.not_eq_true] at hmoving
    subst hmoving
    obtain hgo | ⟨hpos, hend⟩ := h.goes hquiet hn
    · exact absurd hgo.running hstop
    · obtain ⟨l, hl, -, hle, htrials⟩ := hend.exists_line
      rw [hcount] at htrials
      refine ⟨hn, hpos, by omega, hstart, nofun, fun _ i hi => ?_, ?_, ?_⟩
      · obtain htrying | ⟨-, hended⟩ := h.goes hquiet (hn.mono hi.le)
        · exact ((htrying.ends_iterate hquiet).of_ok (hn.iterate_eq hi)).1
        · exact absurd (hn.running i hi) hended.stopped
      · rw [trials_eq hl]
        exact htrials
      -- It ends by its condition, by a bracket too narrow to refine, or at the cap; a target it was not
      -- given cannot be met.
      · obtain hmet | ⟨hstrong, hnarrow⟩ | ⟨hfull, hall⟩ | ⟨-, c, hc, htarget⟩ := hend.reason
        · exact .inl hmet
        · exact .inr (.inl ⟨hstrong, hnarrow⟩)
        · exact .inr (.inr ⟨hfull, hcount.symm.trans hall⟩)
        · rw [hc] at htarget
          cases htarget

/-- How a search ends from the workspace `⟨m, t⟩`: it is refused when it starts, or its run `r` makes
    some iterations and stops. -/
inductive Outcome (A : Setting ω α) (x way : Tensor α) (cost? : Option α)
    (gradient? : Option (Tensor α)) (m : LineSearch α) (t : Session ω) (still : Bool) (cap : ℕ) : Prop
  /-- The direction has a length and does not lead downhill. -/
  | refused (hmoving : still = false)
      (hflat : ∃ v slope length,
        Line.Uphill (launched A m x way cost? gradient? t).progress way v slope length)
      (hrun : ((run A x (some way) cost? gradient?).exec ⟨m, t⟩).1 = .error (.invalid .notDescent))
      (hstart : ((Run.opening (Run.nestedPlan solver A)).exec (Run.begun (Run.nestedPlan solver A)
        (launched A m x way cost? gradient? t))).1 = .error (.invalid .notDescent))
  /-- The search stops after `n` iterations, and their counts are added to the outer ones. -/
  | stopped (n : ℕ) (w : Workspace (LineSearch α) ω)
      (hrun : (run A x (some way) cost? gradient?).exec ⟨m, t⟩ = (.ok (Run.stateAfter
        (Run.nestedPlan solver A) (launched A m x way cost? gradient? t) n).progress, w))
      (hsolver : w.solver = (Run.stateAfter (Run.nestedPlan solver A)
        (launched A m x way cost? gradient? t) n).solver)
      (hcounts : w.session.counts = t.counts + (Run.stateAfter (Run.nestedPlan solver A)
        (launched A m x way cost? gradient? t) n).session.counts)
      (hlasts : Lasts A (launched A m x way cost? gradient? t) m.isStrong still
        ⟨if cost?.all Scalar.isInfinite then 1 else 0, if gradient?.isNone then 1 else 0, 0, 0⟩ cap n)

variable {b : Backend} {shape : List ℕ} {m : LineSearch α} {l : Line α} {x way : Tensor α}
  {cost? : Option α} {gradient? : Option (Tensor α)} {t : Session ω}

/-- What is not known at the start is evaluated there. -/
theorem openingCounts_launched [Scalar.Floored α] :
    Line.openingCounts (launched A m x way cost? gradient? t).progress =
      ⟨if cost?.all Scalar.isInfinite then 1 else 0, if gradient?.isNone then 1 else 0, 0, 0⟩ := by
  obtain ⟨-, hcost, hgradient, -⟩ := launched_progress A m x way cost? gradient? t
  unfold Line.openingCounts
  rw [hcost, hgradient]
  cases cost? with
  | none => simp [Scalar.Floored.isInfinite_infinity]
  | some c => rfl

/-- A cost that is known is evaluated nevertheless if it is infinite. -/
theorem openingCounts_known {cost : α} {gradient : Tensor α} :
    Line.openingCounts (launched A m x way (some cost) (some gradient) t).progress =
      ⟨(Scalar.isInfinite cost).toNat, 0, 0, 0⟩ := by
  obtain ⟨-, hcost, hgradient, -⟩ := launched_progress A m x way (some cost) (some gradient) t
  unfold Line.openingCounts
  rw [hcost, hgradient, Option.getD_some]
  cases Scalar.isInfinite cost <;> rfl

/-- **A search that succeeds** is where some iterations have led its run, up to the reason to stop.  Its
    counts are added to the outer ones. -/
theorem goes_of_run (hm : m.line?.isSome = true) {found : Progress α}
    {w : Workspace (LineSearch α) ω}
    (hok : (run A x (some way) cost? gradient?).exec ⟨m, t⟩ = (.ok found, w)) :
    ∃ n reason,
      Run.Goes (Run.nestedPlan solver A) (launched A m x way cost? gradient? t) n ∧
      let r := Run.stateAfter (Run.nestedPlan solver A) (launched A m x way cost? gradient? t) n
      found = { r.progress with reason := reason } ∧ w.solver = r.solver ∧
        w.session.counts = t.counts + r.session.counts ∧
        w.session.host.memory = r.session.host.memory := by
  -- The nested run starts from its own counts, which the outer session adds to its own.
  rw [exec_run_launched A hm] at hok
  rcases hexec : (Run.execute (Run.nestedPlan solver A)).exec
    (launched A m x way cost? gradient? t) with ⟨_ | _, final⟩
  · rw [hexec] at hok
    cases hok
  rw [hexec] at hok
  obtain ⟨houtcome, rfl⟩ := Prod.mk.inj hok
  obtain rfl := Except.ok.inj houtcome
  obtain ⟨n, reason, hn, hprogress, hsolver, -, hcounts, hmemory⟩ := Run.goes_of_ok hexec
  exact ⟨n, reason, hn, hprogress, hsolver, congrArg (t.counts + ·) hcounts, hmemory⟩

/-- **A search ends**, whatever the operator answers. -/
theorem run_outcome [Scalar.Floored α] (hdebug : A.debug = false) (hb : b.Multiplies α shape)
    (hA : A.operator.Replies (Tensor.Shaped b shape) fun c =>
      Scalar.le c (-Scalar.infinity) = false)
    (hl : m.line? = some l) (hcap : 1 ≤ l.maxTrials) (hx : x.Shaped b shape)
    (hway : way.Shaped b shape) (cost? : Option α)
    (hgradient : ∀ v, gradient? = some v → v.Shaped b shape) (t : Session ω) :
    Outcome A x way cost? gradient? m t (Scalar.eq way.norm 0.0) l.maxTrials := by
  obtain ⟨hparam, -, hseeded, hiter, hmax, hreason⟩ := launched_progress A m x way cost? gradient? t
  have hm : m.line?.isSome = true := by rw [hl]; rfl
  -- A cost that is known is not the least of all, because it would be infinite.
  have hknown : Scalar.isInfinite (cost?.getD Scalar.infinity) = false →
      Scalar.le (cost?.getD Scalar.infinity) (-Scalar.infinity) = false := by
    intro hfinite
    by_contra hle
    rw [Bool.not_eq_false] at hle
    rw [Scalar.Floored.isInfinite_of_le hle] at hfinite
    cases hfinite
  have hopen : (Run.opening (Run.nestedPlan solver A)).Ends _ _ fun e => e = .invalid .notDescent ∧
      ∃ v slope length,
        Line.Uphill (launched A m x way cost? gradient? t).progress way v slope length :=
    ends_launched_ready (E := fun _ => False) hl hcap
      (.of_shaped hA hb (hparam.symm ▸ hx) hway fun v hv => hgradient v (hseeded.symm.trans hv))
      (fun v slope length hflat => ⟨rfl, v, slope, length, hflat⟩)
      (fun l' start hdirection hstart horigin =>
        .of_shaped hA hb hstart (horigin.symm ▸ hx) hdirection hway) hknown
  rcases hexec : (Run.opening (Run.nestedPlan solver A)).exec (Run.begun (Run.nestedPlan solver A)
    (launched A m x way cost? gradient? t)) with ⟨e | _, s⟩
  · obtain ⟨rfl, v, slope, length, hflat⟩ := hopen.of_error hexec
    have hnorm := hflat.norm
    rw [hparam, hx.backend, hway.norm_eq] at hnorm
    obtain rfl := Except.ok.inj hnorm
    refine .refused hflat.moving ⟨v, slope, _, hflat⟩ ?_ (by rw [hexec])
    have hbody : (Run.body (Run.nestedPlan solver A)).exec (Run.begun (Run.nestedPlan solver A)
        (launched A m x way cost? gradient? t)) = (.error (.invalid .notDescent), s) := by
      rw [Run.body_eq, Action.exec_bind, hexec]
    rw [exec_run_launched A hm, (Run.execute_error_iff _).2 ⟨s, hbody, rfl⟩]
  · obtain ⟨hstart, length, hnorm, hready⟩ := hopen.of_ok hexec
    rw [hx.backend, hway.norm_eq] at hnorm
    obtain rfl := Except.ok.inj hnorm
    have hzero : Run.stateAfter (Run.nestedPlan solver A) (launched A m x way cost? gradient? t) 0 = s :=
      congrArg Prod.snd hexec
    rw [← hzero] at hready hstart
    obtain ⟨n, hn, hstop⟩ := hready.exists_stopped hdebug (.zero (by rw [hexec]; rfl)) hmax
    have hrun := exec_run_launched A hm x way cost? gradient? t
    rw [hn.execute_eq (by rw [hmax]; decide) hstop] at hrun
    dsimp only at hrun
    rw [Run.finished_progress] at hrun
    refine .stopped n _ hrun (Run.released_solver _ _ _) rfl ?_
    exact hready.lasts hdebug hcap hn hiter hstop (hstart.trans openingCounts_launched)

end LineSearch

/-! ### Methods that search -/

variable {A : Setting ω α} {p : Progress α} {cap : ℕ}

/-- A step measures the direction and searches along it. -/
theorem SteepestDescent.leaves_step (hcap : 1 ≤ cap) :
    Workspace.Leaves (LineSearch.Capped cap) (LineSearch.Capped cap)
      (SteepestDescent.solver.step A p) := by
  show Workspace.Leaves _ _ (SteepestDescent.step A p)
  rw [step_parts]
  exact .seq ((ordinary_measure _ p.param).leaves A) fun _ =>
    .seq (LineSearch.leaves_run A hcap _ _ _ _) fun _ => .pure _

/-- The start of a run evaluates, and leaves the search alone. -/
theorem QuasiNewton.leaves_init : Workspace.Leaves (fun s : QuasiNewton α => s.search.Capped cap)
    (fun s => s.search.Capped cap) (QuasiNewton.solver.init A p) :=
  (ordinary_init _ p).leaves A

/-- A step searches between its two computations. -/
theorem QuasiNewton.leaves_step (hcap : 1 ≤ cap) :
    Workspace.Leaves (fun s : QuasiNewton α => s.search.Capped cap) (fun s => s.search.Capped cap)
      (QuasiNewton.solver.step A p) := by
  show Workspace.Leaves _ _ (QuasiNewton.step A p)
  rw [step_parts]
  refine .seq ((ordinary_aim _ p).leaves A) fun (oldGradient, h, direction) => ?_
  have hrun := LineSearch.leaves_run A hcap p.param direction (some p.cost) (some oldGradient)
  refine .seq (hrun.within (fun _ hs => hs) fun _ _ hm _ => hm) fun found => ?_
  exact (ordinary_learn (fun _ _ hs => hs) p.param oldGradient h found).leaves A

namespace Method

/-- The search of a method that follows a direction. -/
def search? {α : Type} : Method α → Option (LineSearch α)
  | .steepestDescent s => some s
  | .quasiNewton s => some s.search
  | _ => none

/-- The trials of its last search. -/
def trials {α : Type} (m : Method α) : ℕ := (m.search?.map LineSearch.trials).getD 0

/-- Its last search has not made more trials than it may. -/
def Capped {α : Type} (cap : ℕ) (m : Method α) : Prop := ∃ s, m.search? = some s ∧ s.Capped cap

omit [Scalar α] in
/-- What it says of the counter. -/
theorem Capped.trials_le {m : Method α} (h : m.Capped cap) : m.trials ≤ cap := by
  obtain ⟨s, hs, hcapped⟩ := h
  unfold trials
  rw [hs]
  exact hcapped.trials_le

/-- What the two methods leave. -/
theorem leaves_dispatch {β : Type} (act : {σ : Type} → Solver σ ω α → Action (Workspace σ ω) α β)
    (hsteepest : Workspace.Leaves (LineSearch.Capped cap) (LineSearch.Capped cap)
      (act SteepestDescent.solver))
    (hquasi : Workspace.Leaves (fun s : QuasiNewton α => s.search.Capped cap)
      (fun s => s.search.Capped cap) (act QuasiNewton.solver)) :
    Workspace.Leaves (Capped cap) (Capped cap) (dispatch act) := by
  rintro ⟨m, t⟩ ⟨s, hs, hcapped⟩
  rw [exec_dispatch]
  cases m with
  | steepestDescent m =>
    obtain rfl := Option.some.inj hs
    exact ⟨_, rfl, hsteepest ⟨m, t⟩ hcapped⟩
  | quasiNewton m =>
    obtain rfl := Option.some.inj hs
    exact ⟨_, rfl, hquasi ⟨m, t⟩ hcapped⟩
  | _ => cases hs

/-- The start of a run of either method. -/
theorem leaves_init : Workspace.Leaves (Capped cap) (Capped cap) (Method.solver.init A p) :=
  leaves_dispatch (fun S => S.init A p) (.pure _) QuasiNewton.leaves_init

/-- A step of either method. -/
theorem leaves_step (hcap : 1 ≤ cap) :
    Workspace.Leaves (Capped cap) (Capped cap) (Method.solver.step A p) :=
  leaves_dispatch (fun S => S.step A p) (SteepestDescent.leaves_step hcap) (QuasiNewton.leaves_step hcap)

/-- The question whether to stop searches for nothing. -/
theorem leaves_terminate : Workspace.Leaves (Capped cap) (Capped cap)
    ((Method.solver (ω := ω) (α := α)).terminate p) :=
  leaves_dispatch (fun S => S.terminate p) (.pure _) (.ofExcept _)

end Method

namespace Run

/-! ### The iterations of a run -/

section
variable {σ : Type} {P : Plan σ ω η α} {r : Run σ ω η α} {i j n : ℕ}

/-- The run makes an iteration after `i` others, which may succeed or fail. -/
structure Makes (P : Plan σ ω η α) (r : Run σ ω η α) (i : ℕ) : Prop where
  capped : ¬ r.progress.maxIters = 0
  goes : Goes P r i
  running : (stateAfter P r i).progress.reason = .notTerminated
  undisturbed : raised P.config (stateAfter P r i).session.host.interrupt = false

/-- Before an iteration all earlier ones have been made. -/
theorem Makes.mono (h : Makes P r j) (hij : i ≤ j) : Makes P r i := by
  obtain rfl | hlt := hij.eq_or_lt
  · exact h
  · exact ⟨h.capped, h.goes.mono hij, h.goes.running i hlt, h.goes.undisturbed i hlt⟩

/-- A run makes no more iterations than its cap says. -/
theorem Makes.lt_maxIters (h : Makes P r i) (hiter : r.progress.iter = 0) :
    (i : ℤ) < r.progress.maxIters ∨ r.progress.maxIters < 0 := by
  obtain rfl | hpos := Nat.eq_zero_or_pos i
  · have := h.capped
    push_cast
    omega
  · have := h.goes.not_full hpos h.running
    rw [hiter, Nat.zero_add] at this
    exact .inl this

/-- The start of a run counts no iteration, whether it succeeds or fails. -/
theorem iter_opening (P : Plan σ ω η α) (r : Run σ ω η α) :
    ((opening P).exec r).2.progress.iter = r.progress.iter := by
  -- The opening merges a report, and only an increment counts an iteration.
  rw [exec_opening]
  rcases (P.solver.init P.setting r.progress).exec ⟨r.solver, r.session⟩ with ⟨_ | report?, w⟩
  · rfl
  · dsimp only
    rw [exec_onWatches]
    cases report? with
    | none => rfl
    | some report => exact ProgressOn.iter_update _ _

omit [Scalar α] in
/-- Stopping counts no iteration either. -/
theorem iter_stop (reason : Reason) (t : Run σ ω η α) :
    ((stop reason).exec t).2.progress.iter = t.progress.iter := by
  unfold stop
  simp only [Action.exec_bind, Action.exec_get, Action.exec_ofExcept]
  cases hreason : t.progress.setReason reason with
  | error e => rfl
  | ok p =>
    rw [ProgressOn.eq_of_setReason hreason]
    rfl

/-- **The iterations of a run** are the first ones of all, and no more than its cap allows.  Those that
    it counts are among them. -/
theorem exists_makes_iff {k : ℕ} (hiter : r.progress.iter = 0) (hmax : r.progress.maxIters = k) :
    ∃ n ≤ k, (∀ i, Makes P r i ↔ i < n) ∧ ((execute P).exec r).2.progress.iter ≤ n := by
  have hbound {i : ℕ} (h : Makes P r i) : i < k := by
    have := h.lt_maxIters hiter
    omega
  classical
  have hends : ∃ n, ¬ Makes P r n := ⟨k, fun h => lt_irrefl k (hbound h)⟩
  have hmakes (i : ℕ) : Makes P r i ↔ i < Nat.find hends := by
    constructor
    · intro h
      by_contra hle
      exact Nat.find_spec hends (h.mono (not_lt.1 hle))
    · intro hlt
      exact not_not.1 (Nat.find_min hends hlt)
  refine ⟨Nat.find hends, Nat.find_min' hends fun h => lt_irrefl k (hbound h), hmakes, ?_⟩
  have hbegun : (begun P r).progress.iter = 0 := by rw [begun_progress, hiter]
  have hcounted {n : ℕ} (hn : Goes P r n) : (stateAfter P r n).progress.iter = n := by
    rw [hn.iter_eq, hiter, Nat.zero_add]
  -- A run that has made `n` iterations has made all before the last.
  have hle {n : ℕ} (hn : Goes P r n) (hcap : ¬ r.progress.maxIters = 0) : n ≤ Nat.find hends := by
    by_contra hlt
    rw [not_le] at hlt
    exact Nat.find_spec hends
      ⟨hcap, hn.mono hlt.le, hn.running _ hlt, hn.undisturbed _ hlt⟩
  rw [execute_progress]
  have hfate := body_fate P r
  generalize (body P).exec (begun P r) = outcome at hfate
  cases hfate with
  | @unopened e t hopen =>
    have hstart := iter_opening P (begun P r)
    rw [hopen, hbegun] at hstart
    exact hstart.le.trans (Nat.zero_le _)
  | barred hzero =>
    rw [iter_stop, hcounted hzero]
    exact Nat.zero_le _
  | @halted n x hn hcap hx =>
    cases hx with
    | stopped => exact (hcounted hn).le.trans (hle hn hcap)
    | interrupted => exact (hcounted hn).le.trans (hle hn hcap)
    | @failed e u hgo hi hit =>
      have hlast := (iter_iterate (P := P) hgo).1
      rw [hit, hcounted hn] at hlast
      have hmade : n < Nat.find hends := (hmakes n).1 ⟨hcap, hn, hgo, hi⟩
      dsimp only at hlast ⊢
      split at hlast
      · omega
      · omega

end

variable {O : Observer η α} {c : RunConfig α} {r : Run (Method α) ω η α} {n : ℕ}

/-- In every state that a run comes to, the last search has not made more trials than it may. -/
theorem Goes.capped (hn : Goes (plan A O c) r n) (hcap : 1 ≤ cap) (hr : r.solver.Capped cap) :
    (stateAfter (plan A O c) r n).solver.Capped cap := by
  -- The cap is a setting: no part of a method writes it.
  induction n with
  | zero =>
    refine leaves_opening Method.leaves_init ?_
    rw [(begun_course (plan A O c) r).2.1]
    exact hr
  | succ n ih =>
    exact leaves_iterate (Method.leaves_step hcap) (fun p => Method.leaves_terminate)
      (hn.running n (Nat.lt_succ_self n)) (ih (hn.mono (Nat.le_succ n)))

/-- **The trials of a run**: its iterations, also the one that it fails in, make one search each. -/
theorem sum_trials_le (hcap : 1 ≤ cap) (hr : r.solver.Capped cap)
    (h : ∀ i < n, Makes (plan A O c) r i) :
    ∑ i ∈ Finset.range n, (stateAfter (plan A O c) r (i + 1)).solver.trials ≤ n * cap := by
  -- The trials of the search after an iteration are those of that iteration, at most its cap.
  have hle : ∀ i ∈ Finset.range n, (stateAfter (plan A O c) r (i + 1)).solver.trials ≤ cap := by
    intro i hi
    have hmakes := h i (Finset.mem_range.1 hi)
    have hleft : (stateAfter (plan A O c) r (i + 1)).solver.Capped cap :=
      leaves_iterate (Method.leaves_step hcap) (fun p => Method.leaves_terminate) hmakes.running
        (hmakes.goes.capped hcap hr)
    exact hleft.trials_le
  have hsum := Finset.sum_le_card_nsmul _ _ cap hle
  rwa [Finset.card_range, smul_eq_mul] at hsum

end Run

/-! ### Searches and runs -/

namespace LineSearch

section
variable {d : α} {k : ℤ}

/-- A new search has made no trial, and may make one at least. -/
theorem capped_of_make_backtracking {q : α} {s : Backtracking α}
    (h : Backtracking.make d q k = .ok s) : 1 ≤ k.toNat ∧ (backtracking s).Capped k.toNat := by
  obtain ⟨-, -, hk, rfl⟩ := Backtracking.make_eq_ok_iff.1 h
  exact ⟨by omega, _, rfl, rfl, Nat.zero_le _⟩

/-- The same for the search for the strong Wolfe conditions. -/
theorem capped_of_make_strongWolfe {q : α} {s : StrongWolfe α}
    (h : StrongWolfe.make d q k = .ok s) : 1 ≤ k.toNat ∧ (strongWolfe s).Capped k.toNat := by
  obtain ⟨-, hk, rfl⟩ := StrongWolfe.make_eq_ok_iff.1 h
  exact ⟨by omega, _, rfl, rfl, Nat.zero_le _⟩

/-- The first step length has nothing to do with it. -/
theorem Capped.setInitialStep {m m' : LineSearch α} (hm : m.Capped cap) {step : α}
    (h : m.setInitialStep step = .ok m') : m'.Capped cap := by
  obtain ⟨l, hl, hcapped⟩ := hm
  unfold LineSearch.setInitialStep onLine Line.setInitialStep at h
  -- Setting the first step replaces one field of the line; the cap is another one.
  cases m with
  | backtracking s =>
    obtain rfl := Option.some.inj hl
    dsimp only at h
    split at h
    · obtain rfl := Except.ok.inj h
      exact ⟨_, rfl, hcapped⟩
    · cases h
  | strongWolfe s =>
    obtain rfl := Option.some.inj hl
    dsimp only at h
    split at h
    · obtain rfl := Except.ok.inj h
      exact ⟨_, rfl, hcapped⟩
    · cases h
  | unsuited text => cases hl

end

/-- **Every search ends, and a run makes a bounded number of trials.**  Let `m` be a search that may
    make `cap` trials, at least one.

    A search from any point, along any direction and from any seeds of one shape, of any operator that
    answers there, whatever the numbers are, is refused when it starts, or it stops after `cap`
    iterations at most, each of which evaluates one cost and at most one gradient.  It is refused only
    if the direction has a length and does not lead downhill.  `LineSearch.Lasts` tells the counts and
    the reasons to stop; the cap of the run that the search is made in is the largest machine word,
    which matters only if `cap` is larger still.

    A run of steepest descent or of the quasi-Newton method with this search makes as many iterations
    as its own cap says at most, whatever the operator does and wherever it fails, and the trials of
    all of them together are at most the product of the two caps. -/
theorem searches_bounded [Scalar.Floored α] {m : LineSearch α} (hcap : 1 ≤ cap) (hm : m.Capped cap) :
    (∀ {ω : Type} (A : Setting ω α) (b : Backend) (shape : List ℕ), A.debug = false →
      b.Multiplies α shape →
      (A.operator.Replies (Tensor.Shaped b shape) fun c =>
        Scalar.le c (-Scalar.infinity) = false) →
      ∀ x way : Tensor α, x.Shaped b shape → way.Shaped b shape →
      ∀ (cost? : Option α) (gradient? : Option (Tensor α)),
      (∀ v, gradient? = some v → v.Shaped b shape) → ∀ t : Session ω,
        Outcome A x way cost? gradient? m t (Scalar.eq way.norm 0.0) cap) ∧
    ∀ {ω η : Type} (A : Setting ω α) (O : Observer η α) (c : RunConfig α) (s : Method α),
      s.search? = some m → ∀ (x : Tensor α) (cost? : Option α) (gradient? hessian? : Option (Tensor α))
        (session : Session ω) (ws : List (Watch η)),
      let P := Run.plan A O c
      let r := Run.fresh P x cost? gradient? hessian? s session ws
      ∃ n ≤ c.maxIters, (∀ i, Run.Makes P r i ↔ i < n) ∧
        ((Run.execute P).exec r).2.progress.iter ≤ n ∧
        ∑ i ∈ Finset.range n, (Run.stateAfter P r (i + 1)).solver.trials ≤ c.maxIters * cap := by
  constructor
  -- The first part is one search, along any direction; the second is a run of a method that makes
  -- several.
  · intro ω A b shape hdebug hb hA x way hx hway cost? gradient? hgradient t
    obtain ⟨l, hl, rfl, -⟩ := hm
    exact run_outcome hdebug hb hA hl hcap hx hway cost? hgradient t
  · intro ω η A O c s hs x cost? gradient? hessian? session ws P r
    obtain ⟨hiter, hmax, -⟩ := Run.seeded_unstarted x (c.maxIters : ℤ) cost? gradient? hessian?
    obtain ⟨n, hle, hmakes, hcount⟩ := Run.exists_makes_iff (P := P) (r := r) hiter hmax
    have hsum := Run.sum_trials_le (r := r) hcap ⟨m, hs, hm⟩ fun i hi => (hmakes i).2 hi
    exact ⟨n, hle, hmakes, hcount, hsum.trans (Nat.mul_le_mul_right cap hle)⟩

/-- The sphere function answers everywhere on the line. -/
theorem curvedSphere_replies : Run.curvedSphere.Replies (Tensor.Shaped .array [1]) fun c =>
    Scalar.le c (-Scalar.infinity) = false where
  cost x host _ := not_sphere_le x
  gradient x host hx := by
    have hxs : (x.onBackend .array).Shaped .array [1] := ⟨rfl, hx.shape, hx.wellFormed⟩
    exact hxs.map _

/-- With two trials a search on the sphere function meets its condition, and a run of one iteration makes
    two trials at most. -/
theorem searches_bounded_sphere : ∃ s, Backtracking.make (1e-4 : Exact ℚ) 0.5 2 = .ok s ∧
    (∃ n ≤ 2, ∃ p w, (run ⟨Run.curvedSphere, false⟩ (.vector .array [1.0])
        (some (.vector .array [-2.0])) none none).exec ⟨.backtracking s, .start ()⟩ = (.ok p, w) ∧
      w.solver.trials = n ∧ p.reason = .lineSearchCondition) ∧
    ∃ n ≤ 1, ∑ i ∈ Finset.range n, (Run.stateAfter Run.steepPlan
      (Run.steepStart (.backtracking s)) (i + 1)).solver.trials ≤ 2 := by
  have hmake : Backtracking.make (1e-4 : Exact ℚ) 0.5 2 =
      .ok ⟨⟨none, 1.0, 2, 0, none, none⟩, 1e-4, 0.5, 1.0⟩ :=
    Backtracking.make_eq_ok_iff.2 ⟨by decide +kernel, by decide +kernel, by decide, rfl⟩
  obtain ⟨hcap, hcapped⟩ := capped_of_make_backtracking hmake
  obtain ⟨hsearch, houter⟩ := searches_bounded hcap hcapped
  refine ⟨_, hmake, ?_, ?_⟩
  · have hshaped (e : Exact ℚ) : (Tensor.vector .array [e]).Shaped .array [1] := ⟨rfl, rfl, rfl⟩
    have hends := hsearch ⟨Run.curvedSphere, false⟩ .array [1] rfl (Backend.multiplies (.inr le_rfl))
      curvedSphere_replies (.vector .array [1.0]) (.vector .array [-2.0]) (hshaped _) (hshaped _) none
      none nofun (.start ())
    have hmet : ((run ⟨Run.curvedSphere, false⟩ (.vector .array [1.0])
        (some (.vector .array [-2.0])) none none).exec ⟨Run.steepSearch 1.0 2, .start ()⟩).1.toOption.map
          (·.reason) = some .lineSearchCondition := by
      decide +kernel
    have hmoving : Scalar.eq (Tensor.vector .array [(-2.0 : Exact ℚ)]).norm 0.0 = false := by
      decide +kernel
    rw [hmoving] at hends
    -- A refused search raises, and this one returned.
    cases hends with
    | refused _ _ hrun =>
      have hnone := congrArg (fun o => (Except.toOption o).map (·.reason)) hrun
      exact absurd (hnone.symm.trans hmet) nofun
    | stopped n w hrun hsolver _ hlasts =>
      refine ⟨n, hlasts.bounded, _, w, hrun, ?_, ?_⟩
      · rw [hsolver]
        exact hlasts.trials
      · have hreason := congrArg (fun o => (Except.toOption o.1).map (·.reason)) hrun
        exact Option.some.inj (hreason.symm.trans hmet)
  · obtain ⟨n, hn, -, -, hsum⟩ := houter ⟨Run.curvedSphere, true⟩ Run.noObserver ⟨1, -1.0, true⟩
      (.steepestDescent (Run.steepSearch 1.0 2)) rfl (.vector .array [1.0]) none none none (.start ()) []
    exact ⟨n, hn, hsum⟩

end LineSearch

end Minimization
