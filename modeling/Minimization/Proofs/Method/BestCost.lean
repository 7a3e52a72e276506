import Minimization.Proofs.LineSearch.Decrease
import Minimization.Proofs.Method.Coherence
import Minimization.Proofs.Method.Reopening
import Minimization.Proofs.Progress.Merge
import Minimization.Proofs.Run.Finished

namespace Minimization

/-!
# The best cost is no higher than the first one

The best cost is the lowest one that has been reported.  Whether the cost at the start is among those
depends on the method.

* `Run.Goes.bestCost_le` — the best cost of a run never rises.
* `QuasiNewton.ends_init_cost`, `TrustRegion.ends_init_cost` — these methods report the cost at the
  start when they are initialised.
* `SteepestDescent.ends_step_cost` — steepest descent reports what its search has found, and that is
  no higher if the search succeeds.
* `Run.bestCost_le_start` — what follows for a whole run; `Run.bestCost_above_start` — a search that
  runs out of trials in the first iteration may leave nothing better than the start.
-/

variable {ω η α : Type} [Scalar α]

/-! ### Runs -/

namespace Run

variable {σ : Type} {P : Plan σ ω η α} {r : Run σ ω η α} {n i : ℕ} {c : α} [Scalar.Ordered α]

/-- The best cost of a run never rises. -/
theorem Goes.bestCost_le (h : Goes P r n) (hi : i ≤ n)
    (hle : Scalar.le (stateAfter P r i).progress.bestCost c = true) :
    Scalar.le (stateAfter P r n).progress.bestCost c = true := by
  induction n, hi using Nat.le_induction with
  | base => exact hle
  | succ n _ ih =>
    have hlast := Nat.lt_succ_self n
    obtain ⟨report, w, own, session, v, -, -, hprogress, -⟩ :=
      iterate_reports P (h.running n hlast) (h.iterate_eq hlast)
    rw [hprogress]
    exact ProgressOn.bestCost_update_le (ih (h.mono (Nat.le_succ n)))

/-- The best cost of a run that starts without one is a number. -/
theorem Goes.isNaN_bestCost (h : Goes P r n) (hr : r.progress.bestCost = Scalar.infinity) :
    Scalar.isNaN (stateAfter P r n).progress.bestCost = false := by
  -- Infinity bounds the best cost from the start, and a bound survives every merge: only a number is at
  -- most infinity.
  have hstart : Scalar.le r.progress.bestCost Scalar.infinity = true := by
    rw [hr]
    exact Scalar.Ordered.le_refl Scalar.Ordered.isNaN_infinity
  have hopened : Scalar.le (stateAfter P r 0).progress.bestCost Scalar.infinity = true := by
    obtain ⟨report?, w, -, hcourse⟩ := opening_reports h.opening_eq
    rw [hcourse.progress]
    unfold opened
    rw [begun_progress]
    cases report? with
    | none => exact hstart
    | some report => exact ProgressOn.bestCost_update_le hstart
  exact (Scalar.Ordered.le_iff.1 (h.bestCost_le (Nat.zero_le n) hopened)).1

end Run

/-! ### What the methods report -/

/-- An evaluation of the cost at `x` yields `c`. -/
def Session.Evaluates (A : Setting ω α) (x : Tensor α) (c : α) (t : Session ω) : Prop :=
  ((Session.cost A.operator x).exec t).1 = .ok c

variable {A : Setting ω α} {f : Tensor α → α} {g h : Tensor α → Tensor α} {p : Progress α}
  {t : Session ω}

omit [Scalar α] in
/-- The operator answers by `f`. -/
theorem Operator.Deterministic.ends_cost_evaluates (hA : A.operator.Deterministic f g h)
    (x : Tensor α) : (Session.cost A.operator x).Ends t
      (fun c _ => c = f x ∧ t.Evaluates A x (f x)) fun _ => True := by
  refine (hA.ends_cost x).executed.mono ?_
  rintro c u ⟨hexec, rfl⟩
  exact ⟨rfl, congrArg Prod.fst hexec⟩

/-- The quasi-Newton method reports the cost at the start, which it evaluates first. -/
theorem QuasiNewton.ends_init_cost (hA : A.operator.Deterministic f g h) (s : QuasiNewton α) :
    (QuasiNewton.solver.init A p).Ends ⟨s, t⟩ (fun report? _ => t.Evaluates A p.param (f p.param) ∧
      ∃ report, report? = some report ∧ report.cost = some (f p.param)) fun _ => True := by
  refine ends_init_iff.2 ((hA.ends_cost_evaluates p.param).mono ?_)
  rintro c u ⟨rfl, hcost⟩
  exact (Action.ends_anyhow _ _).mono fun v u' _ => ⟨hcost, _, rfl, rfl⟩

/-- So does the trust-region method. -/
theorem TrustRegion.ends_init_cost (hA : A.operator.Deterministic f g h) (s : TrustRegion α) :
    (TrustRegion.solver.init A p).Ends ⟨s, t⟩ (fun report? _ => t.Evaluates A p.param (f p.param) ∧
      ∃ report, report? = some report ∧ report.cost = some (f p.param)) fun _ => True := by
  refine ends_init_iff.2 ((hA.ends_cost_evaluates p.param).mono ?_)
  rintro c u ⟨rfl, hcost⟩
  exact (Action.ends_anyhow _ _).mono fun v u' _ => (Action.ends_anyhow _ _).mono
    fun m u'' _ => ⟨hcost, _, rfl, rfl⟩

/-- Steepest descent evaluates the cost at the point, and reports one that is no higher if its search
    is one for the strong Wolfe conditions or meets its conditions. -/
theorem SteepestDescent.ends_step_cost [Scalar.Ordered α] [Scalar.Signed α]
    (hA : A.operator.Deterministic f g h) (hf : Scalar.isFinite (f p.param) = true)
    {s : LineSearch α} (hs : s.Checked) : (SteepestDescent.solver.step A p).Ends ⟨s, t⟩
      (fun report w => t.Evaluates A p.param (f p.param) ∧ ∃ c, report.cost = some c ∧
        (s.isStrong = true ∨ w.solver.reason = .lineSearchCondition →
          Scalar.le c (f p.param) = true)) fun _ => True := by
  -- The first cost is the one at the point of the step; the search sinks below it when it ends by its
  -- condition.
  refine ends_step_iff.2 ((hA.ends_cost_evaluates p.param).mono ?_)
  rintro c u ⟨rfl, hcost⟩
  refine (Action.ends_anyhow _ _).mono fun v u' _ => ?_
  refine (LineSearch.ends_run_sinks A hs p.param _ hf (some v)).mono ?_
  rintro found w ⟨-, hle⟩
  exact ⟨hcost, found.cost, rfl, hle⟩

/-- Steepest descent as the method at hand. -/
theorem Method.ends_step_cost [Scalar.Ordered α] [Scalar.Signed α]
    (hA : A.operator.Deterministic f g h) (hf : Scalar.isFinite (f p.param) = true)
    {s : LineSearch α} (hs : s.Checked) : (Method.solver.step A p).Ends ⟨.steepestDescent s, t⟩
      (fun report w => t.Evaluates A p.param (f p.param) ∧ ∃ c s', w.solver = .steepestDescent s' ∧
        report.cost = some c ∧ (s.isStrong = true ∨ s'.reason = .lineSearchCondition →
          Scalar.le c (f p.param) = true)) fun _ => True := by
  refine (Method.ends_dispatch (fun S => S.step A p) _).2 ((Workspace.ends_wrapping ..).2 ?_)
  refine (SteepestDescent.ends_step_cost hA hf hs).mono ?_
  rintro report w ⟨hcost, c, hc, hle⟩
  exact ⟨hcost, c, w.solver, rfl, hc, hle⟩

/-! ### Whole runs -/

/-- The reason for which the last search of steepest descent has stopped. -/
def Method.searchReason : Method α → Reason
  | .steepestDescent search => search.reason
  | _ => .notTerminated

/-- The methods whose best cost is no higher than the cost at the start once a run has made an
    iteration.  The search of steepest descent has to be one for the strong Wolfe conditions, or it has
    met its conditions in the first iteration, after which the method is `first`. -/
def Method.Improves (m first : Method α) : Prop :=
  match m with
  | .quasiNewton _ => True
  | .trustRegion _ => True
  | .steepestDescent search =>
    search.Checked ∧ (search.isStrong = true ∨ first.searchReason = .lineSearchCondition)
  | _ => False

namespace Run

/-- Where a run evaluates a cost for the first time: when it is initialised, or, if it follows the
    steepest descent, in the first iteration. -/
def costing (P : Plan (Method α) ω η α) (r : Run (Method α) ω η α) : Session ω :=
  match r.solver with
  | .steepestDescent _ => (stateAfter P r 0).session
  | _ => (begun P r).session

variable {P : Plan (Method α) ω η α} {r : Run (Method α) ω η α} {n : ℕ} {c : α} [Scalar.Ordered α]

/-- What the initialisation reports is an upper bound of the best cost. -/
theorem Goes.bestCost_le_of_init {σ : Type} {P : Plan σ ω η α} {r : Run σ ω η α} {C : Prop}
    (h : Goes P r n) (hr : r.progress.bestCost = Scalar.infinity)
    (hc : Scalar.isNaN c = false) (hinit : (P.solver.init P.setting r.progress).Ends
      ⟨r.solver, (begun P r).session⟩
      (fun report? _ => C ∧ ∃ report, report? = some report ∧ report.cost = some c) fun _ => True) :
    C ∧ Scalar.le (stateAfter P r n).progress.bestCost c = true := by
  -- The report of the initialisation carries the cost, which bounds the best one from then on.
  obtain ⟨report?, w, hexec, hcourse⟩ := opening_reports (h.mono (Nat.zero_le n)).opening_eq
  obtain ⟨hprogress, hsolver, -⟩ := begun_course P r
  rw [hprogress, hsolver] at hexec
  obtain ⟨hC, report, rfl, hcost⟩ := hinit.of_ok hexec
  refine ⟨hC, h.bestCost_le (Nat.zero_le n) ?_⟩
  rw [hcourse.progress]
  unfold opened
  rw [begun_progress]
  refine ProgressOn.bestCost_update_le_of_cost ?_ hcost (Scalar.Ordered.le_refl hc)
  rw [hr]
  exact Scalar.Ordered.isNaN_infinity

omit [Scalar.Ordered α] in
/-- Steepest descent evaluates nothing when it is initialised. -/
theorem steepestDescent_opened {s : LineSearch α} (hP : P.solver = Method.solver)
    (hr : r.solver = .steepestDescent s) (h : Goes P r 0) :
    (stateAfter P r 0).progress = r.progress ∧ (stateAfter P r 0).solver = .steepestDescent s := by
  obtain ⟨report?, w, hexec, hcourse⟩ := opening_reports h.opening_eq
  obtain ⟨hprogress, hsolver, -⟩ := begun_course P r
  rw [hP, hprogress, hsolver, hr] at hexec
  obtain ⟨hnone, hkept⟩ := Prod.mk.inj hexec
  obtain rfl := Except.ok.inj hnone
  rw [hcourse.progress, hcourse.solver, ← hkept]
  exact ⟨hprogress, rfl⟩

variable {O : Observer η α} {k : RunConfig α}

/-- A method that reports the cost at the start when it is initialised. -/
theorem Goes.improves_of_init (h : Goes (plan A O k) r n)
    (hbest : r.progress.bestCost = Scalar.infinity) {x : Tensor α}
    (hfinite : Scalar.isFinite (f x) = true)
    (hsteep : ∀ s, r.solver ≠ .steepestDescent s)
    (hinit : (Method.solver.init A r.progress).Ends ⟨r.solver, (begun (plan A O k) r).session⟩
      (fun report? _ => (begun (plan A O k) r).session.Evaluates A x (f x) ∧
        ∃ report, report? = some report ∧ report.cost = some (f x)) fun _ => True) :
    (costing (plan A O k) r).Evaluates A x (f x) ∧
      Scalar.le (stateAfter (plan A O k) r n).progress.bestCost (f x) = true := by
  -- Only steepest descent evaluates its first cost in the step; the other methods do so before it.
  have hcosting : costing (plan A O k) r = (begun (plan A O k) r).session := by
    unfold costing
    split
    · next s hs => exact absurd hs (hsteep s)
    · rfl
  rw [hcosting]
  simp only [Scalar.isFinite, Bool.and_eq_true, Bool.not_eq_true'] at hfinite
  exact h.bestCost_le_of_init hbest hfinite.1 hinit

/-- Steepest descent, whose first search succeeds. -/
theorem Goes.improves_of_step [Scalar.Signed α] (hA : A.operator.Deterministic f g h)
    (hn : Goes (plan A O k) r n) (hpos : 0 < n) (hbest : r.progress.bestCost = Scalar.infinity)
    (hfinite : Scalar.isFinite (f r.progress.param) = true) {s : LineSearch α}
    (hs : r.solver = .steepestDescent s) (hchecked : s.Checked)
    (hend : s.isStrong = true ∨
      (stateAfter (plan A O k) r 1).solver.searchReason = .lineSearchCondition) :
    (costing (plan A O k) r).Evaluates A r.progress.param (f r.progress.param) ∧
      Scalar.le (stateAfter (plan A O k) r n).progress.bestCost (f r.progress.param) = true := by
  have hcosting : costing (plan A O k) r = (stateAfter (plan A O k) r 0).session := by
    unfold costing
    rw [hs]
  have hone : Goes (plan A O k) r 1 := hn.mono hpos
  obtain ⟨hprogress, hsolver⟩ := steepestDescent_opened rfl hs (hone.mono (Nat.zero_le 1))
  -- What the first iteration reports.
  obtain ⟨report, w, own, session, v, hstep, hown, hreported, hleft⟩ := iterate_reports (plan A O k)
    (hone.running 0 Nat.zero_lt_one) (hone.iterate_eq Nat.zero_lt_one)
  have hends := Method.ends_step_cost (t := (stateAfter (plan A O k) r 0).session) hA hfinite hchecked
  rw [← hsolver, ← hprogress] at hends
  obtain ⟨hcost, c, s', hw, hc, hle⟩ := hends.of_ok hstep
  rw [hprogress] at hcost hle
  rw [hcosting]
  refine ⟨hcost, hn.bestCost_le hpos ?_⟩
  have hlast : (stateAfter (plan A O k) r 1).solver = .steepestDescent s' := by
    rw [hw] at hown
    exact hleft.trans (congrArg (fun x => x.2.solver) hown).symm
  rw [hreported]
  rw [hlast] at hend
  exact ProgressOn.bestCost_update_le_of_cost ((hone.mono (Nat.zero_le 1)).isNaN_bestCost hbest) hc
    (hle hend)

/-- A run whose method improves. -/
theorem Goes.improves [Scalar.Signed α] (hA : A.operator.Deterministic f g h)
    (hn : Goes (plan A O k) r n) (hpos : 0 < n) (hbest : r.progress.bestCost = Scalar.infinity)
    (hfinite : Scalar.isFinite (f r.progress.param) = true)
    (hm : r.solver.Improves (stateAfter (plan A O k) r 1).solver) :
    (costing (plan A O k) r).Evaluates A r.progress.param (f r.progress.param) ∧
      Scalar.le (stateAfter (plan A O k) r n).progress.bestCost (f r.progress.param) = true := by
  cases hs : r.solver with
  | quasiNewton s =>
    refine hn.improves_of_init hbest hfinite (by simp [hs]) ?_
    rw [hs]
    exact (Method.ends_dispatch (fun S => S.init A r.progress) _).2
      ((Workspace.ends_wrapping ..).2 (QuasiNewton.ends_init_cost hA s))
  | trustRegion s =>
    refine hn.improves_of_init hbest hfinite (by simp [hs]) ?_
    rw [hs]
    exact (Method.ends_dispatch (fun S => S.init A r.progress) _).2
      ((Workspace.ends_wrapping ..).2 (TrustRegion.ends_init_cost hA s))
  | steepestDescent s =>
    rw [hs] at hm
    exact hn.improves_of_step hA hpos hbest hfinite hs hm.1 hm.2
  | _ =>
    rw [hs] at hm
    exact hm.elim

/-- **The best cost is no higher than the first one.**  Let a run return after an iteration at least,
    from any start, and whatever was given as cost, gradient and Hessian.  Its best cost is at most the
    cost at the start, which it has evaluated itself: if the method is the quasi-Newton method or a
    trust-region method; if it follows the steepest descent with a search for the strong Wolfe
    conditions, however that ends; and if it does so with a backtracking search that has met its
    conditions in the first iteration.  Nothing is asked of the arithmetic but the signs of sums and
    products, which are as expected for exact numbers and for doubles. -/
theorem bestCost_le_start [Scalar.Signed α] (A : Setting ω α)
    (hA : A.operator.Deterministic f g h) (O : Observer η α) (c : RunConfig α) (x : Tensor α)
    (hf : Scalar.isFinite (f x) = true) (cost? : Option α) (gradient? hessian? : Option (Tensor α))
    (m : Method α) (session : Session ω) (ws : List (Watch η)) (final : Run (Method α) ω η α) :
    let P := plan A O c
    let r := fresh P x cost? gradient? hessian? m session ws
    m.Improves (stateAfter P r 1).solver → (execute P).exec r = (.ok (), final) →
      0 < final.progress.iter →
      (costing P r).Evaluates A x (f x) ∧ Scalar.le final.progress.bestCost (f x) = true := by
  intro P r hm hok hiter
  obtain ⟨hparam, -, -, hbest⟩ := seeded_fields x c.maxIters cost? gradient? hessian?
  obtain ⟨hzero, -, -⟩ := seeded_unstarted x c.maxIters cost? gradient? hessian?
  obtain ⟨n, reason, hn, hprogress, -⟩ := goes_of_ok hok
  -- The run began at zero, so an iteration count above zero means that a first iteration was made.
  have hcount : final.progress.iter = r.progress.iter + n := by
    rw [hprogress]
    exact hn.iter_eq
  have hpos : 0 < n := by
    have hfirst : r.progress.iter = 0 := hzero
    omega
  have hx : r.progress.param = x := hparam
  have himproves := hn.improves hA hpos hbest (by rw [hx]; exact hf) hm
  rw [hx] at himproves
  rw [hprogress]
  exact himproves

/-! ### On the sphere function -/

/-- Steepest descent on the sphere function, for one iteration. -/
def steepPlan : Plan (Method (Exact ℚ)) Unit Empty (Exact ℚ) :=
  plan ⟨curvedSphere, true⟩ noObserver ⟨1, -1.0, true⟩

/-- Backtracking with the given first step length, which may make so many trials. -/
def steepSearch (step : Exact ℚ) (trials : ℕ) : LineSearch (Exact ℚ) :=
  .backtracking ⟨⟨none, step, trials, 0, none, none⟩, 1e-4, 0.5, 1.0⟩

/-- The run from the point `1`. -/
def steepStart (search : LineSearch (Exact ℚ)) : Run (Method (Exact ℚ)) Unit Empty (Exact ℚ) :=
  fresh steepPlan (.vector .array [1.0]) none none none (.steepestDescent search) (.start ()) []

/-- With two trials the search finds the minimum. -/
theorem bestCost_le_start_sphere : ∃ s final,
    Backtracking.make (1e-4 : Exact ℚ) 0.5 2 = .ok s ∧ .backtracking s = steepSearch 1.0 2 ∧
      (execute steepPlan).exec (steepStart (steepSearch 1.0 2)) = (.ok (), final) ∧
      0 < final.progress.iter ∧
      Scalar.le final.progress.bestCost (sphere (.vector .array [1.0])) = true := by
  have hmake : Backtracking.make (1e-4 : Exact ℚ) 0.5 2 =
      .ok ⟨⟨none, 1.0, 2, 0, none, none⟩, 1e-4, 0.5, 1.0⟩ :=
    Backtracking.make_eq_ok_iff.2 ⟨by decide +kernel, by decide +kernel, by decide, rfl⟩
  have hok : ((execute steepPlan).exec (steepStart (steepSearch 1.0 2))).1.isOk = true := by
    decide +kernel
  have hiter : 0 < ((execute steepPlan).exec (steepStart (steepSearch 1.0 2))).2.progress.iter := by
    decide +kernel
  have hm : (Method.steepestDescent (steepSearch 1.0 2)).Improves
      (stateAfter steepPlan (steepStart (steepSearch 1.0 2)) 1).solver :=
    ⟨LineSearch.checked_of_make_backtracking hmake, .inr (by decide +kernel)⟩
  exact ⟨_, _, hmake, rfl, Action.exec_eq_of_isOk hok, hiter, (bestCost_le_start ⟨curvedSphere, true⟩
    curvedSphere_deterministic noObserver ⟨1, -1.0, true⟩ (.vector .array [1.0]) (by decide +kernel)
    none none none _ (.start ()) [] _ hm (Action.exec_eq_of_isOk hok) hiter).2⟩

/-- **A search that runs out of trials may leave nothing better than the start.**  The first step is too
    long, and it is the only one. -/
theorem bestCost_above_start : ∃ s final,
    Backtracking.make (1e-4 : Exact ℚ) 0.5 1 = .ok s ∧
      (LineSearch.backtracking s).setInitialStep 2.0 = .ok (steepSearch 2.0 1) ∧
      (execute steepPlan).exec (steepStart (steepSearch 2.0 1)) = (.ok (), final) ∧
      final.progress.iter = 1 ∧
      (costing steepPlan (steepStart (steepSearch 2.0 1))).Evaluates ⟨curvedSphere, true⟩
        (.vector .array [1.0]) (sphere (.vector .array [1.0])) ∧
      Scalar.lt (sphere (.vector .array [1.0])) final.progress.bestCost = true := by
  have hmake : Backtracking.make (1e-4 : Exact ℚ) 0.5 1 =
      .ok ⟨⟨none, 1.0, 1, 0, none, none⟩, 1e-4, 0.5, 1.0⟩ :=
    Backtracking.make_eq_ok_iff.2 ⟨by decide +kernel, by decide +kernel, by decide, rfl⟩
  have hok : ((execute steepPlan).exec (steepStart (steepSearch 2.0 1))).1.isOk = true := by
    decide +kernel
  have hset : (LineSearch.backtracking ⟨⟨none, 1.0, 1, 0, none, none⟩, 1e-4, 0.5, 1.0⟩).setInitialStep
      2.0 = .ok (steepSearch 2.0 1) := by
    have hpos : Scalar.lt (0.0 : Exact ℚ) 2.0 = true := by decide +kernel
    unfold LineSearch.setInitialStep LineSearch.onLine Line.setInitialStep
    simp only [hpos, if_true]
    rfl
  have hevaluates (t : Session Unit) : t.Evaluates ⟨curvedSphere, true⟩ (.vector .array [1.0])
      (sphere (.vector .array [1.0])) := rfl
  exact ⟨_, _, hmake, hset, Action.exec_eq_of_isOk hok, by decide +kernel, hevaluates _,
    by decide +kernel⟩

end Run

end Minimization
