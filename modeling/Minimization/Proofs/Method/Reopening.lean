import Minimization.Proofs.Counts.Runs
import Minimization.Proofs.Method.Resting
import Minimization.Proofs.Operator.Transient
import Minimization.Proofs.QuasiNewton.Contract

namespace Minimization

/-!
# Initialising once more

The quasi-Newton method evaluates cost and gradient when a call begins.  In the midst of a run they are
known already, and merging them again changes nothing but the previous values, which the next step
overwrites.

* `ProgressOn.Settled` — cost and gradient are those at the point, and the cost is no new best.
* `ProgressOn.reopened` — the progress after the initialisation of another call.
* `ProgressOn.Settled.update` — merging what is known; `ProgressOn.update_reopened` — and what a step
  reports afterwards.
* `QuasiNewton.exec_init_settled` — what the initialisation reports, once nothing fails any more.
* `Method.Alike`, `Method.init_again` — whatever the method, it does not show in the next step.
* `QuasiNewton.Vectorial`, `QuasiNewton.OnVectors` — what the method relies on;
  `QuasiNewton.settled_of_consistent` — it keeps the progress settled.
* `Method.Recovers` — the methods that may be called again.
-/

variable {ω η α : Type}

/-! ### Progress -/

namespace ProgressOn

/-- Cost and gradient are those at the point, and the cost is not below the best one. -/
structure Settled [Scalar α] (F : Tensor α → Except (Failure α) α)
    (G : Tensor α → Except (Failure α) (Tensor α)) (p : Progress α) : Prop where
  cost : F p.param = .ok p.cost
  gradient : ∃ g, p.gradient = some g ∧ G p.param = .ok g
  best : Scalar.lt p.cost p.bestCost = false

/-- What is current has become what was before as well. -/
def reopened (p : Progress α) : Progress α :=
  { p with prevParam := p.param, prevCost := p.cost, prevGradient := p.gradient }

variable [Scalar α] {F : Tensor α → Except (Failure α) α} {G : Tensor α → Except (Failure α) (Tensor α)}
  {p : Progress α}

/-- Merging once more what is known. -/
theorem Settled.update (h : p.Settled F G) {g : Tensor α} (hg : p.gradient = some g) :
    (p.update { param := some p.param, cost := some p.cost, gradient := some g }).1 = p.reopened := by
  rw [update_of_not_lt]
  · rw [merge_eq]
    simp [reopened, hg]
  · rintro c ⟨⟩
    exact h.best

/-- A report with point, cost and gradient does not show whether there was another call. -/
theorem update_reopened {report : Report α} (hparam : report.param.isSome) (hcost : report.cost.isSome)
    (hgradient : report.gradient.isSome) : p.reopened.update report = p.update report := by
  have hmerge : p.reopened.merge report = p.merge report := by
    rw [merge_eq, merge_eq]
    simp [reopened, hparam, hcost, hgradient]
  unfold ProgressOn.update
  rw [hmerge]

/-- After a report with a cost, the cost is not below the best one. -/
theorem lt_best_update [Scalar.Ordered α] {report : Report α} (hcost : report.cost.isSome) :
    Scalar.lt (p.update report).1.cost (p.update report).1.bestCost = false := by
  obtain ⟨c, hc⟩ := Option.isSome_iff_exists.1 hcost
  obtain ⟨c', hc', -, heq⟩ | ⟨hnot, heq⟩ := update_cases p report
  · obtain rfl : c' = c := Option.some.inj (hc'.symm.trans hc)
    rw [heq, merge_eq]
    simpa [promote, hc] using Scalar.Ordered.lt_irrefl c'
  · rw [heq, merge_eq]
    simpa [hc] using hnot c hc

end ProgressOn

/-! ### The method at hand -/

/-- What the method at hand ends in is what the solver in it ends in. -/
theorem Method.ends_dispatch [Scalar α] {β : Type}
    (act : {σ : Type} → Solver σ ω α → Action (Workspace σ ω) α β) (w : Workspace (Method α) ω)
    {Q : β → Workspace (Method α) ω → Prop} {E : Failure α → Prop} :
    (dispatch act).Ends w Q E ↔ (acting act w.solver).Ends w Q E := by
  unfold Action.Ends
  rw [exec_dispatch]

/-! ### The initialisation -/

namespace QuasiNewton

variable [Scalar α]

/-- **The initialisation of another call** reports what is known. -/
theorem exec_init_settled {A : Setting ω α} {spent : ω → Prop} {F : Tensor α → Except (Failure α) α}
    {G H : Tensor α → Except (Failure α) (Tensor α)} (hA : A.operator.Transient spent F G H)
    {p : Progress α} (hp : p.Settled F G) {g : Tensor α} (hg : p.gradient = some g)
    (s : QuasiNewton α) {t : Session ω} (ht : spent t.host.memory) :
    ∃ t', (QuasiNewton.solver.init A p).exec ⟨s, t⟩ =
      (.ok (some { param := some p.param, cost := some p.cost, gradient := some g }), ⟨s, t'⟩) := by
  obtain ⟨g', hg', hanswer⟩ := hp.gradient
  obtain rfl : g' = g := Option.some.inj (hg'.symm.trans hg)
  -- The cost and the gradient of the point are known, so the answers are those given before.
  have hinit : (init A p).Ends ⟨s, t⟩ (fun report? w =>
      report? = some { param := some p.param, cost := some p.cost, gradient := some g' } ∧
        w.solver = s) fun _ => False := by
    refine ends_init_iff.2 ((hA.ends_cost_spent hp.cost ht).mono ?_)
    rintro c t' ⟨rfl, ht'⟩
    refine (hA.ends_gradient_spent hanswer ht').mono ?_
    rintro v t'' ⟨rfl, -⟩
    exact ⟨rfl, rfl⟩
  obtain ⟨report?, ⟨s', t'⟩, hexec, rfl, rfl⟩ := hinit.exists_ok
  exact ⟨t', hexec⟩

/-- A step reports point, cost and gradient. -/
theorem report_of_step {A : Setting ω α} {p : Progress α} {w v : Workspace (QuasiNewton α) ω}
    {report : Report α} (h : (QuasiNewton.solver.step A p).exec w = (.ok report, v)) :
    report.param.isSome ∧ report.cost.isSome ∧ report.gradient.isSome := by
  obtain ⟨found, v, -, rfl⟩ := (ends_step_report p w).of_ok h
  exact ⟨rfl, rfl, rfl⟩

end QuasiNewton

/-- The method at hand makes the same step from `q` as from `p`, and it leads to the same progress. -/
structure Method.Alike [Scalar α] (A : Setting ω α) (m : Method α) (p q : Progress α) : Prop where
  step : ∀ t, (Method.solver.step A q).exec ⟨m, t⟩ = (Method.solver.step A p).exec ⟨m, t⟩
  update : ∀ {t report v}, (Method.solver.step A p).exec ⟨m, t⟩ = (.ok report, v) →
    q.update report = p.update report
  reason : q.reason = p.reason

/-- Another call does not show in a step of the quasi-Newton method. -/
theorem QuasiNewton.alike_reopened [Scalar α] (A : Setting ω α) (s : QuasiNewton α) (p : Progress α) :
    Method.Alike A (.quasiNewton s) p p.reopened where
  step t := by
    -- The quasi-Newton step never reads what reopening changes, the previous point, cost and gradient.
    rw [Method.exec_step, Method.exec_step]
    rfl
  update {t report v} h := by
    rw [Method.exec_step] at h
    have houtcome : ((QuasiNewton.solver.step A p).exec ⟨s, t⟩).1 = .ok report := congrArg Prod.fst h
    obtain ⟨hparam, hcost, hgradient⟩ := report_of_step (Prod.ext houtcome rfl)
    exact ProgressOn.update_reopened hparam hcost hgradient
  reason := rfl

/-- **Whatever the method**, the initialisation of another call succeeds and does not show in the next
    step, if the quasi-Newton method finds the progress settled. -/
theorem Method.init_again [Scalar α] {A : Setting ω α} {spent : ω → Prop}
    {F : Tensor α → Except (Failure α) α} {G H : Tensor α → Except (Failure α) (Tensor α)}
    (hA : A.operator.Transient spent F G H) {m : Method α} (hm : m.Stateless) {p : Progress α}
    (hp : ∀ s, m = .quasiNewton s → p.Settled F G) {t : Session ω} (ht : spent t.host.memory) :
    ∃ report? t', (Method.solver.init A p).exec ⟨m, t⟩ = (.ok report?, ⟨m, t'⟩) ∧
      Method.Alike A m p (Run.started p report?) := by
  have hsame : Method.Alike A m p p := ⟨fun _ => rfl, fun _ => rfl, rfl⟩
  rw [exec_init]
  -- Three methods initialise nothing; the quasi-Newton method is the one that asks again.
  cases m with
  | landweber s => exact ⟨none, t, rfl, hsame⟩
  | newton s => exact ⟨none, t, rfl, hsame⟩
  | steepestDescent s => exact ⟨none, t, rfl, hsame⟩
  | quasiNewton s =>
    have hsettled := hp s rfl
    obtain ⟨g, hg, -⟩ := hsettled.gradient
    obtain ⟨t', hinit⟩ := QuasiNewton.exec_init_settled hA hsettled hg s ht
    unfold acting Workspace.wrapping
    rw [Action.exec_focus, hinit]
    refine ⟨_, t', rfl, ?_⟩
    have hstarted : Run.started p
        (some { param := some p.param, cost := some p.cost, gradient := some g }) = p.reopened :=
      hsettled.update hg
    rw [hstarted]
    exact QuasiNewton.alike_reopened A s p
  | lineSearch s => exact hm.elim
  | dogleg s => exact hm.elim
  | trustRegion s => exact hm.elim
  | script s => exact hm.elim

/-! ### Runs -/

namespace QuasiNewton

section
variable {K : Type} [Field K] [LinearOrder K] [Roots K]

/-- The method starts from a vector with a matrix, and on vectors the operator has costs, and gradients
    that are vectors. -/
def OnVectors (F : Tensor (Exact K) → Except (Failure (Exact K)) (Exact K))
    (G : Tensor (Exact K) → Except (Failure (Exact K)) (Tensor (Exact K))) (x : Tensor (Exact K))
    (s : QuasiNewton (Exact K)) : Prop :=
  s.search.Sound ∧ ∃ (b : Backend) (n : Nat) (x₀ : Fin n → K) (M : Matrix (Fin n) (Fin n) K),
    x = .ofVec b x₀ ∧ s.inverseHessian = .ofMat b M ∧
      ∀ y : Fin n → K, (∃ c, F (.ofVec b y) = .ok c) ∧
        ∃ v : Fin n → K, G (.ofVec b y) = .ok (.ofVec b v)

variable {b : Backend} {n : Nat} {f : Tensor (Exact K) → Exact K}
  {g : Tensor (Exact K) → Tensor (Exact K)} {p q : Progress (Exact K)} {s : QuasiNewton (Exact K)}

/-- Cost and gradient are those at the point, whatever has been best so far, and the cost is no new
    best. -/
def Steady (b : Backend) (n : Nat) (f : Tensor (Exact K) → Exact K)
    (g : Tensor (Exact K) → Tensor (Exact K)) (p : Progress (Exact K)) (m : Method (Exact K)) : Prop :=
  ∃ s, m = .quasiNewton s ∧
    Holds b f g (fun _ : Matrix (Fin n) (Fin n) K => True) { p with bestCost := Scalar.infinity } s ∧
      Scalar.lt p.cost p.bestCost = false

/-- What the method holds to does not depend on what has been best. -/
theorem Holds.unranked {D : Matrix (Fin n) (Fin n) K → Prop} (h : Holds b f g D q s)
    (hparam : p.param = q.param) (hcost : p.cost = q.cost) (hgradient : p.gradient = q.gradient) :
    Holds b f g D { p with bestCost := Scalar.infinity } s where
  sound := h.sound
  hessian := h.hessian
  param := by
    rw [hparam]
    exact h.param
  cost := by
    rw [hparam, hcost]
    exact h.cost
  gradient := by
    rw [hparam, hgradient]
    exact h.gradient
  best := .of_infinite rfl

/-- The reason to stop is no part of it. -/
theorem Steady.stopped {m : Method (Exact K)} (h : Steady b n f g p m) (reason : Reason) :
    Steady b n f g { p with reason := reason } m := by
  obtain ⟨s, rfl, hholds, hbest⟩ := h
  exact ⟨s, rfl, hholds.unranked rfl rfl rfl, hbest⟩

variable [IsStrictOrderedRing K] {A : Setting ω (Exact K)} {G' : (Fin n → K) → Fin n → K}

/-- **The contract of a run**, whatever has been best when it starts. -/
theorem steady_contract
    (hA : Ground A b f g G' (fun _ : Matrix (Fin n) (Fin n) K => True) fun _ => True)
    (O : Observer η (Exact K)) (c : RunConfig (Exact K)) :
    Run.Contract (Run.plan A O c) (Steady b n f g) (Steady b n f g) fun _ => True := by
  refine Run.Contract.anyhow (S := Method.solver) (fun _ h => h.stopped _) ?_ ?_
  -- A step merges a cost, and after that the cost is no new best one.
  · rintro p _ session ⟨s, rfl, hholds, -⟩ -
    refine (Method.ends_dispatch (fun S => S.step A p) ⟨.quasiNewton s, session⟩).2 ?_
    refine (Workspace.ends_wrapping ..).2 ((ends_step_searched hA hholds).mono ?_)
    rintro report w ⟨hnext, -, -, found, -, -, -, -, -, hcost, -⟩
    exact ⟨w.solver, rfl, hnext.unranked (by simp) (by simp) (by simp),
      ProgressOn.lt_best_update (by rw [hcost]; rfl)⟩
  · rintro p _ session ⟨s, rfl, hholds, hbest⟩
    refine (Method.ends_dispatch (fun S => S.terminate p) ⟨.quasiNewton s, session⟩).2 ?_
    refine (Workspace.ends_wrapping ..).2 ((ends_terminate hA hholds).mono ?_)
    rintro own w rfl
    exact ⟨w.solver, rfl, hholds.unranked rfl rfl rfl, hbest⟩

omit [IsStrictOrderedRing K] in
/-- **The start of a run.** -/
theorem steady_inits
    (hA : Ground A b f g G' (fun _ : Matrix (Fin n) (Fin n) K => True) fun _ => True)
    (O : Observer η (Exact K)) (c : RunConfig (Exact K)) {r : Run (Method (Exact K)) ω η (Exact K)}
    (hr : r.solver = .quasiNewton s) (hs : s.search.Sound) {x : Fin n → K}
    (hx : r.progress.param = .ofVec b x) {M : Matrix (Fin n) (Fin n) K}
    (hM : s.inverseHessian = .ofMat b M) :
    Run.Contract.Inits (Run.plan A O c) r (Steady b n f g) fun _ => True := by
  intro session
  -- The report of the initialisation carries a cost, so the same holds from the start.
  have hsome : (init A r.progress).Ends ⟨s, session⟩
      (fun report? _ => ∃ report, report? = some report ∧ report.cost.isSome) fun _ => True := by
    refine ends_init_iff.2 ((Action.ends_anyhow _ _).mono fun cost _ _ => ?_)
    exact (Action.ends_anyhow _ _).mono fun gradient _ _ => ⟨_, rfl, rfl⟩
  have hinit := (ends_init (p := { r.progress with bestCost := Scalar.infinity }) hA hx
    (.of_infinite rfl) hs ⟨M, hM, trivial⟩).also hsome
  refine (Method.ends_dispatch (fun S => S.init A r.progress) ⟨r.solver, session⟩).2 ?_
  rw [hr]
  refine (Workspace.ends_wrapping ..).2 (hinit.mono ?_)
  rintro _ w ⟨hholds, report, rfl, hcost⟩
  exact ⟨w.solver, rfl, hholds.unranked (by simp [Run.started]) (by simp [Run.started])
    (by simp [Run.started]), ProgressOn.lt_best_update hcost⟩

/-- The method starts from a vector with a matrix, and the gradients of vectors, where there are any,
    are vectors. -/
def Vectorial (G : Tensor (Exact K) → Except (Failure (Exact K)) (Tensor (Exact K)))
    (x : Tensor (Exact K)) (s : QuasiNewton (Exact K)) : Prop :=
  s.search.Sound ∧ ∃ (b : Backend) (n : Nat) (x₀ : Fin n → K) (M : Matrix (Fin n) (Fin n) K),
    x = .ofVec b x₀ ∧ s.inverseHessian = .ofMat b M ∧
      ∀ (y : Fin n → K) v, G (.ofVec b y) = .ok v → ∃ v' : Fin n → K, v = .ofVec b v'

variable {F : Tensor (Exact K) → Except (Failure (Exact K)) (Exact K)}
  {G H : Tensor (Exact K) → Except (Failure (Exact K)) (Tensor (Exact K))}

omit [IsStrictOrderedRing K] in
/-- Where there is no cost, any other number may stand for it. -/
theorem Ground.of_consistent (hA : A.operator.Consistent F G H) (unknown : Exact K)
    (hG : ∀ (y : Fin n → K) v, G (.ofVec b y) = .ok v → ∃ v' : Fin n → K, v = .ofVec b v') :
    ∃ g G', Ground A b (fun y => (F y).toOption.getD unknown) g G'
      (fun _ : Matrix (Fin n) (Fin n) K => True) fun _ => True := by
  -- Where the gradient raises, any vector will do: what is said of it is said of answers only.
  have hvector (y : Fin n → K) :
      ∃ v : Fin n → K, (G (.ofVec b y)).toOption.getD (.ofVec b y) = .ofVec b v := by
    cases hy : G (.ofVec b y) with
    | error e => exact ⟨y, rfl⟩
    | ok v =>
      obtain ⟨v', rfl⟩ := hG y v hy
      exact ⟨v', rfl⟩
  choose G' hG' using hvector
  refine ⟨fun y => (G y).toOption.getD y, G', fun z host _ => ?_, fun z host _ => ?_, hG',
    fun _ _ _ _ => trivial, fun _ _ _ => .inr (.inr trivial), ⟨fun _ _ => trivial, fun _ => trivial⟩⟩
  · refine .intro (fun c host' hok => ?_) fun _ _ _ => trivial
    rw [← hA.cost z host, hok]
    rfl
  · refine .intro (fun v host' hok => ?_) fun _ _ _ => trivial
    rw [← hA.gradient z host, hok]
    rfl

omit [Field K] [LinearOrder K] [Roots K] [IsStrictOrderedRing K] in
/-- A step reports the gradient at the point that it reports. -/
theorem ends_step_gradient [Scalar α] {A : Setting ω α} {F : Tensor α → Except (Failure α) α}
    {G H : Tensor α → Except (Failure α) (Tensor α)} (hA : A.operator.Consistent F G H) (p : Progress α)
    (w : Workspace (QuasiNewton α) ω) : (solver.step A p).Ends w (fun report _ =>
      ∃ x v, report.param = some x ∧ report.gradient = some v ∧ G x = .ok v) fun _ => True := by
  refine (ends_step_report p w).mono ?_
  rintro report u ⟨found, v, hv, rfl⟩
  exact ⟨found.param, v, rfl, rfl, hv.of_ends fun t => hA.ends_gradient found.param⟩

/-- The gradient is the one at the point. -/
def Inclined (G : Tensor (Exact K) → Except (Failure (Exact K)) (Tensor (Exact K)))
    (p : Progress (Exact K)) (m : Method (Exact K)) : Prop :=
  ∃ s v, m = .quasiNewton s ∧ p.gradient = some v ∧ G p.param = .ok v

omit [IsStrictOrderedRing K] in
/-- A run that comes from the quasi-Newton method has the gradient at its point after every iteration. -/
theorem inclined_of_reached (hA : A.operator.Consistent F G H) {O : Observer η (Exact K)}
    {c : RunConfig (Exact K)} {r t : Run (Method (Exact K)) ω η (Exact K)} (hr : r.solver = .quasiNewton s)
    (ht : Run.Reached (Run.plan A O c) r t) : Inclined G t.progress t.solver := by
  -- A step merges the gradient of the point it reaches, and the termination test changes neither.
  have hcontract : Run.Contract (Run.plan A O c) (Inclined G) (Inclined G) fun _ => True := by
    refine Run.Contract.anyhow (S := Method.solver) (fun _ h => h) ?_ ?_
    · rintro p _ session ⟨s, -, rfl, -⟩ -
      refine (Method.ends_dispatch (fun S => S.step A p) ⟨.quasiNewton s, session⟩).2 ?_
      refine (Workspace.ends_wrapping ..).2 ((ends_step_gradient hA p _).mono ?_)
      rintro report w ⟨x, v, hx, hv, hanswer⟩
      exact ⟨w.solver, v, rfl, by simp [hv], by simpa [hx] using hanswer⟩
    · rintro p _ session ⟨s, v, rfl, hv, hanswer⟩
      refine (Method.ends_dispatch (fun S => S.terminate p) ⟨.quasiNewton s, session⟩).2 ?_
      refine (Workspace.ends_wrapping ..).2 ((Action.ends_anyhow _ _).mono fun own w _ => ?_)
      exact ⟨w.solver, v, rfl, hv, hanswer⟩
  refine hcontract.reached (fun session => ?_) ht
  refine (Method.ends_dispatch (fun S => S.init A r.progress) ⟨r.solver, session⟩).2 ?_
  rw [hr]
  refine (Workspace.ends_wrapping ..).2 ?_
  refine ends_init_iff.2 ((Action.ends_anyhow _ _).mono fun cost _ _ => ?_)
  refine (hA.ends_gradient _).mono fun v _ hv => ?_
  exact ⟨s, v, rfl, by simp [Run.started], by simpa [Run.started] using hv⟩

/-- **Between two iterations the progress is settled**, if answers and failures depend on the point
    alone. -/
theorem settled_of_consistent (hA : A.operator.Consistent F G H) {O : Observer η (Exact K)}
    {c : RunConfig (Exact K)} {r t : Run (Method (Exact K)) ω η (Exact K)}
    (hr : r.solver = .quasiNewton s) (hs : Vectorial G r.progress.param s)
    (ht : Run.Reached (Run.plan A O c) r t) : t.progress.Settled F G := by
  obtain ⟨hsound, b, n, x, M, hx, hM, hG⟩ := hs
  -- The cost is that at the point, whatever stands for costs that there are not.
  have hsteady (unknown : Exact K) : t.progress.cost =
      (F t.progress.param).toOption.getD unknown ∧
        Scalar.lt t.progress.cost t.progress.bestCost = false := by
    obtain ⟨g, G', hground⟩ := Ground.of_consistent hA unknown hG
    obtain ⟨s, -, hholds, hbest⟩ :=
      (steady_contract hground O c).reached (steady_inits hground O c hr hsound hx hM) ht
    exact ⟨hholds.cost, hbest⟩
  obtain ⟨-, v, -, hgradient, hanswer⟩ := inclined_of_reached hA hr ht
  refine ⟨?_, ⟨v, hgradient, hanswer⟩, (hsteady Scalar.infinity).2⟩
  have hinfinite := (hsteady Scalar.infinity).1
  have hundefined := (hsteady Scalar.notANumber).1
  cases hF : F t.progress.param with
  | ok cost =>
    rw [hF] at hinfinite
    exact congrArg _ hinfinite.symm
  | error e =>
    rw [hF] at hinfinite hundefined
    cases hinfinite.symm.trans hundefined

/-- So it is, in particular, if the operator answers on all vectors. -/
theorem settled_of_reached (hA : A.operator.Pointwise F G H) {O : Observer η (Exact K)}
    {c : RunConfig (Exact K)} {r t : Run (Method (Exact K)) ω η (Exact K)}
    (hr : r.solver = .quasiNewton s) (hs : OnVectors F G r.progress.param s)
    (ht : Run.Reached (Run.plan A O c) r t) : t.progress.Settled F G := by
  obtain ⟨hsound, b, n, x, M, hx, hM, hanswers⟩ := hs
  refine settled_of_consistent hA.consistent hr ⟨hsound, b, n, x, M, hx, hM, fun y v hv => ?_⟩ ht
  obtain ⟨v', hv'⟩ := (hanswers y).2
  exact ⟨v', Except.ok.inj (hv.symm.trans hv')⟩

end

end QuasiNewton

/-! ### Methods that may be called again -/

section
variable {K : Type} [Field K] [LinearOrder K] [Roots K]

/-- The methods that keep nothing of a step but an inverse Hessian; the quasi-Newton method starts from
    a vector. -/
def Method.Recovers (F : Tensor (Exact K) → Except (Failure (Exact K)) (Exact K))
    (G : Tensor (Exact K) → Except (Failure (Exact K)) (Tensor (Exact K))) (x : Tensor (Exact K)) :
    Method (Exact K) → Prop
  | .landweber _ => True
  | .newton _ => True
  | .steepestDescent _ => True
  | .quasiNewton s => QuasiNewton.OnVectors F G x s
  | _ => False

omit [Roots K] in
/-- They are such methods. -/
theorem Method.Recovers.stateless {F : Tensor (Exact K) → Except (Failure (Exact K)) (Exact K)}
    {G : Tensor (Exact K) → Except (Failure (Exact K)) (Tensor (Exact K))} {x : Tensor (Exact K)}
    {m : Method (Exact K)} (h : m.Recovers F G x) : m.Stateless := by
  cases m with
  | landweber s => trivial
  | newton s => trivial
  | steepestDescent s => trivial
  | quasiNewton s => trivial
  | _ => exact h.elim

end

end Minimization
