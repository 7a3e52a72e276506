import Minimization.LineSearch.Basic
import Minimization.Proofs.Contract.Nested
import Minimization.Proofs.Counts.Recording
import Minimization.Proofs.LineSearch.Backtracking
import Minimization.Proofs.LineSearch.StrongWolfe

namespace Minimization.LineSearch

open Minimization

/-!
# What a line search finds

* `Sound` — either search with checked settings; `decrease` — what is asked of a step.
* `Stage` — what either search keeps in an iteration.
* `contract` — the contract of the nested run of a search along a ray.
* `Found`, `ends_run` — what such a run returns: a point of the ray with the cost there, and for the
  strong Wolfe conditions all that is known of the lower end of the bracket.
-/

variable {K ω : Type} [Field K] [LinearOrder K] [Roots K]

/-- A search with checked settings. -/
def Sound : LineSearch (Exact K) → Prop
  | .backtracking s => s.Sound
  | .strongWolfe s => s.Sound
  | .unsuited _ => False

/-- The fraction of the slope that a decrease must reach. -/
def decrease : LineSearch (Exact K) → Exact K
  | .backtracking s => s.decrease
  | .strongWolfe s => s.decrease
  | .unsuited _ => .notANumber

section
variable (r : Ray K) (f : Tensor (Exact K) → Exact K) (g : Tensor (Exact K) → Tensor (Exact K))
  (m₀ : LineSearch (Exact K))

/-- What progress and memory of a search along `r` have in common, if the search started as `m₀`. -/
def Stage (p : Progress (Exact K)) : LineSearch (Exact K) → Prop
  | .backtracking s => (∃ s₀, m₀ = .backtracking s₀) ∧ ∃ slope,
      r.backend.dot (g r.start) r.way = .ok slope ∧ Backtracking.Keeps r f g m₀.decrease slope p s
  | .strongWolfe s => ∃ s₀, m₀ = .strongWolfe s₀ ∧ ∃ slope a,
      r.backend.dot (g r.start) r.way = .ok slope ∧ StrongWolfe.Keeps r f g s₀ slope a p s ∧
        StrongWolfe.Tally r s₀ p s
  | .unsuited _ => False

/-- A search that is not over may make another trial. -/
def Searching : LineSearch (Exact K) → Prop
  | .strongWolfe s => ¬r.Still → s.line.done = none ∧ s.line.trials < s.line.maxTrials
  | _ => True

/-- The number of iterations stays below the cap of a nested run. -/
structure Within (p : Progress (Exact K)) : Prop where
  maxIters : p.maxIters = RunConfig.defaultMaxIters
  iter : p.iter ≤ RunConfig.defaultMaxIters

/-- The configuration of a nested run. -/
def nestedConfig : RunConfig (Exact K) := { RunConfig.standard with guarded := false }

/-- Before the stopping rules are asked. -/
structure Merged (p : Progress (Exact K)) (m : LineSearch (Exact K)) : Prop extends Within p where
  stage : Stage r f g m₀ p m
  reason : p.reason = .notTerminated

/-- After the stopping rules have been asked. -/
structure Ruled (p : Progress (Exact K)) (m : LineSearch (Exact K)) : Prop extends Within p where
  stage : Stage r f g m₀ p m
  running : p.reason = .notTerminated → p.iter < RunConfig.defaultMaxIters ∧ Searching r m
  stopped : p.reason ≠ .notTerminated → p.reason = Run.ruling nestedConfig p m.reason

end

variable {r : Ray K} {f : Tensor (Exact K) → Exact K} {g : Tensor (Exact K) → Tensor (Exact K)}
  {m₀ m : LineSearch (Exact K)} {E : Failure (Exact K) → Prop} {A : Setting ω (Exact K)}
  {p : Progress (Exact K)} {session : Session ω}

/-! ### Stages -/

/-- The progress of a search shows a point of its ray with the cost there. -/
theorem Stage.coherent (h : Stage r f g m₀ p m) :
    (∃ a, p.param = r.point a) ∧ p.cost = f p.param := by
  cases m with
  | backtracking s =>
    obtain ⟨-, slope, -, hkeeps⟩ := h
    exact ⟨hkeeps.param, hkeeps.cost⟩
  | strongWolfe s =>
    obtain ⟨s₀, -, slope, a, -, hkeeps, -⟩ := h
    exact ⟨⟨a, hkeeps.param⟩, by rw [hkeeps.cost, hkeeps.param]⟩
  | unsuited text => exact h.elim

/-- The settings stay checked. -/
theorem Stage.sound (h : Stage r f g m₀ p m) (h₀ : m₀.Sound) : m.Sound := by
  cases m with
  | backtracking s =>
    obtain ⟨-, slope, -, hkeeps⟩ := h
    exact hkeeps.sound
  | strongWolfe s =>
    obtain ⟨s₀, rfl, slope, a, -, hkeeps, -⟩ := h
    exact hkeeps.holds.same.sound h₀
  | unsuited text => exact h.elim

/-- So does the fraction of the slope that a decrease must reach. -/
theorem Stage.decrease (h : Stage r f g m₀ p m) : m.decrease = m₀.decrease := by
  cases m with
  | backtracking s =>
    obtain ⟨-, slope, -, hkeeps⟩ := h
    exact hkeeps.decrease
  | strongWolfe s =>
    obtain ⟨s₀, rfl, slope, a, -, hkeeps, -⟩ := h
    exact hkeeps.holds.same.decrease
  | unsuited text => exact h.elim

/-- A search does not turn into the other one. -/
theorem Stage.isStrong (h : Stage r f g m₀ p m) : m.isStrong = m₀.isStrong := by
  cases m with
  | backtracking s =>
    obtain ⟨⟨s₀, rfl⟩, -⟩ := h
    rfl
  | strongWolfe s =>
    obtain ⟨s₀, rfl, -⟩ := h
    rfl
  | unsuited text => exact h.elim

/-- A search that gives no reason to stop may make another trial. -/
theorem Stage.searching (h : Stage r f g m₀ p m) (hgo : m.reason = .notTerminated) :
    Searching r m := by
  cases m with
  | backtracking s => trivial
  | strongWolfe s =>
    obtain ⟨s₀, -, slope, a, -, hkeeps, -⟩ := h
    obtain ⟨k, -, -, -, hverdict⟩ := hkeeps.holds.bracket
    intro _
    simp only [LineSearch.reason, Line.reason] at hgo
    generalize s.line.done = done at hverdict hgo ⊢
    cases hverdict with
    | searching => exact ⟨rfl, by simpa using hgo⟩
    | still => simp at hgo
    | accepted => simp at hgo
    | narrow => simp at hgo
  | unsuited text => trivial

/-- Stopping does not show in a stage. -/
theorem Stage.stopped (h : Stage r f g m₀ p m) (reason : Reason) :
    Stage r f g m₀ { p with reason := reason } m := by
  cases m with
  | backtracking s =>
    obtain ⟨hm, slope, hslope, hkeeps⟩ := h
    exact ⟨hm, slope, hslope, hkeeps.sound, hkeeps.decrease, hkeeps.line, hkeeps.step,
      hkeeps.param, hkeeps.cost, hkeeps.verdict⟩
  | strongWolfe s =>
    obtain ⟨s₀, hm, slope, a, hslope, hkeeps, htally⟩ := h
    exact ⟨s₀, hm, slope, a, hslope, ⟨hkeeps.holds, hkeeps.param, hkeeps.cost, hkeeps.gradient⟩,
      htally⟩
  | unsuited text => exact h.elim

/-! ### The contract of a nested run -/

/-- Asking for a reason to stop changes nothing. -/
theorem ends_terminate (h : Stage r f g m₀ p m) : (solver.terminate p).Ends ⟨m, session⟩
    (fun own w => own = m.reason ∧ w.solver = m) E := by
  cases m with
  | backtracking s =>
    show (dispatch _ _).Ends _ _ _
    rw [ends_dispatch_backtracking]
    exact ⟨rfl, rfl⟩
  | strongWolfe s =>
    show (dispatch _ _).Ends _ _ _
    rw [ends_dispatch_strongWolfe]
    exact ⟨rfl, rfl⟩
  | unsuited text => exact h.elim

/-- The stopping rules. -/
theorem Merged.ruled (h : Merged r f g m₀ p m) :
    Ruled r f g m₀ { p with reason := Run.ruling nestedConfig p m.reason } m where
  maxIters := h.maxIters
  iter := h.iter
  stage := h.stage.stopped _
  running := by
    intro hgo
    obtain ⟨hown, hcap⟩ := Run.of_ruling_eq_running hgo
    refine ⟨?_, h.stage.searching hown⟩
    rw [h.maxIters] at hcap
    exact_mod_cast hcap
  stopped _ := rfl

/-- What debug mode may find after an iteration. -/
theorem Merged.inspected {q : Run (LineSearch (Exact K)) ω Empty (Exact K)}
    {report : Report (Exact K)} {w : Workspace (LineSearch (Exact K)) ω} {e : Failure (Exact K)}
    (h : Merged r f g m₀ (q.progress.update report).1.increment w.solver)
    (hnumbers : A.debug = true → (∀ a, Scalar.isNaN (f (r.point a)) = false) ∨
      ∀ name iter, E (.numerical (.undefinedCost name iter)))
    (hexec : (solver.step A q.progress).exec ⟨q.solver, q.session⟩ = (.ok report, w))
    (hfound : Run.inspection (Run.nestedPlan LineSearch.solver A) q.session.counts
      (Run.counted q report w) = .error e) : E e := by
  obtain ⟨⟨a, hparam⟩, hcost⟩ := h.stage.coherent
  -- Counters never go down in a step, so that only the cost can fail the check.
  obtain ⟨d, hd⟩ :=
    Solver.step_grows (fun n c => LineSearch.follows (ledger_lockstep n c A)) hexec
  have hcounts : (Run.counted q report w).session.counts = q.session.counts + d := hd
  have hnumber : (Run.counted q report w).progress.cost = f (r.point a) := by
    rw [← hparam, ← hcost]
    rfl
  unfold Run.inspection Run.finding at hfound
  rw [hcounts, Counts.decreased?_add, hnumber] at hfound
  split at hfound
  · next hdebug =>
    split at hfound
    · next hnan =>
      obtain rfl := Except.error.inj hfound
      obtain h | h := hnumbers hdebug
      · rw [h a] at hnan
        simp at hnan
      · exact h _ _
    · simp at hfound
  · simp at hfound

variable [IsStrictOrderedRing K]

/-- An iteration of either search. -/
theorem Ruled.step (h : Ruled r f g m₀ p m) (hA : Line.Terrain A r f g E)
    (hrun : p.reason = .notTerminated) : (solver.step A p).Ends ⟨m, session⟩
      (fun report w => Merged r f g m₀ (p.update report).1.increment w.solver) E := by
  obtain ⟨hlt, hsearching⟩ := h.running hrun
  have hwithin (report : Report (Exact K)) : Within (p.update report).1.increment :=
    ⟨by simp [h.maxIters], by simp; omega⟩
  have hstage := h.stage
  -- Each search keeps its own record of what it has come to.
  cases m with
  | backtracking s =>
    show (dispatch _ _).Ends _ _ _
    rw [ends_dispatch_backtracking]
    obtain ⟨hm, slope, hslope, hkeeps⟩ := hstage
    refine (Backtracking.ends_trial hA hkeeps).mono ?_
    intro report w hkeeps'
    exact ⟨hwithin report, ⟨hm, slope, hslope, hkeeps'⟩, by simp [hrun]⟩
  | strongWolfe s =>
    obtain ⟨s₀, rfl, slope, a, hslope, hkeeps, htally⟩ := hstage
    show (dispatch _ _).Ends _ _ _
    rw [ends_dispatch_strongWolfe]
    have hgo : ¬r.Still → s.line.done = none ∧ s.line.trials < s₀.line.maxTrials :=
      hkeeps.holds.same.maxTrials ▸ hsearching
    refine (StrongWolfe.ends_trial hA hkeeps htally hgo).mono ?_
    rintro report w ⟨a', hkeeps', htally'⟩
    exact ⟨hwithin report, ⟨s₀, rfl, slope, a', hslope, hkeeps', htally'⟩, by simp [hrun]⟩
  | unsuited text => exact hstage.elim

/-- **The contract of a search along a ray.**  In debug mode the costs must be numbers, or else
    their absence is a failure of the expected kind. -/
theorem contract (hA : Line.Terrain A r f g E)
    (hnumbers : A.debug = true → (∀ a, Scalar.isNaN (f (r.point a)) = false) ∨
      ∀ name iter, E (.numerical (.undefinedCost name iter))) :
    Run.Contract (Run.nestedPlan LineSearch.solver A) (Merged r f g m₀) (Ruled r f g m₀) E where
  stopped := by
    -- A nested run has a cap above zero and is not guarded.
    rintro p m reason (hzero | hguarded) h
    · rw [h.maxIters] at hzero
      exact absurd hzero (by decide)
    · exact absurd hguarded (by simp [Run.nestedPlan])
  step _ h hrun := h.step hA hrun
  inspected h hrun hexec hfound :=
    ((h.step hA hrun).of_ok hexec).inspected hnumbers hexec hfound
  terminate _ h := by
    refine (ends_terminate h.stage).mono ?_
    rintro own w ⟨rfl, hw⟩
    rw [hw]
    exact h.ruled
  introduced name notes ws := Run.noObserver_introduced name notes ws E
  watched p notes isNewBest ws := Run.noObserver_watched p notes isNewBest ws E

/-! ### A whole search -/

omit [Field K] [LinearOrder K] [IsStrictOrderedRing K] [Roots K] in
/-- The direction is no part of the condition of decrease. -/
theorem decrease_aimed (way : Tensor (Exact K)) (m : LineSearch (Exact K)) :
    (m.aimed way).decrease = m.decrease := by
  cases m <;> rfl

/-- The result of a search along a ray that started with the memory `m₀`. -/
structure Found (r : Ray K) (f : Tensor (Exact K) → Exact K)
    (g : Tensor (Exact K) → Tensor (Exact K)) (m₀ : LineSearch (Exact K)) (p : Progress (Exact K))
    (m : LineSearch (Exact K)) : Prop extends Within p where
  stage : Stage r f g (m₀.aimed r.way) p m
  terminal : p.reason.isTerminal = true
  reason : p.reason = Run.ruling nestedConfig p m.reason

omit [IsStrictOrderedRing K] in
/-- What is known at the start of a run, if it is right. -/
theorem knows_seeded (maxIters : Int) {cost? : Option (Exact K)}
    {gradient? : Option (Tensor (Exact K))} (hessian? : Option (Tensor (Exact K)))
    (hcost : ∀ c, cost? = some c → c = f r.start)
    (hgradient : ∀ v, gradient? = some v → v = g r.start) :
    Line.Knows r f g (Run.seeded r.start maxIters cost? gradient? hessian?) := by
  obtain ⟨hparam, hknown, hslope, -⟩ := Run.seeded_fields r.start maxIters cost? gradient? hessian?
  refine ⟨hparam, ?_, fun v hv => hgradient v (hslope ▸ hv)⟩
  rw [hknown]
  cases cost? with
  | none => exact .inl Exact.isInfinite_infinity
  | some c => exact .inr (hcost c rfl)

omit [IsStrictOrderedRing K] [Roots K] in
/-- A search with checked settings is one. -/
theorem Sound.isSome_line? (hm : m.Sound) : m.line?.isSome = true := by
  cases m with
  | backtracking s => rfl
  | strongWolfe s => rfl
  | unsuited text => exact hm.elim

omit [IsStrictOrderedRing K] in
/-- Before the first iteration. -/
theorem Ruled.start (hmax : p.maxIters = RunConfig.defaultMaxIters) (hiter : p.iter = 0)
    (hrun : p.reason = .notTerminated) (hstage : Stage r f g m₀ p m) (hgo : Searching r m) :
    Ruled r f g m₀ p m where
  maxIters := hmax
  iter := by rw [hiter]; exact Nat.zero_le _
  stage := hstage
  running _ := ⟨by rw [hiter]; decide, hgo⟩
  stopped hstopped := absurd hrun hstopped

omit [IsStrictOrderedRing K] in
/-- The start of either search. -/
theorem ends_init (hA : Line.Terrain A r f g E) (hp : Line.Knows r f g p) (hm : m.Sound)
    (hmax : p.maxIters = RunConfig.defaultMaxIters) (hiter : p.iter = 0)
    (hrun : p.reason = .notTerminated)
    (hdescent : ∀ slope, r.backend.dot (g r.start) r.way = .ok slope →
      r.Still ∨ Scalar.lt slope 0.0 = true ∨ E (.invalid .notDescent)) :
    (solver.init A p).Ends ⟨m.aimed r.way, session⟩
      (fun report? w => Ruled r f g (m.aimed r.way) (Run.started p report?) w.solver) E := by
  have hruled {m' : LineSearch (Exact K)} (report? : Option (Report (Exact K)))
      (hstage : Stage r f g (m.aimed r.way) (Run.started p report?) m') (hgo : Searching r m') :
      Ruled r f g (m.aimed r.way) (Run.started p report?) m' := by
    cases report? with
    | none => exact .start hmax hiter hrun hstage hgo
    | some report =>
      exact .start (by simp [Run.started, hmax]) (by simp [Run.started, hiter])
        (by simp [Run.started, hrun]) hstage hgo
  -- At the start both searches are aimed, with settings that have been checked before.
  cases m with
  | backtracking s =>
    show (dispatch _ _).Ends _ _ _
    unfold aimed
    rw [ends_dispatch_backtracking]
    have hs : Backtracking.Sound { s with line := { s.line with direction := some r.way } } :=
      ⟨hm.initialStep, hm.shrink⟩
    refine (Backtracking.ends_init hA hp hs rfl hdescent).mono ?_
    rintro report? w ⟨slope, hslope, hkeeps⟩
    exact hruled report? ⟨⟨_, rfl⟩, slope, hslope, hkeeps⟩ trivial
  | strongWolfe s =>
    show (dispatch _ _).Ends _ _ _
    unfold aimed
    rw [ends_dispatch_strongWolfe]
    have hs : StrongWolfe.Sound { s with line := { s.line with direction := some r.way } } :=
      ⟨hm.initialStep, hm.maxTrials⟩
    refine (StrongWolfe.ends_init hA hp hs rfl hiter hdescent).mono ?_
    rintro report? w ⟨slope, hslope, hkeeps, htally, hgo⟩
    refine hruled report? ⟨_, rfl, slope, 0, hslope, hkeeps, htally⟩ fun hstill => ?_
    obtain ⟨hdone, htrials⟩ := hgo hstill
    refine ⟨hdone, ?_⟩
    rw [htrials, hkeeps.holds.same.maxTrials]
    exact hs.maxTrials
  | unsuited text => exact hm.elim

omit [IsStrictOrderedRing K] in
/-- The search that has found something still has checked settings. -/
theorem Found.sound (h : Found r f g m₀ p m) (hm : m₀.Sound) : m.Sound := by
  refine h.stage.sound ?_
  cases m₀ with
  | backtracking s => exact ⟨hm.initialStep, hm.shrink⟩
  | strongWolfe s => exact ⟨hm.initialStep, hm.maxTrials⟩
  | unsuited text => exact hm

/-- **A search along a ray returns what it has found**, or fails in an expected way. -/
theorem ends_run (hA : Line.Terrain A r f g E) (hm : m.Sound) {cost? : Option (Exact K)}
    {gradient? : Option (Tensor (Exact K))} (hcost : ∀ c, cost? = some c → c = f r.start)
    (hgradient : ∀ v, gradient? = some v → v = g r.start)
    (hdescent : ∀ slope, r.backend.dot (g r.start) r.way = .ok slope →
      r.Still ∨ Scalar.lt slope 0.0 = true ∨ E (.invalid .notDescent))
    (hnumbers : A.debug = true → (∀ a, Scalar.isNaN (f (r.point a)) = false) ∨
      ∀ name iter, E (.numerical (.undefinedCost name iter))) :
    (LineSearch.run A r.start (some r.way) cost? gradient?).Ends ⟨m, session⟩
      (fun p w => Found r f g m p w.solver) E := by
  obtain ⟨hiter, hmax, hrun⟩ :=
    Run.seeded_unstarted r.start (RunConfig.defaultMaxIters : Int) cost? gradient? none
  have hp := knows_seeded (g := g) RunConfig.defaultMaxIters none hcost hgradient
  have hcontract : Run.Contract (Run.nestedPlan LineSearch.solver A)
      (Merged r f g (m.aimed r.way)) (Ruled r f g (m.aimed r.way)) E := contract hA hnumbers
  have hsearch := hcontract.nested (w := ⟨m.aimed r.way, session⟩) r.start cost? gradient? none
    fun _ => ends_init hA hp hm hmax hiter hrun hdescent
  rw [ends_run_iff hm.isSome_line?]
  refine hsearch.mono ?_
  rintro p w ⟨hruled, hterminal⟩
  -- A run that has returned has been stopped, and so by the rules.
  refine ⟨hruled.toWithin, hruled.stage, hterminal, hruled.stopped fun hgo => ?_⟩
  rw [hgo] at hterminal
  exact absurd hterminal (by decide)

end Minimization.LineSearch
