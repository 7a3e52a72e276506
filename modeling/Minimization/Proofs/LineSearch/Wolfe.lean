import Minimization.Proofs.LineSearch.Found
import Minimization.Proofs.Operator.Sphere

namespace Minimization.StrongWolfe

open Minimization

/-!
# What a search for the strong Wolfe conditions returns

All numbers that the operator answers are finite here, so the conditions are inequalities of the
field.

* `Exit` — the three ways in which a search ends, each with what its reason promises.
* `Returned` — what a search returns in any case: a point of the ray that decreases sufficiently,
  with cost and gradient there.
* `run_returns` — a run of the search succeeds and returns that.
-/

variable {K ω : Type} [Field K] [LinearOrder K] [Roots K]

section Result

variable (r : Ray K) (f : Tensor (Exact K) → K) (g : Tensor (Exact K) → Tensor (Exact K))
  (s : StrongWolfe (Exact K)) (c₁ c₂ slope a : K)

/-- How the search `s`, with slope `slope` at its origin, has ended with the memory `s'`; the point
    it returns is at the step length `a`. -/
inductive Exit (s' : StrongWolfe (Exact K)) : Reason → Prop
  /-- The slope is small enough. -/
  | accepted {there : K} (ha : 0 < a)
      (hslope : r.backend.dot (g (r.point a)) r.way = .ok (.finite there))
      (hflat : |there| ≤ -c₂ * slope) : Exit s' .lineSearchCondition
  /-- The bracket has become too narrow. -/
  | narrow {k : Bracket (Exact K)} {high : K} (hk : s'.bracket = some k) (hlow : k.low = .finite a)
      (hhigh : k.high = .finite high) (hwidth : |high - a| < 1 / 10 ^ 12) :
      Exit s' .targetTolerance
  /-- All trials have been made.  A nested run has a cap of its own, the largest machine word, which
      a search with a higher cap runs into. -/
  | exhausted (htrials : s'.line.trials = min s.line.maxTrials RunConfig.defaultMaxIters) :
      Exit s' .maxIters

/-- What a search returns, with the memory `s'`: the point at the step length `a`. -/
structure Returned (p : Progress (Exact K)) (s' : StrongWolfe (Exact K)) : Prop where
  nonneg : 0 ≤ a
  param : p.param = r.point a
  cost : p.cost = .finite (f (r.point a))
  gradient : p.gradient = some (g (r.point a))
  decrease : f (r.point a) ≤ f r.start + c₁ * a * slope
  /-- Every iteration has been a trial. -/
  trials : p.iter = s'.line.trials
  exit : Exit r g s c₂ slope a s' p.reason

end Result

variable {r : Ray K} {f : Tensor (Exact K) → K} {g : Tensor (Exact K) → Tensor (Exact K)}
  {s₀ : StrongWolfe (Exact K)} {c₁ c₂ slope a : K}

/-! ### Conditions as inequalities -/

/-- Sufficient decrease, in numbers. -/
theorem decreases_iff (hdecrease : s₀.decrease = .finite c₁) :
    Decreases r (fun x => .finite (f x)) g s₀ (.finite slope) a ↔
      a = 0 ∨ f (r.point a) ≤ f r.start + c₁ * a * slope := by
  simp [Decreases, sufficient, origin, hdecrease]

/-- At the origin the inequality is an equality. -/
theorem Decreases.le (hdecrease : s₀.decrease = .finite c₁)
    (h : Decreases r (fun x => .finite (f x)) g s₀ (.finite slope) a) :
    f (r.point a) ≤ f r.start + c₁ * a * slope := by
  obtain rfl | h := (decreases_iff hdecrease).1 h
  · simp [r.point_zero]
  · exact h

variable [IsStrictOrderedRing K]

/-- The curvature condition, in numbers. -/
theorem flat_iff {there : K} (hcurvature : s₀.curvature = .finite c₂) :
    s₀.flat (origin r (fun x => .finite (f x)) g (.finite slope)) (.finite there) = true ↔
      |there| ≤ -c₂ * slope := by
  simp [flat, origin, hcurvature]

/-- The tolerance of a bracket, in numbers. -/
theorem narrow_iff {low high : K} :
    Scalar.lt (Scalar.abs (.finite high - .finite low)) (bracketTolerance : Exact K) = true ↔
      |high - low| < 1 / 10 ^ 12 := by
  simp [bracketTolerance, Exact.lit]

/-! ### The reasons -/

omit [IsStrictOrderedRing K] in
/-- A cost that is a number never meets the target of a nested run. -/
theorem ruling_nested {p : Progress (Exact K)} {c : K} (hcost : p.cost = .finite c)
    (own : Reason) : Run.ruling LineSearch.nestedConfig p own =
      if own.isTerminal then own
      else if p.maxIters ≤ (p.iter : Int) then .maxIters else .notTerminated := by
  have hfinite : Scalar.le (.finite c) (-Scalar.infinity : Exact K) = false := rfl
  unfold Run.ruling
  rw [hcost]
  simp [LineSearch.nestedConfig, RunConfig.standard, hfinite]

/-- **Why a search has stopped.** -/
theorem exit_of_found {p : Progress (Exact K)} {s s' : StrongWolfe (Exact K)}
    (hkeeps : Keeps r (fun x => .finite (f x)) g s (.finite slope) a p s') (htally : Tally r s p s')
    (hcurvature : s.curvature = .finite c₂) (hmax : s.line.maxTrials = s₀.line.maxTrials)
    (hslopes : ∀ a, ∃ c, r.backend.dot (g (r.point a)) r.way = .ok (.finite c)) (hstill : ¬r.Still)
    (hwithin : LineSearch.Within p) (hterminal : p.reason.isTerminal = true)
    (hreason : p.reason = Run.ruling LineSearch.nestedConfig p s'.line.reason) :
    Exit r g s₀ c₂ slope a s' p.reason := by
  obtain ⟨k, hk, hlower, hopen, hverdict⟩ := hkeeps.holds.bracket
  obtain ⟨hiter, hcap⟩ := htally hstill
  have hiters := hwithin.iter
  have hmaxTrials := hkeeps.holds.same.maxTrials
  rw [ruling_nested hkeeps.cost, hwithin.maxIters] at hreason
  unfold Line.reason at hreason
  generalize s'.line.done = done at hverdict hreason
  cases hverdict with
  | searching =>
    -- Without a verdict only the caps are left.
    have htrials : s'.line.trials = min s₀.line.maxTrials RunConfig.defaultMaxIters ∧
        p.reason = .maxIters := by
      dsimp only at hreason
      split at hreason
      · exact ⟨by omega, hreason⟩
      · simp only [Reason.isTerminal, Bool.false_eq_true, if_false] at hreason
        split at hreason
        · exact ⟨by omega, hreason⟩
        · rw [hreason] at hterminal
          exact absurd hterminal (by decide)
    rw [htrials.2]
    exact .exhausted htrials.1
  | still h => exact absurd h hstill
  | accepted ha hslope hflat =>
    -- The slope that was tested is a finite number, so the test is an inequality.
    obtain ⟨there, hthere⟩ := hslopes a
    obtain rfl := Except.ok.inj (hslope.symm.trans hthere)
    rw [hreason]
    exact .accepted ha hthere ((flat_iff hcurvature).1 hflat)
  | narrow h =>
    obtain ⟨high, -, hhigh, -⟩ := hopen.high
    rw [hhigh, hlower.low] at h
    rw [hreason]
    exact .narrow hk hlower.low hhigh (narrow_iff.1 h)

/-! ### A whole search -/

/-- **A run of a search for the strong Wolfe conditions** along a direction that leads downhill
    succeeds and returns a point that decreases sufficiently, for any two constants and from any
    memory of an earlier search.  The operator only has to answer by functions `f` and `g`, which
    need not be related; cost and gradient at the start are given, or are evaluated. -/
theorem run_returns (A : Setting ω (Exact K)) (r : Ray K) (f : Tensor (Exact K) → K)
    (g : Tensor (Exact K) → Tensor (Exact K)) (s : StrongWolfe (Exact K)) (session : Session ω)
    {c₁ c₂ slope step : K} {cost? : Option (Exact K)} {gradient? : Option (Tensor (Exact K))}
    (hf : Answers A.operator.cost (Tensor.IsReal r.backend r.shape) (fun x => .finite (f x))
      fun _ => False)
    (hg : Answers A.operator.gradient (Tensor.IsReal r.backend r.shape) g fun _ => False)
    (hslopes : ∀ a, ∃ c, r.backend.dot (g (r.point a)) r.way = .ok (.finite c))
    (hcost : ∀ c, cost? = some c → c = .finite (f r.start))
    (hgradient : ∀ v, gradient? = some v → v = g r.start) (hstill : ¬r.Still)
    (hslope : r.backend.dot (g r.start) r.way = .ok (.finite slope)) (hdown : slope < 0)
    (hdecrease : s.decrease = .finite c₁) (hcurvature : s.curvature = .finite c₂)
    (hmax : 1 ≤ s.line.maxTrials) (hstep : s.line.initialStep = .finite step) (hpos : 0 < step) :
    ∃ p s' session' a,
      (LineSearch.run A r.start (some r.way) cost? gradient?).exec ⟨.strongWolfe s, session⟩ =
        (.ok p, ⟨.strongWolfe s', session'⟩) ∧
      Returned r f g s c₁ c₂ slope a p s' := by
  have hA : Line.Terrain A r (fun x => .finite (f x)) g fun _ => False := by
    refine ⟨hf, hg, fun a e he => ?_⟩
    obtain ⟨c, hc⟩ := hslopes a
    rw [hc] at he
    cases he
  have hdescent (there : Exact K) (hthere : r.backend.dot (g r.start) r.way = .ok there) :
      r.Still ∨ Scalar.lt there 0.0 = true ∨ False := by
    obtain rfl := Except.ok.inj (hthere.symm.trans hslope)
    exact .inr (.inl (by simpa using hdown))
  -- No failure is expected, so the run succeeds.
  obtain ⟨p, ⟨m, session'⟩, hexec, hfound⟩ := (LineSearch.ends_run (m := .strongWolfe s)
    hA ⟨⟨step, hpos, hstep⟩, hmax⟩ hcost hgradient hdescent
    fun _ => .inl fun a => Exact.isNaN_finite _).exists_ok
  have hreason := hfound.reason
  have hstage := hfound.stage
  cases m with
  | backtracking s' =>
    -- A search for the strong Wolfe conditions stays one.
    obtain ⟨⟨_, hs⟩, -⟩ := hstage
    cases hs
  | unsuited text => exact hstage.elim
  | strongWolfe s' =>
    obtain ⟨_, hs, there, a, hthere, hkeeps, htally⟩ := hstage
    obtain rfl := LineSearch.strongWolfe.inj hs
    obtain rfl := Except.ok.inj (hthere.symm.trans hslope)
    obtain ⟨k, -, hlower, -, -⟩ := hkeeps.holds.bracket
    exact ⟨p, s', session', a, hexec, hlower.nonneg, hkeeps.param, hkeeps.cost, hkeeps.gradient,
      hlower.decreases.le hdecrease, (htally hstill).1,
      exit_of_found hkeeps htally hcurvature rfl hslopes hstill hfound.toWithin hfound.terminal
        hreason⟩

/-! ### The sphere function -/

/-- The sphere function at a tensor of finite numbers, as a number of the field. -/
def sphereNumber (x : Tensor (Exact ℚ)) : ℚ :=
  match sphere x with
  | .finite c => c
  | _ => 0

/-- From one towards zero. -/
def sphereRay : Ray ℚ := .ofVec .array ![1] ![-1]

/-- A search with the usual constants. -/
def sphereSearch : StrongWolfe (Exact ℚ) := ⟨⟨none, 1.0, 20, 0, none, none⟩, 0.1, 0.9, none⟩

/-- The slope of the sphere along the ray: the gradient is twice the point, and the way leads back. -/
theorem slope_sphereRay (v : Fin 1 → ℚ) : sphereRay.backend.dot (sphereGradient (.ofVec .array v))
    sphereRay.way = .ok (.finite (-2 * v 0)) := by
  show Backend.array.dot _ (Tensor.ofVec .array ![-1]) = _
  rw [sphereGradient_ofVec, Backend.dot_ofVec]
  simp [dotProduct]

/-- A search on the sphere function returns as it has to. -/
theorem run_returns_sphere :
    sphereSearch.decrease = .finite (1 / 10) ∧ sphereSearch.curvature = .finite (9 / 10) ∧
    ∃ p s' session' a,
      (LineSearch.run ⟨sphereOperator, true⟩ sphereRay.start (some sphereRay.way) none none).exec
        ⟨.strongWolfe sphereSearch, .start ()⟩ = (.ok p, ⟨.strongWolfe s', session'⟩) ∧
      Returned sphereRay sphereNumber sphereGradient sphereSearch (1 / 10) (9 / 10) (-2) a p
        s' := by
  have hf : Answers (sphereOperator : Operator Unit (Exact ℚ)).cost
      (Tensor.IsReal sphereRay.backend sphereRay.shape) (fun x => .finite (sphereNumber x))
      fun _ => False := by
    rintro _ host ⟨xs, -, rfl⟩
    show sphere _ = Exact.finite (sphereNumber _)
    rw [sphereNumber, sphere_real]
  -- On the line the slope is minus two times the entry.
  have hslopes (a : ℚ) : ∃ c, sphereRay.backend.dot (sphereGradient (sphereRay.point a))
      sphereRay.way = .ok (.finite c) := by
    rw [sphereRay, Ray.point_ofVec]
    exact ⟨_, slope_sphereRay _⟩
  have hslope : sphereRay.backend.dot (sphereGradient sphereRay.start) sphereRay.way =
      .ok (.finite (-2)) := (slope_sphereRay ![1]).trans (by simp)
  have hdecrease : sphereSearch.decrease = .finite (1 / 10) := by decide +kernel
  have hcurvature : sphereSearch.curvature = .finite (9 / 10) := by decide +kernel
  exact ⟨hdecrease, hcurvature, run_returns ⟨sphereOperator, true⟩ sphereRay sphereNumber
    sphereGradient sphereSearch (.start ()) hf (sphereOperator_gradient _ _) hslopes (by simp)
    (by simp) (by unfold Ray.Still; decide +kernel) hslope (by norm_num) hdecrease hcurvature
    (by decide) (by decide +kernel : sphereSearch.line.initialStep = .finite 1) one_pos⟩

end Minimization.StrongWolfe
