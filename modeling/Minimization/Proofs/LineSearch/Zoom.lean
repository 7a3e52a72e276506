import Mathlib.Analysis.Calculus.Deriv.Comp
import Mathlib.Analysis.Calculus.Deriv.Mul
import Mathlib.Analysis.Calculus.Deriv.Pow
import Mathlib.Analysis.Calculus.Deriv.Slope
import Mathlib.Analysis.Calculus.LocalExtr.Basic
import Mathlib.Topology.Algebra.Module.ModuleTopology
import Minimization.Proofs.Contract.Observers
import Minimization.Proofs.LineSearch.Bracket
import Minimization.Proofs.LineSearch.Found
import Minimization.Proofs.Operator.Sphere
import Minimization.Proofs.Scalar.Root

namespace Minimization.StrongWolfe

open Minimization

/-!
# What a closed bracket contains

Over the real numbers, with slopes that are the derivatives of the costs along the ray.

* `exists_critical_unit`, `exists_critical` — a function that falls at one end of an interval and is
  not lower at the other end has a critical point inside.
* `Brackets.exists_acceptable` — a closed bracket contains a step that meets both conditions.  It is
  a critical point of the cost itself, or of its distance from the line of sufficient decrease.
* `contract` — the contract of a run of the search; `zoom_contains_acceptable` — what it means for
  every state that the run reaches.
-/

/-! ### Critical points -/

/-- A function that falls at first is below its start somewhere soon. -/
theorem exists_lt_of_deriv_neg {χ : ℝ → ℝ} {χ₀ : ℝ} (h : HasDerivAt χ χ₀ 0) (hfall : χ₀ < 0) :
    ∃ t ∈ Set.Ioo (0 : ℝ) 1, χ t < χ 0 := by
  have hslope : ∀ᶠ t in nhdsWithin 0 (Set.Ioi 0), slope χ 0 t < 0 :=
    (h.hasDerivWithinAt (s := Set.Ioi 0)).limsup_slope_le' Set.self_notMem_Ioi hfall
  have hnear : ∀ᶠ t : ℝ in nhdsWithin 0 (Set.Ioi 0), t ∈ Set.Ioo (0 : ℝ) 1 :=
    Ioo_mem_nhdsGT one_pos
  obtain ⟨t, hlt, ht⟩ := (hslope.and hnear).exists
  refine ⟨t, ht, ?_⟩
  rw [slope_def_field, sub_zero, div_neg_iff] at hlt
  have hpos := ht.1
  obtain ⟨-, hneg⟩ | ⟨hneg, -⟩ := hlt
  · exact absurd hneg hpos.not_gt
  · linarith

/-- A function that falls at zero and is not lower at one has a critical point between them. -/
theorem exists_critical_unit {χ χ' : ℝ → ℝ} (hχ : ∀ t, HasDerivAt χ (χ' t) t) (hfall : χ' 0 < 0)
    (hends : χ 0 ≤ χ 1) : ∃ t ∈ Set.Ioo (0 : ℝ) 1, χ t < χ 0 ∧ χ' t = 0 := by
  obtain ⟨t, ht, hbelow⟩ := exists_lt_of_deriv_neg (hχ 0) hfall
  -- The least value is taken inside, because both ends are above.
  obtain ⟨m, hm, hmin⟩ := isCompact_Icc.exists_isMinOn (Set.nonempty_Icc.2 zero_le_one)
    (fun t _ => (hχ t).continuousAt.continuousWithinAt)
  have hless : χ m < χ 0 := (hmin (Set.Ioo_subset_Icc_self ht)).trans_lt hbelow
  have hm₀ : m ≠ 0 := by
    rintro rfl
    exact lt_irrefl _ hless
  have hm₁ : m ≠ 1 := by
    rintro rfl
    exact hless.not_ge hends
  have hinside : m ∈ Set.Ioo (0 : ℝ) 1 :=
    ⟨lt_of_le_of_ne hm.1 hm₀.symm, lt_of_le_of_ne hm.2 hm₁⟩
  have hlocal := hmin.isLocalMin (Icc_mem_nhds hinside.1 hinside.2)
  exact ⟨m, hinside, hless, hlocal.hasDerivAt_eq_zero (hχ m)⟩

/-- **Between the ends of a bracket there is a point of slope zero** below the lower end, if the
    slope at the lower end points to the other one and the latter is not below. -/
theorem exists_critical {ψ ψ' : ℝ → ℝ} (hψ : ∀ a, HasDerivAt ψ (ψ' a) a) {low high : ℝ}
    (hdown : ψ' low * (high - low) < 0) (hends : ψ low ≤ ψ high) :
    ∃ a ∈ Set.Ioo (min low high) (max low high), ψ a < ψ low ∧ ψ' a = 0 := by
  -- Along the segment from the lower end to the other one, in either orientation.
  have hpath (t : ℝ) : HasDerivAt (fun t => ψ (low + t * (high - low)))
      (ψ' (low + t * (high - low)) * (high - low)) t := by
    have hinner : HasDerivAt (fun t => low + t * (high - low)) (high - low) t := by
      simpa using ((hasDerivAt_id t).mul_const (high - low)).const_add low
    exact (hψ _).comp t hinner
  have hne : high - low ≠ 0 := fun hzero => by simp [hzero] at hdown
  obtain ⟨m, ⟨hm₀, hm₁⟩, hbelow, hzero⟩ :=
    exists_critical_unit hpath (by simpa using hdown) (by simpa using hends)
  refine ⟨low + m * (high - low), ?_, by simpa using hbelow, (mul_eq_zero.1 hzero).resolve_right hne⟩
  obtain hlt | hlt := lt_or_gt_of_ne (sub_ne_zero.1 hne)
  · rw [min_eq_right hlt.le, max_eq_left hlt.le]
    constructor <;> nlinarith
  · rw [min_eq_left hlt.le, max_eq_right hlt.le]
    constructor <;> nlinarith

/-- **A closed bracket contains a step that meets both conditions.** -/
theorem Brackets.exists_acceptable {φ φ' : ℝ → ℝ} {c₁ c₂ : ℝ} {k : Bracket (Exact ℝ)}
    (hk : Brackets (along φ φ') (φ 0) (φ' 0) c₁ c₂ k) (hclosed : k.closed = true)
    (hφ : ∀ a, HasDerivAt φ (φ' a) a) (hdescent : φ' 0 < 0) (hc₁ : 0 < c₁) (hc : c₁ < c₂) :
    ∃ low high, k.low = .finite low ∧ k.high = .finite high ∧
      ∃ a ∈ Set.Ioo (min low high) (max low high),
        φ a ≤ φ 0 + c₁ * a * φ' 0 ∧ |φ' a| ≤ c₂ * |φ' 0| := by
  cases hk with
  | growing hphase => simp [hphase] at hclosed
  | @closed low _ _ high _ _ hbase hhigh _ hfound hdown hbeyond =>
    refine ⟨low, high, hbase.low, hhigh, ?_⟩
    obtain rfl := hbase.found
    obtain rfl := hbase.slope
    obtain rfl := hfound
    rw [abs_of_neg hdescent]
    have hdecrease := hbase.decrease
    have hsteep := hbase.steep
    -- The distance from the line of sufficient decrease, and its slope.
    have hψ (a : ℝ) : HasDerivAt (fun a => φ a - a * (c₁ * φ' 0)) (φ' a - c₁ * φ' 0) a :=
      (hφ a).sub (by simpa using (hasDerivAt_id a).mul_const (c₁ * φ' 0))
    have hline : c₁ * φ' 0 < 0 := mul_neg_of_pos_of_neg hc₁ hdescent
    by_cases habove : φ low - low * (c₁ * φ' 0) ≤ φ high - high * (c₁ * φ' 0)
    · -- The slope at the lower end is so steep that the distance falls there, too.
      have hfalls : (φ' low - c₁ * φ' 0) * (high - low) < 0 := by
        obtain ⟨hup, hleft⟩ | ⟨hdown, hright⟩ := mul_neg_iff.1 hdown
        · exact mul_neg_of_pos_of_neg (by linarith) hleft
        · rw [abs_of_neg hdown] at hsteep
          exact mul_neg_of_neg_of_pos (by nlinarith) hright
      obtain ⟨a, ha, hbelow, hzero⟩ := exists_critical hψ hfalls habove
      refine ⟨a, ha, by linarith, ?_⟩
      have hslope : φ' a = c₁ * φ' 0 := sub_eq_zero.1 hzero
      rw [hslope, abs_of_neg hline]
      nlinarith
    · -- Then the other end decreases sufficiently, so it is not below the lower end, and nearer.
      rw [not_le] at habove
      have hends : φ low ≤ φ high := by
        obtain hhigher | hle := hbeyond
        · linarith
        · exact hle
      have hnearer : high < low := by
        by_contra hfar
        have hfarther := mul_nonneg_of_nonpos_of_nonpos (sub_nonpos.2 (not_lt.1 hfar)) hline.le
        linarith
      obtain ⟨a, ha, hbelow, hzero⟩ := exists_critical hφ hdown hends
      rw [min_eq_right hnearer.le, max_eq_left hnearer.le] at ha
      refine ⟨a, by rwa [min_eq_right hnearer.le, max_eq_left hnearer.le], ?_, ?_⟩
      · nlinarith [ha.2]
      · rw [hzero, abs_zero]
        nlinarith

/-! ### Runs -/

section Runs

variable {K ω η : Type} [Field K] [LinearOrder K] [IsStrictOrderedRing K] [Roots K] {r : Ray K}
  {f : Tensor (Exact K) → Exact K} {g : Tensor (Exact K) → Tensor (Exact K)} {φ φ' : K → K}
  {c₁ c₂ : K} {A : Setting ω (Exact K)}

/-- **The contract of a run of the search**: its memory holds a bracket that is sure of its ends. -/
theorem contract (hA : Line.Terrain A r f g fun _ => True) (h : Profile r f g φ φ') (hφ : φ' 0 < 0)
    (O : Observer η (Exact K)) (c : RunConfig (Exact K)) :
    Run.Contract ⟨LineSearch.solver, O, A, c⟩
      (fun _ m => ∃ s, m = .strongWolfe s ∧ Guards r f g φ φ' c₁ c₂ s)
      (fun _ m => ∃ s, m = .strongWolfe s ∧ Guards r f g φ φ' c₁ c₂ s) fun _ => True := by
  refine .anyhow (fun _ hm => hm) ?_ ?_
  · rintro p _ session ⟨s, rfl, hs⟩ -
    show (LineSearch.dispatch _ _).Ends _ _ _
    rw [LineSearch.ends_dispatch_strongWolfe]
    exact (hs.ends_step hA h hφ).mono fun _ w hw => ⟨w.solver, rfl, hw⟩
  · rintro p _ session ⟨s, rfl, hs⟩
    show (LineSearch.dispatch _ _).Ends _ _ _
    rw [LineSearch.ends_dispatch_strongWolfe]
    exact ⟨s, rfl, hs⟩

end Runs

/-- **While the search halves its bracket, the bracket contains a step that meets both conditions.**
    The run may be one of its own or inside another method, in which case `O` observes nothing; the
    operator may fail, but where it answers on the ray, costs and slopes are those of a function `φ`
    and its derivative, which leads downhill at the origin. -/
theorem zoom_contains_acceptable {ω η : Type} (A : Setting ω (Exact ℝ)) (O : Observer η (Exact ℝ))
    (c : RunConfig (Exact ℝ)) (r : Ray ℝ) (f : Tensor (Exact ℝ) → Exact ℝ)
    (g : Tensor (Exact ℝ) → Tensor (Exact ℝ)) (s : StrongWolfe (Exact ℝ)) {φ φ' : ℝ → ℝ}
    {c₁ c₂ step : ℝ} (maxIters : Int) {cost? : Option (Exact ℝ)}
    {gradient? : Option (Tensor (Exact ℝ))} (hessian? : Option (Tensor (Exact ℝ)))
    (session : Session ω) (ws : List (Watch η))
    (hf : Answers A.operator.cost (Tensor.IsReal r.backend r.shape) f fun _ => True)
    (hg : Answers A.operator.gradient (Tensor.IsReal r.backend r.shape) g fun _ => True)
    (hprofile : Profile r f g φ φ') (hderiv : ∀ a, HasDerivAt φ (φ' a) a) (hdescent : φ' 0 < 0)
    (hcost : ∀ v, cost? = some v → v = f r.start)
    (hgradient : ∀ v, gradient? = some v → v = g r.start) (hs : Constants s c₁ c₂)
    (hdirection : s.line.direction = some r.way) (hstep : s.line.initialStep = .finite step)
    (hpos : 0 < step) {t : Run (LineSearch (Exact ℝ)) ω η (Exact ℝ)}
    (ht : Run.Reached ⟨LineSearch.solver, O, A, c⟩ ⟨Run.seeded r.start maxIters cost? gradient?
      hessian?, .strongWolfe s, session, ws⟩ t) :
    ∃ s' k, t.solver = .strongWolfe s' ∧ s'.bracket = some k ∧
      (k.closed = true → s'.line.done = none →
        ∃ low high, k.low = .finite low ∧ k.high = .finite high ∧
          ∃ a ∈ Set.Ioo (min low high) (max low high),
            φ a ≤ φ 0 + c₁ * a * φ' 0 ∧ |φ' a| ≤ c₂ * |φ' 0|) := by
  have hterrain : Line.Terrain A r f g fun _ => True := ⟨hf, hg, fun _ _ _ => trivial⟩
  have hknows := LineSearch.knows_seeded maxIters hessian? hcost hgradient
  -- The initialisation puts the guards up, and the contract keeps them up in all states that are
  -- reached.
  have hinit : Run.Contract.Inits ⟨LineSearch.solver, O, A, c⟩ ⟨Run.seeded r.start maxIters cost?
      gradient? hessian?, .strongWolfe s, session, ws⟩
      (fun _ m => ∃ s, m = .strongWolfe s ∧ Guards r f g φ φ' c₁ c₂ s) fun _ => True := by
    intro session
    show (LineSearch.dispatch _ _).Ends _ _ _
    rw [LineSearch.ends_dispatch_strongWolfe]
    refine (ends_init_guards hterrain hknows hprofile hs hdescent hdirection hstep hpos).mono ?_
    exact fun _ w hw => ⟨w.solver, rfl, hw⟩
  obtain ⟨s', hs', hguards⟩ := (contract hterrain hprofile hdescent O c).reached hinit ht
  obtain ⟨k, hk, hbracket⟩ := hguards.bracket
  refine ⟨s', k, hs', hk, fun hclosed hdone => ?_⟩
  -- The real analysis: between the two ends of such a bracket both conditions hold somewhere.
  exact (hbracket hdone).exists_acceptable hclosed hderiv hdescent hs.pos hs.lt

/-! ### The sphere function -/

/-- From one towards zero, with steps that are four times too long. -/
noncomputable def steepRay : Ray ℝ := .ofVec .array ![1] ![-4]

/-- A search along it, with the usual constants. -/
noncomputable def steepSearch : StrongWolfe (Exact ℝ) :=
  ⟨⟨some steepRay.way, 1.0, 20, 0, none, none⟩, 0.1, 0.9, none⟩

/-- The search inside another method. -/
noncomputable def steepPlan : Plan (LineSearch (Exact ℝ)) Unit Empty (Exact ℝ) :=
  Run.nestedPlan LineSearch.solver ⟨sphereOperator, true⟩

/-- The start of the search. -/
noncomputable def steepStart : Run (LineSearch (Exact ℝ)) Unit Empty (Exact ℝ) :=
  ⟨Run.seeded steepRay.start RunConfig.defaultMaxIters none none none, .strongWolfe steepSearch,
    .start (), []⟩

/-- The search has constants in order. -/
theorem constants_steepSearch : Constants steepSearch (1 / 10) (9 / 10) := by
  refine ⟨?_, ?_, by norm_num, by norm_num, by norm_num⟩
  · show (0.1 : Exact ℝ) = _
    rw [Exact.lit]
    norm_num
  · show (0.9 : Exact ℝ) = _
    rw [Exact.lit]
    norm_num

/-- Along the ray the sphere function is a square, and its slope the derivative of it. -/
theorem profile_steepRay : Profile steepRay sphere sphereGradient (fun a => (1 - 4 * a) ^ 2)
    fun a => -8 * (1 - 4 * a) := by
  refine ⟨fun a => ?_, fun a => ?_⟩
  · rw [steepRay, Ray.point_ofVec, Tensor.ofVec, sphere_real]
    simp
    ring
  · rw [steepRay, Ray.point_ofVec, sphereGradient_ofVec]
    refine (Backend.dot_ofVec _ _ _).trans ?_
    simp [dotProduct]
    ring

/-- Along the ray the operator always answers. -/
theorem terrain_steepRay (E : Failure (Exact ℝ) → Prop) :
    Line.Terrain (⟨sphereOperator, true⟩ : Setting Unit (Exact ℝ)) steepRay sphere sphereGradient E :=
  ⟨sphereOperator_cost _ _, sphereOperator_gradient _ _, fun a e he => by
    rw [profile_steepRay.slope a] at he
    cases he⟩

/-- The direction has a length. -/
theorem not_still_steepRay : ¬steepRay.Still := fun h =>
  absurd (h.eq_zero (-4) (by simp [steepRay, Ray.ofVec])) (by norm_num)

/-- The bracket before the first trial. -/
noncomputable def steepBracket : Bracket (Exact ℝ) :=
  ⟨false, 1.0, 0.0, sphere steepRay.start, sphereGradient steepRay.start, 0.0⟩

/-- The memory before the first trial and after it. -/
structure FirstTrial (p : Progress (Exact ℝ)) (s : StrongWolfe (Exact ℝ)) : Prop where
  constants : p.iter = 0 → Constants s (1 / 10) (9 / 10)
  line : p.iter = 0 → s.line.On steepRay (sphere steepRay.start) (sphereGradient steepRay.start)
    (.finite (-8 * (1 - 4 * 0)))
  before : p.iter = 0 → s.bracket = some steepBracket ∧ s.line.done = none
  after : p.iter = 1 → ∃ k, s.bracket = some k ∧ k.closed = true ∧ s.line.done = none

/-- The first step is too long, so the bracket closes. -/
theorem contract_firstTrial : Run.Contract steepPlan
    (fun p m => ∃ s, m = .strongWolfe s ∧ FirstTrial p s)
    (fun p m => ∃ s, m = .strongWolfe s ∧ FirstTrial p s) fun _ => True := by
  refine .anyhow (fun _ hm => ?_) ?_ ?_
  · obtain ⟨s, hm, hs⟩ := hm
    exact ⟨s, hm, hs.constants, hs.line, hs.before, hs.after⟩
  · rintro p _ session ⟨s, rfl, hs⟩ -
    show (LineSearch.dispatch _ _).Ends _ _ _
    rw [LineSearch.ends_dispatch_strongWolfe]
    by_cases hiter : p.iter = 0
    · -- At the step length one the cost is nine times as high as at the origin.
      obtain ⟨hk, hdone⟩ := hs.before hiter
      have hlong : TooLong steepRay sphere sphereGradient (.finite (-8 * (1 - 4 * 0))) s.counted
          steepBracket 1 := by
        have hm : Sample.At ⟨.finite 1, steepRay.point 1, sphere (steepRay.point 1)⟩ (1 : ℝ) _ :=
          ⟨rfl, profile_steepRay.cost 1⟩
        refine (long_iff (k := steepBracket) ((hs.constants hiter).congr rfl rfl)
          (profile_steepRay.falls (by norm_num)) hm Exact.lit_zero
          profile_steepRay.start).2 (.inl ?_)
        norm_num
      refine (ends_step (c := 1) (terrain_steepRay _) (hs.line hiter) hdone hk Exact.lit_one
        fun _ _ _ _ _ => trivial).mono ?_
      rintro report w ⟨k', done, htrial, hw, -⟩
      refine ⟨w.solver, rfl, by simp, by simp, by simp, fun _ => ?_⟩
      rw [hw]
      cases htrial with
      | closes => exact ⟨_, rfl, rfl, rfl⟩
      | accepts hshort => exact absurd hlong hshort
      | turns _ hshort => exact absurd hlong hshort
      | advances _ hshort => exact absurd hlong hshort
      | shortens hphase => cases hphase
      | swaps hphase => cases hphase
      | raises hphase => cases hphase
    · refine (Action.ends_anyhow _ _).mono fun report w _ => ⟨w.solver, rfl, ?_, ?_, ?_, ?_⟩
      · simp
      · simp
      · simp
      · simp [hiter]
  · rintro p _ session ⟨s, rfl, hs⟩
    show (LineSearch.dispatch _ _).Ends _ _ _
    rw [LineSearch.ends_dispatch_strongWolfe]
    exact ⟨s, rfl, hs.constants, hs.line, hs.before, hs.after⟩

/-- What is known at the start. -/
theorem knows_steepStart : Line.Knows steepRay sphere sphereGradient
    (Run.seeded steepRay.start RunConfig.defaultMaxIters none none none) :=
  LineSearch.knows_seeded _ _ (by simp) (by simp)

/-- The slope at the start, if it is computed at all. -/
theorem slope_steepRay {slope : Exact ℝ} (h : steepRay.backend.dot (sphereGradient steepRay.start)
    steepRay.way = .ok slope) : slope = .finite (-8 * (1 - 4 * 0)) := by
  rw [← steepRay.point_zero] at h
  exact Except.ok.inj (h.symm.trans (profile_steepRay.slope 0))

/-- Nothing fails, so the run gets through its start and its first iteration. -/
theorem exists_iterated : ∃ t, Run.Reached steepPlan steepStart t ∧ t.progress.iter = 1 := by
  obtain ⟨hiter, hmax, hrun⟩ := Run.seeded_unstarted (α := Exact ℝ) steepRay.start
    (RunConfig.defaultMaxIters : Int) none none none
  have hterrain := terrain_steepRay fun _ => False
  -- The ray leads down, since the slope at the start is minus eight.
  have hdown (slope : Exact ℝ) (hslope : steepRay.backend.dot (sphereGradient steepRay.start)
      steepRay.way = .ok slope) : steepRay.Still ∨ Scalar.lt slope 0.0 = true ∨ False := by
    rw [slope_steepRay hslope, Exact.lit_zero, Exact.lt_finite]
    norm_num
  have hsound : (LineSearch.strongWolfe steepSearch).Sound :=
    ⟨⟨1, one_pos, Exact.lit_one⟩, by decide⟩
  have hcontract : Run.Contract steepPlan
      (LineSearch.Merged steepRay sphere sphereGradient (.strongWolfe steepSearch))
      (LineSearch.Ruled steepRay sphere sphereGradient (.strongWolfe steepSearch))
      fun _ => False := by
    refine LineSearch.contract hterrain fun _ => .inl fun a => ?_
    rw [profile_steepRay.cost]
    exact Exact.isNaN_finite _
  obtain ⟨⟨⟩, t, hopen, hruled⟩ := (hcontract.opening_begun (r := steepStart)
    fun _ => LineSearch.ends_init hterrain knows_steepStart hsound hmax hiter hrun hdown).exists_ok
  have hgo : t.progress.reason = .notTerminated := by
    rw [(Run.opening_progress hopen).2.2, Run.begun_progress]
    exact hrun
  -- The contract allows no failure, so that the first iteration succeeds.
  obtain ⟨⟨⟩, t', hiterate, -⟩ := (hcontract.iterate hgo hruled).exists_ok
  refine ⟨t', (Run.Reached.opened hopen).iterated hgo rfl hiterate, ?_⟩
  obtain ⟨report, -, own, -, -, -, -, hprogress, -⟩ := Run.iterate_reports steepPlan hgo hiterate
  rw [hprogress]
  simp only [ProgressOn.iter_increment, ProgressOn.iter_update]
  rw [(Run.opening_progress hopen).1, Run.begun_progress, steepStart, hiter]

/-- The memory is as it should be before the first trial. -/
theorem inits_firstTrial : Run.Contract.Inits steepPlan steepStart
    (fun p m => ∃ s, m = .strongWolfe s ∧ FirstTrial p s) fun _ => True := by
  intro session
  show (LineSearch.dispatch _ _).Ends ⟨.strongWolfe steepSearch, session⟩ _ _
  rw [LineSearch.ends_dispatch_strongWolfe]
  refine (ends_init_opened (terrain_steepRay _) knows_steepStart rfl
    fun _ _ => .inr (.inr trivial)).mono ?_
  rintro _ w ⟨rfl, slope, hslope, hw⟩
  obtain rfl := slope_steepRay hslope
  -- The direction has a length, so the search is not over at once.
  obtain ⟨hstill, -⟩ | ⟨-, hw⟩ := hw
  · exact absurd hstill not_still_steepRay
  · obtain ⟨hiter, -, -⟩ := Run.seeded_unstarted (α := Exact ℝ) steepRay.start
      (RunConfig.defaultMaxIters : Int) none none none
    refine ⟨w.solver, rfl, ?_, ?_, ?_, ?_⟩
    · rw [hw]
      exact fun _ => constants_steepSearch.congr rfl rfl
    · rw [hw]
      exact fun _ => .begun rfl
    · rw [hw]
      exact fun _ => ⟨rfl, rfl⟩
    · simp [Run.started, hiter, steepStart]

/-- The run comes to a state in which the search halves its bracket. -/
theorem exists_zooming : ∃ t s k, Run.Reached steepPlan steepStart t ∧ t.solver = .strongWolfe s ∧
    s.bracket = some k ∧ k.closed = true ∧ s.line.done = none := by
  obtain ⟨t, ht, hone⟩ := exists_iterated
  obtain ⟨s, hs, hfirst⟩ := contract_firstTrial.reached inits_firstTrial ht
  obtain ⟨k, hk, hclosed, hdone⟩ := hfirst.after hone
  exact ⟨t, s, k, ht, hs, hk, hclosed, hdone⟩

/-- The first trial goes too far, and the bracket that it closes has an acceptable step length inside. -/
theorem zoom_contains_acceptable_sphere : ∃ t s k, Run.Reached steepPlan steepStart t ∧
    t.solver = .strongWolfe s ∧ s.bracket = some k ∧ k.closed = true ∧ s.line.done = none ∧
    ∃ low high, k.low = .finite low ∧ k.high = .finite high ∧
      ∃ a ∈ Set.Ioo (min low high) (max low high),
        (1 - 4 * a) ^ 2 ≤ (1 - 4 * 0) ^ 2 + 1 / 10 * a * (-8 * (1 - 4 * 0)) ∧
          |-8 * (1 - 4 * a)| ≤ 9 / 10 * |(-8 * (1 - 4 * 0) : ℝ)| := by
  obtain ⟨t, s, k, ht, hs, hk, hclosed, hdone⟩ := exists_zooming
  -- The profile is a polynomial, whose derivative is the slope.
  have hderiv (a : ℝ) : HasDerivAt (fun a : ℝ => (1 - 4 * a) ^ 2) (-8 * (1 - 4 * a)) a := by
    have hinner : HasDerivAt (fun a : ℝ => 1 - 4 * a) (-4) a := by
      simpa using ((hasDerivAt_id a).const_mul 4).const_sub 1
    refine (hinner.pow 2).congr_deriv ?_
    simp
    ring
  have hterrain := terrain_steepRay fun _ => True
  obtain ⟨s', k', hs', hk', hzoom⟩ := zoom_contains_acceptable ⟨sphereOperator, true⟩
    Run.noObserver steepPlan.config steepRay sphere sphereGradient steepSearch
    RunConfig.defaultMaxIters none (.start ()) [] hterrain.cost hterrain.gradient profile_steepRay
    hderiv (by norm_num) (by simp) (by simp) constants_steepSearch rfl Exact.lit_one one_pos ht
  obtain rfl := LineSearch.strongWolfe.inj (hs.symm.trans hs')
  obtain rfl := Option.some.inj (hk.symm.trans hk')
  exact ⟨t, s, k, ht, hs, hk, hclosed, hdone, hzoom hclosed hdone⟩

end Minimization.StrongWolfe
