import Mathlib.Analysis.SpecialFunctions.Log.Base
import Minimization.Proofs.LineSearch.Samples
import Minimization.Proofs.LineSearch.Zoom

namespace Minimization

/-!
# How a closed bracket is halved

* `StrongWolfe.Spans` — a closed bracket and its width.
* `StrongWolfe.Outcome.halves` — a trial halves it, unless it meets both conditions.
* `Run.Goes.spans` — so do all iterations that follow; `Run.Goes.length_le` — there are not many of them.
* `StrongWolfe.bracket_of_goes` — what a search holds at every state of its run: the least cost, the ends
  of a closed bracket and how long it will be halved.
-/

/-! ### Widths -/

namespace StrongWolfe

section
variable {K ω : Type} [Field K] [LinearOrder K] [IsStrictOrderedRing K] [Roots K]

/-- The bracket is closed, and its ends are `w` apart. -/
structure Spans (k : Bracket (Exact K)) (w : K) : Prop where
  closed : k.closed = true
  ends : ∃ low high, k.low = .finite low ∧ k.high = .finite high ∧ |high - low| = w

variable {A : Setting ω (Exact K)} {s : StrongWolfe (Exact K)} {start : LineStart (Exact K)}
  {k k' : Bracket (Exact K)} {m : Sample (Exact K)} {done : Option Reason} {n : ℕ} {w : K}

/-- A bracket that is not narrow has some width. -/
theorem Spans.le_of_not_narrow (hk : Spans k w) (h : narrowness k = none) : 1 / 10 ^ 12 ≤ w := by
  obtain ⟨low, high, hlow, hhigh, rfl⟩ := hk.ends
  have htolerance : (bracketTolerance : Exact K) = .finite (1 / 10 ^ 12) := by
    show (1e-12 : Exact K) = _
    rw [Exact.lit]
    norm_num
  unfold narrowness at h
  rw [htolerance, hlow, hhigh] at h
  simpa using h

/-- **A trial halves a closed bracket**, unless it meets both conditions. -/
theorem Outcome.halves (hk : Spans k w) (hnext : m.step = next k)
    (h : Outcome A s start k m k' done n) (hdone : done ≠ some .lineSearchCondition) :
    Spans k' (w / 2) ∧ done = narrowness k' := by
  obtain ⟨hclosed, low, high, hlow, hhigh, rfl⟩ := hk
  have hstep : m.step = .finite (1 / 2 * (low + high)) := by
    rw [hnext, next, if_pos hclosed, hlow, hhigh]
    simp
  -- The middle is as far from either end.
  have hupper : |high - 1 / 2 * (low + high)| = |high - low| / 2 := by
    rw [← abs_of_pos (zero_lt_two' K), ← abs_div]
    congr 1
    ring
  have hlower : |1 / 2 * (low + high) - low| = |high - low| / 2 := by
    rw [← abs_of_pos (zero_lt_two' K), ← abs_div]
    congr 1
    ring
  cases h with
  | closes hphase => simp [hclosed] at hphase
  | accepts => exact absurd rfl hdone
  | turns hphase => simp [hclosed] at hphase
  | advances hphase => simp [hclosed] at hphase
  | shortens => exact ⟨⟨hclosed, low, _, hlow, hstep, hlower⟩, rfl⟩
  | swaps => exact ⟨⟨hclosed, _, low, hstep, hlow, (abs_sub_comm _ _).trans hlower⟩, rfl⟩
  | raises => exact ⟨⟨hclosed, _, high, hstep, hhigh, hupper⟩, rfl⟩

end

/-- So often a width can be halved until it is below a bound. -/
theorem le_ceil_logb {w τ : ℝ} (hτ : 0 < τ) {n : ℕ} (h : τ ≤ w / 2 ^ n) :
    (n : ℤ) ≤ ⌈Real.logb 2 (w / τ)⌉ := by
  have hpow : (2 : ℝ) ^ (n : ℝ) ≤ w / τ := by
    rw [le_div_iff₀ (by positivity)] at h
    rw [Real.rpow_natCast, le_div_iff₀ hτ]
    linarith
  have hpos : 0 < w / τ := (Real.rpow_pos_of_pos two_pos _).trans_le hpow
  have hlog : (n : ℝ) ≤ Real.logb 2 (w / τ) :=
    (Real.le_logb_iff_rpow_le one_lt_two hpos).2 hpow
  exact_mod_cast hlog.trans (Int.le_ceil _)

end StrongWolfe

/-! ### Runs -/

namespace Run

variable {ω η K : Type} [Field K] [LinearOrder K] [IsStrictOrderedRing K] [Roots K]
  {A : Setting ω (Exact K)} {O : Observer η (Exact K)} {c : RunConfig (Exact K)}
  {t : Run (LineSearch (Exact K)) ω η (Exact K)} {M : ℕ → StrongWolfe (Exact K) → Prop}
  {s : StrongWolfe (Exact K)} {k : Bracket (Exact K)} {w : K} {i n : ℕ}

/-- **The iterations that follow a closed bracket** halve it, as long as the conditions are not met; and
    as long as they go on, it is not narrow. -/
theorem Goes.spans (hn : Goes ⟨LineSearch.solver, O, A, c⟩ t n)
    (hM : ∀ i ≤ n, Searches (M i) (stateAfter ⟨LineSearch.solver, O, A, c⟩ t i))
    (hs : (stateAfter ⟨LineSearch.solver, O, A, c⟩ t i).solver = .strongWolfe s)
    (hk : s.bracket = some k) (hspans : StrongWolfe.Spans k w) (j : ℕ) (hj : i + j ≤ n) :
    ∃ s' k', (stateAfter ⟨LineSearch.solver, O, A, c⟩ t (i + j)).solver = .strongWolfe s' ∧
      s'.bracket = some k' ∧
      (s'.line.done ≠ some .lineSearchCondition → StrongWolfe.Spans k' (w / 2 ^ j)) ∧
      (0 < j → s'.line.done = none → 1 / 10 ^ 12 ≤ w / 2 ^ j) := by
  -- One iteration halves the bracket; from there on the induction is on the iterations that follow.
  induction j with
  | zero => exact ⟨s, k, hs, hk, fun _ => by simpa using hspans, nofun⟩
  | succ j ih =>
    obtain ⟨s₁, k₁, hs₁, hk₁, hspans₁, -⟩ := ih (by omega)
    have hlast : i + j < n := by omega
    have hgo := hn.running _ hlast
    obtain ⟨s₂, hs₂, -, hdone⟩ := hM (i + j) hlast.le
    obtain rfl := LineSearch.strongWolfe.inj (hs₁.symm.trans hs₂)
    obtain ⟨m, start, k', done, g, -, hnext, -, -, houtcome, hs', -⟩ :=
      outcome_of_iterate hgo (hn.iterate_eq hlast) hs₁ (hdone hgo) hk₁
    have hhalf : w / 2 ^ (j + 1) = w / 2 ^ j / 2 := by rw [pow_succ, div_div]
    have hspans₁ := hspans₁ (by simp [hdone hgo])
    rw [hhalf]
    refine ⟨_, k', hs', rfl, fun h => (houtcome.halves hspans₁ hnext h).1, fun _ h => ?_⟩
    have hnone : done = none := h
    obtain ⟨hspans', hnarrow⟩ := houtcome.halves hspans₁ hnext (by simp [hnone])
    exact hspans'.le_of_not_narrow (hnarrow.symm.trans hnone)

/-- **No more iterations follow** a closed bracket than halve it down to the tolerance. -/
theorem Goes.length_le {A : Setting ω (Exact ℝ)} {O : Observer η (Exact ℝ)} {c : RunConfig (Exact ℝ)}
    {t : Run (LineSearch (Exact ℝ)) ω η (Exact ℝ)} {M : ℕ → StrongWolfe (Exact ℝ) → Prop}
    {s : StrongWolfe (Exact ℝ)} {k : Bracket (Exact ℝ)} {w : ℝ}
    (hn : Goes ⟨LineSearch.solver, O, A, c⟩ t n)
    (hM : ∀ i ≤ n, Searches (M i) (stateAfter ⟨LineSearch.solver, O, A, c⟩ t i))
    (hs : (stateAfter ⟨LineSearch.solver, O, A, c⟩ t i).solver = .strongWolfe s)
    (hk : s.bracket = some k) (hspans : StrongWolfe.Spans k w) :
    ((n - i : ℕ) : ℤ) ≤ max 1 (⌈Real.logb 2 (w / (1 / 10 ^ 12))⌉ + 1) := by
  obtain hfew | hmany := Nat.lt_or_ge (n - i) 2
  · exact le_max_of_le_left (by omega)
  -- Before the last iteration the bracket was not narrow.
  obtain ⟨j, hj⟩ : ∃ j, n - i = j + 1 := ⟨n - i - 1, by omega⟩
  obtain ⟨s', k', hs', -, -, hwide⟩ := hn.spans hM hs hk hspans j (by omega)
  obtain ⟨s₁, hs₁, -, hdone⟩ := hM (i + j) (by omega)
  obtain rfl := LineSearch.strongWolfe.inj (hs'.symm.trans hs₁)
  have hle := StrongWolfe.le_ceil_logb (by norm_num)
    (hwide (by omega) (hdone (hn.running _ (by omega))))
  rw [hj]
  push_cast
  exact le_max_of_le_right (by omega)

end Run

namespace StrongWolfe

/-- **What a search is sure of at every state of its run.**  The operator may fail, remember what it was
    asked and change its answers, and costs and slopes need not belong together; they are finite numbers
    along the ray.  The run may be one of its own or inside another method. -/
theorem bracket_of_goes {ω η : Type} {P : Plan (LineSearch (Exact ℝ)) ω η (Exact ℝ)}
    {t : Run (LineSearch (Exact ℝ)) ω η (Exact ℝ)} {r : Ray ℝ} {s : StrongWolfe (Exact ℝ)}
    {c₁ c₂ step : ℝ} {maxIters : Int} {cost? : Option (Exact ℝ)}
    {gradient? hessian? : Option (Tensor (Exact ℝ))} (hP : P.solver = LineSearch.solver)
    (hstart : t.progress = Run.seeded r.start maxIters cost? gradient? hessian?)
    (hsearch : t.solver = .strongWolfe s) (hA : Finite P.setting r)
    (hcost : ∀ c, cost? = some c → ∃ y, c = .finite y)
    (hgradient : ∀ v, gradient? = some v → ∀ d, r.backend.dot v r.way = .ok d → ∃ q, d = .finite q)
    (hs : Constants s c₁ c₂) (hdirection : s.line.direction = some r.way)
    (hstep : s.line.initialStep = .finite step) (hpos : 0 < step) (hmoving : ¬r.Still) {n : ℕ}
    (hn : Run.Goes P t n) :
    ∃ y₀ v d₀, d₀ < 0 ∧ ∀ i ≤ n, ∃ s' k cost,
      (Run.samples P t i).length = i ∧
      (Run.stateAfter P t i).solver = .strongWolfe s' ∧ s'.bracket = some k ∧
      s'.line.start = some ⟨r.start, .finite y₀, v, .finite d₀⟩ ∧ k.lowCost = .finite cost ∧
      IsLeast (lowCosts y₀ d₀ c₁ (Run.samples P t i)) cost ∧
      (k.closed = true → s'.line.done = none → ∃ low high slope beyond,
        k.low = .finite low ∧ k.high = .finite high ∧
        r.backend.dot k.lowGradient r.way = .ok (.finite slope) ∧
        0 ≤ low ∧ 0 ≤ high ∧ high ≠ low ∧ slope * (high - low) < 0 ∧ c₂ * |d₀| < |slope| ∧
        (high = 0 ∧ beyond = y₀ ∨ ∃ m ∈ Run.samples P t i, m.At high beyond) ∧
        (y₀ + c₁ * high * d₀ < beyond ∨ cost ≤ beyond) ∧
        (i < n → ∃ s'' k'', (Run.stateAfter P t (i + 1)).solver = .strongWolfe s'' ∧
          s''.bracket = some k'' ∧
          (s''.line.done ≠ some .lineSearchCondition → Spans k'' (|high - low| / 2))) ∧
        ((n - i : ℕ) : ℤ) ≤ max 1 (⌈Real.logb 2 (|high - low| / (1 / 10 ^ 12))⌉ + 1)) := by
  obtain ⟨S, O, A, c⟩ := P
  obtain rfl : S = LineSearch.solver := hP
  have houtset := hA.outset maxIters hessian? hcost hgradient
  rw [← hstart] at houtset
  obtain ⟨y₀, v, d₀, hd, hzero⟩ := (hn.mono (Nat.zero_le n)).upholds_zero hsearch houtset
    (fun _ h => h) (fun _ _ h => h _) hs hdirection hstep hpos hmoving
  have hM (i : ℕ) (hi : i ≤ n) := (hn.mono hi).upholds hA hd hzero
  refine ⟨y₀, v, d₀, hd, fun i hi => ?_⟩
  obtain ⟨hlength, s', hs', hupholds, -⟩ := hM i hi
  obtain ⟨k, cost, hk, hcost', hleast, hbracket⟩ := hupholds.bracket
  refine ⟨s', k, cost, hlength, hs', hk, hupholds.line.start, hcost', hleast, fun hclosed hdone => ?_⟩
  -- A bracket that is closed has its two ends among the samples.
  cases hbracket hdone with
  | growing hphase => simp [hclosed] at hphase
  | @closed low _ slope high beyond _ hbase hhigh hnonneg hfound hdown hbeyond =>
    obtain rfl := Exact.finite.inj (hcost'.symm.trans hbase.cost)
    have hspans : Spans k |high - low| := ⟨hclosed, low, high, hbase.low, hhigh, rfl⟩
    have hne : high ≠ low := fun h => by simp [h] at hdown
    have hsteep : c₂ * |d₀| < |slope| := by
      have h := hbase.steep
      rw [abs_of_neg hd]
      linarith
    refine ⟨low, high, slope, beyond, hbase.low, hhigh, hbase.slope, hbase.nonneg, hnonneg, hne, hdown,
      hsteep, hfound, hbeyond, fun hlt => ?_, hn.length_le (fun i hi => (hM i hi).2) hs' hk hspans⟩
    obtain ⟨s'', k'', hs'', hk'', hspans'', -⟩ := hn.spans (fun i hi => (hM i hi).2) hs' hk hspans 1 hlt
    exact ⟨s'', k'', hs'', hk'', fun h => by simpa using hspans'' h⟩

/-- The search on the sphere reaches a closed bracket. -/
theorem bracket_of_goes_sphere : ∃ n s k low high slope cost, Run.Goes steepPlan steepStart n ∧
    (Run.stateAfter steepPlan steepStart n).solver = .strongWolfe s ∧ s.bracket = some k ∧
    k.low = .finite low ∧ k.high = .finite high ∧ k.lowCost = .finite cost ∧
    (Run.samples steepPlan steepStart n).length = n ∧
    (∃ y₀ d₀, IsLeast (lowCosts y₀ d₀ (1 / 10) (Run.samples steepPlan steepStart n)) cost) ∧
    steepRay.backend.dot k.lowGradient steepRay.way = .ok (.finite slope) ∧
    0 ≤ low ∧ 0 ≤ high ∧ high ≠ low ∧ slope * (high - low) < 0 := by
  obtain ⟨t, s, k, ht, hs, hk, hclosed, hdone⟩ := exists_zooming
  obtain ⟨n, hn, rfl⟩ := ht.exists_goes
  have hfinite : Finite steepPlan.setting steepRay :=
    profile_steepRay.finite (terrain_steepRay fun _ => True)
  have hstart : steepStart.progress =
      Run.seeded steepRay.start RunConfig.defaultMaxIters none none none := rfl
  obtain ⟨y₀, v, d₀, -, hstates⟩ := bracket_of_goes (P := steepPlan) rfl hstart rfl hfinite (by simp)
    (by simp) constants_steepSearch rfl Exact.lit_one one_pos not_still_steepRay hn
  obtain ⟨s', k', cost, hlength, hs', hk', -, hcost, hleast, hzoom⟩ := hstates n le_rfl
  obtain rfl := LineSearch.strongWolfe.inj (hs.symm.trans hs')
  obtain rfl := Option.some.inj (hk.symm.trans hk')
  obtain ⟨low, high, slope, beyond, hlow, hhigh, hslope, hlow₀, hhigh₀, hne, hdown, -⟩ :=
    hzoom hclosed hdone
  exact ⟨n, s, k, low, high, slope, cost, hn, hs, hk, hlow, hhigh, hcost, hlength, ⟨y₀, d₀, hleast⟩,
    hslope, hlow₀, hhigh₀, hne, hdown⟩

end StrongWolfe

end Minimization
