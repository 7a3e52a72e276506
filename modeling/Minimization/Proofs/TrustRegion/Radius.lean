import Mathlib.Tactic.Linarith
import Minimization.Proofs.Scalar.Finite
import Minimization.Proofs.TrustRegion.Step

namespace Minimization.TrustRegion

open Exact

/-!
# The two tests on the ratio of a step

One test on the ratio of actual to predicted decrease sets the radius, another one takes the point.
Both read the same number, which is forced to zero where it means nothing, so that a point that is
kept always comes with a smaller region.

* `Lower` — a finite cost strictly below a finite cost.
* `Trial.Made.ratio_cases` — the ratio is a quotient of finite numbers by a positive one, or zero.
* `Trial.Made.lower_of_taken`, `Trial.Made.ratio_lt_of_kept` — what the two outcomes mean.
* `Region` — the settings between two steps; `Region.next` — what a step makes of the radius.
-/

variable {K ω : Type} [LinearOrder K]

/-- Both costs are finite, and the first one is strictly lower. -/
def Lower (c' c : Exact K) : Prop := ∃ x' x, c' = finite x' ∧ c = finite x ∧ x' < x

/-- Two decreases are one. -/
theorem Lower.trans {c c' c'' : Exact K} (h' : Lower c'' c') (h : Lower c' c) : Lower c'' c := by
  obtain ⟨x'', x', rfl, rfl, hlt'⟩ := h'
  obtain ⟨_, x, hx', rfl, hlt⟩ := h
  obtain rfl := finite.inj hx'
  exact ⟨x'', x, rfl, rfl, hlt'.trans hlt⟩

/-- A decrease is seen. -/
theorem Lower.ne {c c' : Exact K} (h : Lower c' c) : c' ≠ c := by
  obtain ⟨x', x, rfl, rfl, hlt⟩ := h
  exact fun heq => hlt.ne (finite.inj heq)

/-! ### The ratio -/

variable [Field K] [Roots K]

/-- The predicted decrease is the cost without that of the model, which starts from the cost. -/
theorem predictedDecrease_eq {b : Backend} {cost predicted : Exact K} {g h d : Tensor (Exact K)}
    (hpredicted : predictedDecrease b cost g h d = .ok predicted) :
    ∃ slope curvature, predicted = cost - (cost + slope + curvature) := by
  unfold predictedDecrease at hpredicted
  cases hslope : b.dot g d with
  | error e => simp [hslope, bind, Except.bind] at hpredicted
  | ok slope =>
    cases hcurvature : b.weightedDot d h d with
    | error e => simp [hslope, hcurvature, bind, Except.bind] at hpredicted
    | ok curvature =>
      refine ⟨slope, 0.5 * curvature, ?_⟩
      simpa [hslope, hcurvature, bind, Except.bind, pure, Except.pure] using hpredicted.symm

/-- No decrease is predicted of a cost that is not finite. -/
theorem finite_of_predicted {cost slope curvature : Exact K}
    (h : Scalar.lt 0.0 (cost - (cost + slope + curvature)) = true) : ∃ c, cost = finite c := by
  cases cost with
  | finite c => exact ⟨c, rfl⟩
  | infinite s =>
    -- The model has the same infinite cost, or none; neither leaves a difference.
    obtain hslope | hslope := infinite_add s slope
    · obtain hcurvature | hcurvature := infinite_add s curvature
      · simp [hslope, hcurvature] at h
      · simp [hslope, hcurvature] at h
    · simp [hslope] at h
  | notANumber => simp at h

/-- The ratio is a quotient of finite numbers by a positive one, or it is zero. -/
theorem ratio_cases (cost newCost slope curvature : Exact K) :
    (∃ c c' q, cost = finite c ∧ newCost = finite c' ∧ 0 < q ∧
      ratio cost newCost (cost - (cost + slope + curvature)) = finite ((c - c') / q)) ∨
    ratio cost newCost (cost - (cost + slope + curvature)) = finite 0 := by
  unfold ratio
  split
  · next h =>
    rw [Bool.and_eq_true] at h
    obtain ⟨hpredicted, hfinite⟩ := h
    obtain ⟨c, rfl⟩ := finite_of_predicted hpredicted
    obtain ⟨c', rfl⟩ := isFinite_iff.1 hfinite
    generalize finite c - (finite c + slope + curvature) = predicted at hpredicted ⊢
    cases predicted with
    | finite q =>
      have hq : 0 < q := by simpa using hpredicted
      exact .inl ⟨c, c', q, rfl, rfl, hq, by rw [finite_sub, finite_div _ hq.ne']⟩
    | infinite s =>
      -- A finite decrease counts for nothing against an infinite one.
      exact .inr (by rw [finite_sub]; rfl)
    | notANumber => simp at hpredicted
  · exact .inr lit_zero

namespace Trial.Made

variable {A : Setting ω (Exact K)} {p : Progress (Exact K)}
  {w : Workspace (TrustRegion (Exact K)) ω} {g h : Tensor (Exact K)} {t : Trial (Exact K)} {eta : K}

/-- The same for the ratio of a step. -/
theorem ratio_cases (ht : t.Made A p w g h) :
    (∃ c c' q, p.cost = finite c ∧ t.cost = finite c' ∧ 0 < q ∧
      t.ratio p.cost = finite ((c - c') / q)) ∨ t.ratio p.cost = finite 0 := by
  obtain ⟨slope, curvature, hpredicted⟩ := predictedDecrease_eq ht.predicted
  unfold Trial.ratio
  rw [hpredicted]
  exact TrustRegion.ratio_cases p.cost t.cost slope curvature

/-- The ratio of a step is always finite. -/
theorem ratio_finite (ht : t.Made A p w g h) : ∃ r, t.ratio p.cost = finite r := by
  obtain ⟨c, c', q, -, -, -, hrho⟩ | hrho := ht.ratio_cases
  · exact ⟨_, hrho⟩
  · exact ⟨_, hrho⟩

variable [IsStrictOrderedRing K]

/-- A point that is taken has a lower cost. -/
theorem lower_of_taken (ht : t.Made A p w g h) (heta : 0 ≤ eta)
    (htaken : t.isTaken p.cost (finite eta) = true) : Lower t.cost p.cost := by
  -- A step is taken if its ratio beats the threshold, which is not negative.
  have hratio : Scalar.lt (finite eta) (t.ratio p.cost) = true := by
    unfold isTaken at htaken
    exact (Bool.and_eq_true _ _ ▸ htaken).1
  obtain ⟨c, c', q, hc, hc', hq, hrho⟩ | hrho := ht.ratio_cases
  · rw [hrho, lt_finite] at hratio
    have hdecrease : 0 < c - c' := (div_pos_iff_of_pos_right hq).1 (heta.trans_lt hratio)
    exact ⟨c', c, hc', hc, sub_pos.1 hdecrease⟩
  · rw [hrho, lt_finite] at hratio
    exact absurd hratio heta.not_gt

/-- A step whose point is not taken is a poor one. -/
theorem ratio_lt_of_kept (ht : t.Made A p w g h) (heta : eta < 1 / 4)
    (hkept : t.isTaken p.cost (finite eta) = false) :
    ∃ r, t.ratio p.cost = finite r ∧ r < 1 / 4 := by
  obtain ⟨c, c', q, hc, hc', hq, hrho⟩ | hrho := ht.ratio_cases
  · have hle : (c - c') / q ≤ eta := by
      rw [isTaken, hrho, hc', isFinite_finite, Bool.and_true, lt_finite_eq_false_iff] at hkept
      exact hkept
    exact ⟨_, hrho, hle.trans_lt heta⟩
  · exact ⟨0, hrho, by norm_num⟩

end Trial.Made

/-! ### The radius -/

/-- The region has the radius `rho`, which is positive and at most `M`; steps are taken if their
    ratio exceeds `eta`, which lies below a quarter. -/
structure Region (M eta rho : K) (s : TrustRegion (Exact K)) : Prop where
  radius : s.radius = finite rho
  maxRadius : s.maxRadius = finite M
  acceptance : s.acceptance = finite eta
  pos : 0 < rho
  le : rho ≤ M
  acceptance_nonneg : 0 ≤ eta
  acceptance_lt : eta < 1 / 4

variable [IsStrictOrderedRing K]

/-- What is checked of finite settings. -/
theorem make_eq_ok_iff {d : Subproblem (Exact K)} {M eta rho : K} {s : TrustRegion (Exact K)} :
    make d (finite rho) (finite M) (finite eta) = .ok s ↔
      0 < rho ∧ rho ≤ M ∧ (0 ≤ eta ∧ eta < 1 / 4) ∧
        s = ⟨d, finite rho, finite M, finite eta⟩ := by
  -- The three tests of the constructor, as propositions about the scalars.
  have hrho : Scalar.lt 0.0 (finite rho : Exact K) = decide (0 < rho) := by rw [lit_zero]; rfl
  have hM : Scalar.le (finite rho) (finite M) = decide (rho ≤ M) := by
    rw [Bool.eq_iff_iff, le_finite, decide_eq_true_iff]
  have heta : (Scalar.le 0.0 (finite eta) && Scalar.lt (finite eta) 0.25) =
      decide (0 ≤ eta ∧ eta < 1 / 4) := by
    rw [Bool.eq_iff_iff, Bool.and_eq_true, lit_zero, lit_quarter, le_finite, lt_finite,
      decide_eq_true_iff]
  unfold make
  rw [hrho, hM, heta]
  by_cases hpos : 0 < rho
  · by_cases hle : rho ≤ M
    · by_cases hbounds : 0 ≤ eta ∧ eta < 1 / 4
      · rw [decide_eq_true hpos, decide_eq_true hle, decide_eq_true hbounds]
        exact ⟨fun h => ⟨hpos, hle, hbounds, (Except.ok.inj h).symm⟩, fun h => by rw [h.2.2.2]; rfl⟩
      · rw [decide_eq_true hpos, decide_eq_true hle, decide_eq_false hbounds]
        exact ⟨nofun, fun h => absurd h.2.2.1 hbounds⟩
    · rw [decide_eq_true hpos, decide_eq_false hle]
      exact ⟨nofun, fun h => absurd h.2.1 hle⟩
  · rw [decide_eq_false hpos]
    exact ⟨nofun, fun h => absurd h.1 hpos⟩

/-- Settings that are finite and checked. -/
theorem region_of_make {d : Subproblem (Exact K)} {M eta rho : K} {s : TrustRegion (Exact K)}
    (h : make d (finite rho) (finite M) (finite eta) = .ok s) : Region M eta rho s := by
  obtain ⟨hpos, hle, ⟨hnonneg, hlt⟩, rfl⟩ := make_eq_ok_iff.1 h
  exact ⟨rfl, rfl, rfl, hpos, hle, hnonneg, hlt⟩

/-- **The radius stays in its bounds**, and after a poor step a quarter of it is left. -/
theorem Region.next {M eta rho : K} {s : TrustRegion (Exact K)} (hs : Region M eta rho s) (r : K)
    (length : Exact K) (d : Subproblem (Exact K)) : ∃ rho',
      Region M eta rho' { s with subproblem := d, radius := s.nextRadius (finite r) length } ∧
        (r < 1 / 4 → rho' = rho / 4) := by
  have hmax := hs.maxRadius
  have hacceptance := hs.acceptance
  have hpos := hs.pos
  have hle := hs.le
  have with_radius {rho' : K} (hradius : s.nextRadius (finite r) length = finite rho')
      (hpos' : 0 < rho') (hle' : rho' ≤ M) :
      Region M eta rho' { s with subproblem := d, radius := s.nextRadius (finite r) length } :=
    ⟨hradius, hmax, hacceptance, hpos', hle', hs.acceptance_nonneg, hs.acceptance_lt⟩
  -- A poor ratio shrinks the radius; a good one at the boundary doubles it, up to its maximum; otherwise
  -- it stays.
  by_cases hr : r < 1 / 4
  · have hradius : s.nextRadius (finite r) length = finite (rho / 4) := by
      unfold nextRadius
      rw [lit_quarter, if_pos ((lt_finite ..).2 hr), hs.radius, finite_mul, mul_one_div]
    exact ⟨rho / 4, with_radius hradius (by linarith) (by linarith), fun _ => rfl⟩
  · have hgrown : s.nextRadius (finite r) length =
        if Scalar.lt 0.75 (finite r) && Scalar.le (0.9 * s.radius) length then
          Scalar.least (2.0 * s.radius) s.maxRadius else s.radius := by
      unfold nextRadius
      rw [lit_quarter, if_neg (by rwa [lt_finite])]
    split at hgrown
    · have hleast : s.nextRadius (finite r) length = finite (min (2 * rho) M) := by
        rw [hgrown, hs.radius, hmax, lit_two, finite_mul, Scalar.least]
        by_cases hlt : M < 2 * rho
        · rw [if_pos ((lt_finite ..).2 hlt), min_eq_right hlt.le]
        · rw [if_neg (by simpa using hlt), min_eq_left (not_lt.1 hlt)]
      exact ⟨_, with_radius hleast (lt_min (by linarith) (by linarith)) (min_le_right _ _),
        fun h => absurd h hr⟩
    · exact ⟨rho, with_radius (hgrown.trans hs.radius) hpos hle, fun h => absurd h hr⟩

end Minimization.TrustRegion
