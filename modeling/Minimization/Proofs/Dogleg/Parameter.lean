import Mathlib.Tactic.FieldSimp
import Mathlib.Tactic.Linarith
import Minimization.Method.Dogleg
import Minimization.Proofs.Scalar.Root
import Minimization.Proofs.Tensor.Vectors

namespace Minimization.Dogleg

open Minimization Matrix

/-!
# Where a line meets a sphere

The second leg of the path is a segment from `u` to `v`; the point at the parameter `τ` is
`u + (τ - 1) (v - u)`, and its squared length is a quadratic in `τ`.

* `discriminant` — a quarter of the discriminant of that quadratic at the squared radius `δ`.
* `pathParameter_of_nonneg` — the larger root.
* `pathParameter_of_neg` — the closed form that is taken where there is no root.
* `pathParameter_self` — a second leg of length zero has no parameter at all.
-/

variable {K : Type} [Field K] [LinearOrder K] [IsStrictOrderedRing K] {n : Nat}

/-- A quarter of the discriminant of `|u + s (v - u)|² = δ` in `s`. -/
def discriminant (u v : Fin n → K) (δ : K) : K :=
  (u ⬝ᵥ (v - u)) ^ 2 - (v - u) ⬝ᵥ (v - u) * (u ⬝ᵥ u - δ)

variable {u v : Fin n → K} {δ : K}

omit [LinearOrder K] [IsStrictOrderedRing K] in
/-- The inner products with the second leg. -/
theorem dotProduct_leg (u v : Fin n → K) : u ⬝ᵥ (v - u) = u ⬝ᵥ v - u ⬝ᵥ u ∧
    (v - u) ⬝ᵥ (v - u) = -2 * u ⬝ᵥ v + v ⬝ᵥ v + u ⬝ᵥ u := by
  refine ⟨dotProduct_sub .., ?_⟩
  rw [dotProduct_sub, sub_dotProduct, sub_dotProduct, dotProduct_comm v u]
  ring

omit [LinearOrder K] [IsStrictOrderedRing K] in
/-- What the method takes the root of. -/
theorem discriminant_eq (u v : Fin n → K) (δ : K) : discriminant u v δ =
    u ⬝ᵥ v * u ⬝ᵥ v - 2 * u ⬝ᵥ v * δ + δ * v ⬝ᵥ v - v ⬝ᵥ v * u ⬝ᵥ u + δ * u ⬝ᵥ u := by
  obtain ⟨hu, hleg⟩ := dotProduct_leg u v
  rw [discriminant, hu, hleg]
  ring

/-- Different ends have a positive distance. -/
theorem leg_pos (h : u ≠ v) : 0 < (v - u) ⬝ᵥ (v - u) := by
  have hne : (v - u) ⬝ᵥ (v - u) ≠ 0 := fun hzero =>
    h (sub_eq_zero.1 (dotProduct_self_eq_zero.1 hzero)).symm
  exact lt_of_le_of_ne (Finset.sum_nonneg fun i _ => mul_self_nonneg _) hne.symm

section Roots

variable [Roots K]

/-- The parameter that the method computes for a leg from `u` to `v` and a squared radius. -/
def parameter (u v : Fin n → K) (δ : K) : Exact K :=
  pathParameter (.finite (u ⬝ᵥ u)) (.finite (v ⬝ᵥ v)) (.finite (u ⬝ᵥ v)) (.finite δ)

/-- The larger one of two roots, one of which may be missing. -/
def largerRoot (u v : Fin n → K) (root : Exact K) : Exact K :=
  let t1 := Exact.finite (u ⬝ᵥ (v - u) - (v - u) ⬝ᵥ (v - u))
  let t3 := Exact.finite ((v - u) ⬝ᵥ (v - u))
  Scalar.maxNumber (-(t1 + root) / t3) (-(t1 - root) / t3)

/-- The formula of the method, with the leg in place of its ends. -/
theorem parameter_eq (u v : Fin n → K) (δ : K) : parameter u v δ =
    let tau := largerRoot u v (Scalar.sqrt (.finite (discriminant u v δ)))
    if Scalar.isFinite tau then tau
    else .finite (δ + v ⬝ᵥ v - 2 * u ⬝ᵥ u) / .finite (v ⬝ᵥ v - u ⬝ᵥ u) := by
  obtain ⟨hu, hleg⟩ := dotProduct_leg u v
  have hfirst : 3 * u ⬝ᵥ v - v ⬝ᵥ v - 2 * u ⬝ᵥ u = u ⬝ᵥ (v - u) - (v - u) ⬝ᵥ (v - u) := by
    rw [hu, hleg]
    ring
  have hsquare : Scalar.square (.finite (u ⬝ᵥ v) : Exact K) = .finite (u ⬝ᵥ v * u ⬝ᵥ v) := rfl
  unfold parameter pathParameter largerRoot
  simp only [hsquare, Exact.lit_two, Exact.lit_three, Exact.finite_mul, Exact.finite_sub,
    Exact.finite_add, Exact.finite_neg, ← discriminant_eq, hfirst, ← hleg]

/-- Two roots. -/
theorem largerRoot_finite (hne : u ≠ v) {q : K} (hq : 0 ≤ q) : largerRoot u v (.finite q) =
    .finite (1 + (q - u ⬝ᵥ (v - u)) / ((v - u) ⬝ᵥ (v - u))) := by
  have hpos := leg_pos hne
  unfold largerRoot
  -- The leg matters through its inner products only.
  generalize (v - u) ⬝ᵥ (v - u) = w at hpos
  generalize u ⬝ᵥ (v - u) = a
  have hdiv (x : K) : (Exact.finite x / Exact.finite w : Exact K) = .finite (x / w) :=
    Exact.finite_div x hpos.ne'
  have hsecond : 1 + (q - a) / w = -(a - w - q) / w := by
    field_simp
    ring
  have hle : -(a - w + q) / w ≤ -(a - w - q) / w := by
    rw [div_le_div_iff_of_pos_right hpos]
    linarith
  -- The larger of two finite candidates is the one with the root added.
  simp only [Exact.finite_add, Exact.finite_sub, Exact.finite_neg, hdiv, Scalar.maxNumber,
    Exact.isNaN_finite, Bool.or_false, Exact.le_finite, hsecond]
  split
  · next hge => rw [le_antisymm hle hge]
  · rfl

omit [IsStrictOrderedRing K] in
/-- No root. -/
theorem largerRoot_notANumber : largerRoot u v .notANumber = .notANumber := rfl

omit [IsStrictOrderedRing K] in
/-- A quadratic that vanishes. -/
theorem largerRoot_self (u : Fin n → K) : largerRoot u u (.finite 0) = .notANumber := by
  have hzero : (Exact.finite 0 / Exact.finite 0 : Exact K) = .notANumber := by
    show Exact.div _ _ = _
    simp [Exact.div]
  unfold largerRoot
  rw [sub_self, dotProduct_zero, dotProduct_zero, sub_self]
  simp [hzero, Scalar.maxNumber, Scalar.isNaN]

/-- Where the leg meets the sphere, the parameter is that of the second meeting. -/
theorem parameter_of_nonneg [SquareRoots K] (hne : u ≠ v) (h : 0 ≤ discriminant u v δ) :
    ∃ q, 0 ≤ q ∧ q * q = discriminant u v δ ∧
      parameter u v δ = .finite (1 + (q - u ⬝ᵥ (v - u)) / ((v - u) ⬝ᵥ (v - u))) := by
  obtain ⟨q, hq, hsquare, hroot⟩ := Exact.sqrt_finite h
  refine ⟨q, hq, hsquare, ?_⟩
  rw [parameter_eq, hroot, largerRoot_finite hne hq]
  exact if_pos (Exact.isFinite_finite _)

/-- Where the leg misses the sphere, the parameter is given by the closed form. -/
theorem parameter_of_neg [LawfulRoots K] (hlt : u ⬝ᵥ u < v ⬝ᵥ v) (h : discriminant u v δ < 0) :
    parameter u v δ = .finite ((δ + v ⬝ᵥ v - 2 * u ⬝ᵥ u) / (v ⬝ᵥ v - u ⬝ᵥ u)) := by
  rw [parameter_eq, Exact.sqrt_of_neg h, largerRoot_notANumber,
    Exact.finite_div _ (sub_pos.2 hlt).ne']
  rfl

/-- A leg of length zero has no parameter. -/
theorem parameter_self [LawfulRoots K] (h : δ < u ⬝ᵥ u) : parameter u u δ = .infinite true := by
  have hroot : Scalar.sqrt (.finite (discriminant u u δ)) = (.finite 0 : Exact K) := by
    show Exact.ofOption (Roots.root? _) = _
    rw [discriminant, sub_self, dotProduct_zero, zero_dotProduct]
    simp [LawfulRoots.root?_zero, Exact.ofOption]
  have hneg : δ + u ⬝ᵥ u - 2 * u ⬝ᵥ u < 0 := by linarith
  rw [parameter_eq, hroot, largerRoot_self, sub_self]
  show Exact.div (.finite _) (.finite 0) = _
  simp [Exact.div, hneg, hneg.ne]

end Roots

end Minimization.Dogleg
