import Mathlib.Algebra.BigOperators.Fin
import Mathlib.Data.Matrix.Mul
import Mathlib.LinearAlgebra.Matrix.Symmetric
import Mathlib.Tactic.Ring

namespace Minimization.Rosenbrock

open Matrix

/-!
# The Rosenbrock function in a ring

The function is a sum over neighbouring entries.  An inner entry is the first of one pair and the second
of another one, the entries at either end belong to one pair only.

* `early`, `late` — numbers given for pairs, at the first and at the second entry of each pair.
* `worth`, `byFirst`, `bySecond`, `byFirstTwice`, `byBoth` — a pair and its derivatives.
* `value`, `slopes`, `bends` — the function, its gradient and its Hessian.
* `bends_mulVec` — the Hessian along a direction, pair by pair.
* `sq_dvd_value`, `sq_dvd_slopes` — what is left of function and gradient along a line, after the value
  and the linear part, is a multiple of the square of the step.

All of this holds in any commutative ring, so that steps may be numbers or variables.
-/

variable {R S : Type} [CommRing R] [CommRing S] {m : ℕ}

/-! ### Pairs of neighbours -/

/-- Numbers given for pairs, at the first entry of each; the last entry is none. -/
def early : (Fin m → R) →ₗ[R] Fin (m + 1) → R where
  toFun f := @Fin.snoc m (fun _ => R) f 0
  map_add' f g := by
    funext k
    induction k using Fin.lastCases <;> simp
  map_smul' t f := by
    funext k
    induction k using Fin.lastCases <;> simp

/-- Numbers given for pairs, at the second entry of each; the first entry is none. -/
def late : (Fin m → R) →ₗ[R] Fin (m + 1) → R where
  toFun f := @Fin.cons m (fun _ => R) 0 f
  map_add' f g := by
    funext k
    induction k using Fin.cases <;> simp
  map_smul' t f := by
    funext k
    induction k using Fin.cases <;> simp

variable (f : Fin m → R) (v : Fin (m + 1) → R) (k : Fin (m + 1))

/-- An entry that has one behind it is the first of a pair. -/
@[simp] theorem early_castSucc (i : Fin m) : early f i.castSucc = f i := by simp [early]

/-- The last entry is the first of no pair. -/
@[simp] theorem early_last : early f (Fin.last m) = 0 := by simp [early]

/-- The first entry is the second of no pair. -/
@[simp] theorem late_zero : late f 0 = 0 := rfl

/-- An entry that has one in front of it is the second of a pair. -/
@[simp] theorem late_succ (i : Fin m) : late f i.succ = f i := rfl

/-- Products with the entries are products pair by pair. -/
theorem early_mul : early f k * v k = early (fun i => f i * v i.castSucc) k := by
  induction k using Fin.lastCases <;> simp

/-- So are products at the second entries. -/
theorem late_mul : late f k * v k = late (fun i => f i * v i.succ) k := by
  induction k using Fin.cases <;> simp

/-- A sum over the first entries is a sum over the pairs. -/
theorem sum_early : ∑ k, early f k = ∑ i, f i := by
  rw [Fin.sum_univ_castSucc]
  simp

/-- So is a sum over the second entries. -/
theorem sum_late : ∑ k, late f k = ∑ i, f i := by
  rw [Fin.sum_univ_succ]
  simp

/-- A ring map goes through to the numbers of the pairs. -/
theorem map_early (φ : R →+* S) : φ (early f k) = early (fun i => φ (f i)) k := by
  induction k using Fin.lastCases <;> simp

/-- It does so at the second entries as well. -/
theorem map_late (φ : R →+* S) : φ (late f k) = late (fun i => φ (f i)) k := by
  induction k using Fin.cases <;> simp

variable {f} in
/-- What divides the numbers of all pairs divides each entry. -/
theorem dvd_early {d : R} (h : ∀ i, d ∣ f i) : d ∣ early f k := by
  induction k using Fin.lastCases with
  | last => simp
  | cast i => simpa using h i

variable {f} in
/-- The same at the second entries. -/
theorem dvd_late {d : R} (h : ∀ i, d ∣ f i) : d ∣ late f k := by
  induction k using Fin.cases with
  | zero => simp
  | succ i => simpa using h i

/-- A sum over the diagonal above the main one. -/
theorem sum_next : ∑ l : Fin (m + 1), (if (l : ℕ) = k + 1 then late f l else 0) = early f k := by
  rw [Fin.sum_univ_succ, late_zero, ite_self, zero_add]
  -- Only the entry after `k` counts, and the last one has none after it.
  induction k using Fin.lastCases with
  | last =>
    rw [early_last]
    refine Finset.sum_eq_zero fun i _ => if_neg ?_
    rw [Fin.val_succ, Fin.val_last]
    omega
  | cast i =>
    rw [early_castSucc, Finset.sum_eq_single i]
    · simp
    · intro j _ hj
      exact if_neg fun h => hj (Fin.ext (by simpa using h))
    · simp

/-- A sum over the diagonal below the main one. -/
theorem sum_previous : ∑ l : Fin (m + 1), (if (k : ℕ) = l + 1 then early f l else 0) = late f k := by
  rw [Fin.sum_univ_castSucc, early_last, ite_self, add_zero]
  -- The first coordinate has none before it; each later one has exactly one.
  induction k using Fin.cases with
  | zero =>
    rw [late_zero]
    exact Finset.sum_eq_zero fun i _ => if_neg (by simp)
  | succ i =>
    rw [late_succ, Finset.sum_eq_single i]
    · simp
    · intro j _ hj
      exact if_neg fun h => hj (Fin.ext (by simpa using h.symm))
    · simp

/-! ### The function and its derivatives -/

/-- What a pair contributes to the function. -/
def worth (a b x y : R) : R := (a - x) * (a - x) + b * ((y - x * x) * (y - x * x))

/-- Its derivative by the first entry. -/
def byFirst (a b x y : R) : R := -(2 • (a - x)) - 4 • (b * x * (y - x * x))

/-- Its derivative by the second entry. -/
def bySecond (b x y : R) : R := 2 • (b * (y - x * x))

/-- The second derivative by the first entry. -/
def byFirstTwice (b x y : R) : R := 2 • 1 + 12 • (b * (x * x)) - 4 • (b * y)

/-- The second derivative by both entries. -/
def byBoth (b x : R) : R := -(4 • (b * x))

variable (a b t : R) (x : Fin (m + 1) → R)

/-- The function. -/
def value : R := ∑ i : Fin m, worth a b (x i.castSucc) (x i.succ)

/-- The gradient. -/
def slopes : Fin (m + 1) → R :=
  early (fun i => byFirst a b (x i.castSucc) (x i.succ)) +
    late fun i => bySecond b (x i.castSucc) (x i.succ)

/-- The Hessian on the diagonal. -/
def bend : Fin (m + 1) → R :=
  early (fun i => byFirstTwice b (x i.castSucc) (x i.succ)) + late fun _ => 2 • b

/-- The Hessian, which has entries for neighbours only. -/
def bends : Matrix (Fin (m + 1)) (Fin (m + 1)) R :=
  .of fun k l =>
    if k = l then bend b x k
    else if (l : ℕ) = k + 1 then byBoth b (x k)
    else if (k : ℕ) = l + 1 then byBoth b (x l)
    else 0

/-- The Hessian is symmetric. -/
theorem isSymm_bends : (bends b x).IsSymm := by
  refine IsSymm.ext fun k l => ?_
  show (if l = k then bend b x l else if (k : ℕ) = l + 1 then byBoth b (x l)
    else if (l : ℕ) = k + 1 then byBoth b (x k) else 0) = if k = l then bend b x k
    else if (l : ℕ) = k + 1 then byBoth b (x k) else if (k : ℕ) = l + 1 then byBoth b (x l) else 0
  -- Mirroring exchanges the two cases beside the diagonal.
  by_cases hkl : k = l
  · rw [hkl]
  · rw [if_neg hkl, if_neg (Ne.symm hkl)]
    by_cases hup : (l : ℕ) = k + 1
    · rw [if_pos hup, if_neg (by omega), if_pos hup]
    · rw [if_neg hup, if_neg hup]

/-- An entry of the Hessian times one of a direction: each of the three diagonals has its own part. -/
theorem bends_mul (l : Fin (m + 1)) : bends b x k l * v l = (if k = l then bend b x l * v l else 0) +
    (if (l : ℕ) = k + 1 then late (fun i => byBoth b (x i.castSucc) * v i.succ) l else 0) +
    if (k : ℕ) = l + 1 then early (fun i => byBoth b (x i.castSucc) * v i.castSucc) l else 0 := by
  rw [← late_mul (fun i => byBoth b (x i.castSucc)), ← early_mul (fun i => byBoth b (x i.castSucc))]
  show (if k = l then bend b x k else if (l : ℕ) = k + 1 then byBoth b (x k)
    else if (k : ℕ) = l + 1 then byBoth b (x l) else 0) * v l = _
  by_cases hkl : k = l
  · subst hkl
    simp
  by_cases hup : (l : ℕ) = k + 1
  · have hlate : late (fun i : Fin m => byBoth b (x i.castSucc)) l = byBoth b (x k) := by
      obtain ⟨i, rfl⟩ := Fin.exists_succ_eq.2 (show l ≠ 0 by rintro rfl; simp at hup)
      rw [late_succ, show i.castSucc = k from Fin.ext (by simpa using hup)]
    rw [if_neg hkl, if_neg hkl, if_pos hup, if_pos hup, if_neg (by omega), hlate, zero_add, add_zero]
  by_cases hdown : (k : ℕ) = l + 1
  · have hearly : early (fun i : Fin m => byBoth b (x i.castSucc)) l = byBoth b (x l) := by
      -- The last entry has none below it.
      obtain ⟨i, rfl⟩ := Fin.exists_castSucc_eq.2 (show l ≠ Fin.last m by
        rintro rfl
        have := k.isLt
        rw [Fin.val_last] at hdown
        omega)
      rw [early_castSucc]
    rw [if_neg hkl, if_neg hkl, if_neg hup, if_neg hup, if_pos hdown, if_pos hdown, hearly, zero_add,
      zero_add]
  · simp [hkl, hup, hdown]

/-- **The Hessian along a direction**, pair by pair. -/
theorem bends_mulVec : bends b x *ᵥ v =
    early (fun i => byFirstTwice b (x i.castSucc) (x i.succ) * v i.castSucc +
      byBoth b (x i.castSucc) * v i.succ) +
    late fun i => byBoth b (x i.castSucc) * v i.castSucc + 2 • b * v i.succ := by
  have hadd (f g h i : Fin m → R) (k : Fin (m + 1)) :
      early (f + g) k + late (h + i) k = early f k + early g k + (late h k + late i k) := by
    rw [map_add, map_add, Pi.add_apply, Pi.add_apply]
  funext k
  show ∑ l, bends b x k l * v l = _
  -- Row by row: at most three entries of a row are not zero.
  rw [Finset.sum_congr rfl fun l _ => bends_mul v k b x l, Finset.sum_add_distrib,
    Finset.sum_add_distrib, Finset.sum_ite_eq, if_pos (Finset.mem_univ k), sum_next, sum_previous]
  show (early _ k + late _ k) * v k + _ + _ = early _ k + late _ k
  rw [add_mul, early_mul, late_mul]
  refine Eq.trans ?_ (hadd _ _ _ _ k).symm
  ring

/-! ### Along a line -/

/-- A pair along a line. -/
theorem sq_dvd_worth (x y v w : R) : t ^ 2 ∣ worth a b (x + t * v) (y + t * w) - worth a b x y -
    t * (byFirst a b x y * v + bySecond b x y * w) := by
  refine ⟨v ^ 2 + b * ((w - 2 * x * v) ^ 2 - 2 * (y - x * x) * v ^ 2 -
    2 * t * v ^ 2 * (w - 2 * x * v) + t ^ 2 * v ^ 4), ?_⟩
  unfold worth byFirst bySecond
  ring

/-- Its derivatives along a line. -/
theorem sq_dvd_byFirst (x y v w : R) : t ^ 2 ∣ byFirst a b (x + t * v) (y + t * w) -
    byFirst a b x y - t * (byFirstTwice b x y * v + byBoth b x * w) := by
  refine ⟨-4 * b * (v * (w - 2 * x * v) - x * v ^ 2 - t * v ^ 3), ?_⟩
  unfold byFirst byFirstTwice byBoth
  ring

/-- The other derivative is quadratic in the step, so that little is left. -/
theorem sq_dvd_bySecond (x y v w : R) : t ^ 2 ∣ bySecond b (x + t * v) (y + t * w) -
    bySecond b x y - t * (byBoth b x * v + 2 • b * w) := by
  refine ⟨-2 * b * v ^ 2, ?_⟩
  unfold bySecond byBoth
  ring

/-- **The function along a line**: the gradient is its linear part. -/
theorem sq_dvd_value : t ^ 2 ∣ value a b (fun k => x k + t * v k) - value a b x -
    t * (slopes a b x ⬝ᵥ v) := by
  -- The slope along the direction, sorted by terms and not by coordinates.
  have hslopes : slopes a b x ⬝ᵥ v = ∑ i : Fin m, (byFirst a b (x i.castSucc) (x i.succ) * v i.castSucc +
      bySecond b (x i.castSucc) (x i.succ) * v i.succ) := by
    show ∑ k, (early _ k + late _ k) * v k = _
    simp only [add_mul, early_mul, late_mul, Finset.sum_add_distrib, sum_early, sum_late]
  rw [hslopes]
  unfold value
  rw [Finset.mul_sum, ← Finset.sum_sub_distrib, ← Finset.sum_sub_distrib]
  exact Finset.dvd_sum fun i _ => sq_dvd_worth a b t _ _ _ _

/-- **The gradient along a line**: the Hessian is its linear part. -/
theorem sq_dvd_slopes : t ^ 2 ∣ slopes a b (fun k => x k + t * v k) k - slopes a b x k -
    t * (bends b x *ᵥ v) k := by
  have hfirst := dvd_early k fun i : Fin m =>
    sq_dvd_byFirst a b t (x i.castSucc) (x i.succ) (v i.castSucc) (v i.succ)
  have hsecond := dvd_late k fun i : Fin m =>
    sq_dvd_bySecond b t (x i.castSucc) (x i.succ) (v i.castSucc) (v i.succ)
  refine (dvd_add hfirst hsecond).trans (dvd_of_eq ?_)
  have hsplit (f g h f' g' h' : Fin m → R) :
      early (f - g - t • h) k + late (f' - g' - t • h') k =
        (early f k + late f' k) - (early g k + late g' k) - t * (early h k + late h' k) := by
    simp only [map_sub, map_smul, Pi.sub_apply, Pi.smul_apply, smul_eq_mul]
    ring
  rw [bends_mulVec]
  exact hsplit _ _ _ _ _ _

end Minimization.Rosenbrock
