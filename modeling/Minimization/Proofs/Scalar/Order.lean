import Mathlib.Order.Lattice
import Minimization.Proofs.Scalar.Exact

namespace Minimization

/-!
# The order of scalars

Comparisons of scalars are those of a line that ends at infinity; values that are not numbers lie
beside it and compare with nothing.

* `Scalar.Ordered` — scalars for which that is so; the minimum of several costs makes sense for
  them.

* `Scalar.Floored` — scalars that lie above the negative infinity, unless they are infinite.

Exact numbers over an ordered field are ordered, and so is their floor.
-/

/-- Scalars whose comparisons are those of a line that ends at infinity. -/
class Scalar.Ordered (α : Type) [Scalar α] : Prop where
  /-- Only numbers compare. -/
  isNaN_of_lt {x y : α} : lt x y = true → isNaN x = false ∧ isNaN y = false
  lt_asymm {x y : α} : lt x y = true → lt y x = false
  /-- A number that is not below the larger side is above the smaller one. -/
  lt_of_lt_of_not_lt {x y z : α} : lt x y = true → isNaN z = false → lt z y = false → lt x z = true
  le_iff {x y : α} : le x y = true ↔ isNaN x = false ∧ isNaN y = false ∧ lt y x = false
  isNaN_infinity : isNaN (infinity : α) = false
  not_infinity_lt (x : α) : lt infinity x = false

namespace Scalar.Ordered

variable {α : Type} [Scalar α] [Ordered α] {x y z : α}

/-- The order of numbers is transitive where one of the steps is strict. -/
theorem lt_of_lt_of_le (hxy : lt x y = true) (hyz : le y z = true) : lt x z = true := by
  obtain ⟨-, hz, hzy⟩ := le_iff.1 hyz
  exact lt_of_lt_of_not_lt hxy hz hzy

/-- What is below is at most. -/
theorem le_of_lt (h : lt x y = true) : le x y = true :=
  le_iff.2 ⟨(isNaN_of_lt h).1, (isNaN_of_lt h).2, lt_asymm h⟩

/-- To be at most is transitive. -/
theorem le_trans (hxy : le x y = true) (hyz : le y z = true) : le x z = true := by
  obtain ⟨hx, hy, hyx⟩ := le_iff.1 hxy
  obtain ⟨-, hz, hzy⟩ := le_iff.1 hyz
  refine le_iff.2 ⟨hx, hz, ?_⟩
  by_contra hzx
  rw [Bool.not_eq_false] at hzx
  rw [lt_of_lt_of_not_lt hzx hy hyx] at hzy
  cases hzy

/-- No number is below itself. -/
theorem lt_irrefl (x : α) : lt x x = false := by
  by_contra h
  rw [Bool.not_eq_false] at h
  rw [lt_asymm h] at h
  cases h

/-- Every number is at most itself. -/
theorem le_refl (hx : isNaN x = false) : le x x = true :=
  le_iff.2 ⟨hx, hx, lt_irrefl x⟩

end Scalar.Ordered

/-- **Exact numbers are ordered**, with the infinities at both ends. -/
instance {K : Type} [Field K] [LinearOrder K] [Roots K] : Scalar.Ordered (Exact K) where
  isNaN_of_lt := by
    intro x y h
    cases x <;> cases y <;> simp_all [Scalar.lt, Exact.lt, Scalar.isNaN]
  lt_asymm := by
    intro x y h
    cases x <;> cases y <;> simp_all [Scalar.lt, Exact.lt]
    exact h.le
  lt_of_lt_of_not_lt := by
    intro x y z hxy hz hzy
    cases x <;> cases y <;> cases z <;> simp_all [Scalar.lt, Exact.lt, Scalar.isNaN]
    exact lt_of_lt_of_le hxy hzy
  le_iff := by
    intro x y
    -- Only infinities need a look at the sign of both.
    cases x with
    | infinite s =>
      cases y with
      | infinite t =>
        cases s <;> cases t <;> simp [Scalar.le, Scalar.lt, Exact.lt, Exact.same, Scalar.isNaN]
      | _ => simp [Scalar.le, Scalar.lt, Exact.lt, Exact.same, Scalar.isNaN]
    | _ =>
      cases y <;> simp [Scalar.le, Scalar.lt, Exact.lt, Exact.same, Scalar.isNaN, le_iff_lt_or_eq]
  isNaN_infinity := by simp [Scalar.isNaN, Scalar.infinity]
  not_infinity_lt := by
    intro x
    cases x <;> simp [Scalar.lt, Exact.lt, Scalar.infinity]

/-- Scalars that lie above the negative infinity, unless they are infinite. -/
class Scalar.Floored (α : Type) [Scalar α] : Prop where
  isInfinite_infinity : isInfinite (infinity : α) = true
  isInfinite_of_le {x : α} : le x (-infinity) = true → isInfinite x = true

/-- Only an infinity is at most minus infinity. -/
instance {K : Type} [Field K] [LinearOrder K] [Roots K] : Scalar.Floored (Exact K) where
  isInfinite_infinity := by simp [Scalar.isInfinite, Scalar.infinity]
  isInfinite_of_le := by
    intro x h
    cases x with
    | infinite s => cases s <;> simp [Scalar.isInfinite]
    | finite x => cases h
    | notANumber => cases h

end Minimization
