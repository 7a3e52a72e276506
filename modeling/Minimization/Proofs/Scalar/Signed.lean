import Mathlib.Tactic.NormNum
import Minimization.Proofs.Scalar.Finite
import Minimization.Proofs.Scalar.Order

namespace Minimization

/-!
# The signs of sums and products

Rounding does not turn signs around.  That is all that has to be known of an arithmetic to see that a
step length stays positive, and that a cost which is low enough for a test of sufficient decrease is
no higher than the cost at the start.

* `Scalar.Signed` — scalars whose sums and products have the signs that one expects.
* `Scalar.Signed.le_of_le_add_mul` — what lies below a start and a bit downhill lies below the start.
* `Scalar.Absorbing` — scalars that make no number by addition of what is not one.

Nothing is asked of values that are not numbers: they are not below zero, and not above it either.
Exact numbers over an ordered field are signed, and so are doubles (`Double.rank_add_le`).
-/

/-- Scalars whose sums and products have the signs that one expects, as far as they are numbers. -/
class Scalar.Signed (α : Type) [Scalar α] : Prop where
  zero_lt_one : lt (0.0 : α) 1.0 = true
  two_nonneg : lt (2.0 : α) 0.0 = false
  half_nonneg : lt (0.5 : α) 0.0 = false
  add_nonneg {x y : α} : lt x 0.0 = false → lt y 0.0 = false → lt (x + y) 0.0 = false
  mul_nonneg {x y : α} : lt x 0.0 = false → lt y 0.0 = false → lt (x * y) 0.0 = false
  mul_nonpos {x y : α} : lt x 0.0 = false → lt y 0.0 = true → lt 0.0 (x * y) = false
  /-- What is not positive raises nothing that it is added to. -/
  le_of_le_add {x y z : α} : lt 0.0 y = false → le z (x + y) = true → le z x = true

/-- What lies below a start and a bit downhill lies below the start. -/
theorem Scalar.Signed.le_of_le_add_mul {α : Type} [Scalar α] [Signed α] {x y slope z : α}
    (hy : lt y 0.0 = false) (hslope : lt slope 0.0 = true) (h : le z (x + y * slope) = true) :
    le z x = true :=
  le_of_le_add (mul_nonpos hy hslope) h

namespace Exact

variable {K : Type} [Field K] [LinearOrder K] [Roots K]

/-- What is not negative. -/
theorem lt_zero_eq_false_iff {x : Exact K} : Scalar.lt x 0.0 = false ↔
    x = .notANumber ∨ x = .infinite false ∨ ∃ a, 0 ≤ a ∧ x = .finite a := by
  rw [lit_zero]
  cases x with
  | finite a => simp [lt_finite_eq_false_iff]
  | infinite s => cases s <;> simp [Scalar.lt, lt]
  | notANumber => simp [Scalar.lt, lt]

/-- What is not positive. -/
theorem zero_lt_eq_false_iff {x : Exact K} : Scalar.lt 0.0 x = false ↔
    x = .notANumber ∨ x = .infinite true ∨ ∃ a, a ≤ 0 ∧ x = .finite a := by
  rw [lit_zero]
  cases x with
  | finite a => simp [lt_finite_eq_false_iff]
  | infinite s => cases s <;> simp [Scalar.lt, lt]
  | notANumber => simp [Scalar.lt, lt]

/-- An infinity is multiplied by the sign of the other factor. -/
theorem infinite_mul_finite (s : Bool) (a : K) : (infinite s * finite a : Exact K) =
    if a = 0 then notANumber else infinite (s != decide (a < 0)) := rfl

/-- So it is from the other side. -/
theorem finite_mul_infinite (a : K) (s : Bool) : (finite a * infinite s : Exact K) =
    if a = 0 then notANumber else infinite (s != decide (a < 0)) := rfl

/-- What is no number does not become one by multiplication. -/
theorem notANumber_mul (x : Exact K) : notANumber * x = notANumber := by
  cases x <;> rfl

section
variable [IsStrictOrderedRing K] {x y z : Exact K}

/-- What is not negative adds up to something that is not negative. -/
theorem add_not_negative (hx : Scalar.lt x 0.0 = false) (hy : Scalar.lt y 0.0 = false) :
    Scalar.lt (x + y) 0.0 = false := by
  rw [lt_zero_eq_false_iff] at hx hy ⊢
  obtain rfl | rfl | ⟨a, ha, rfl⟩ := hx
  · exact .inl (notANumber_add _)
  · obtain h | h := infinite_add false (K := K) _
    · exact .inr (.inl h)
    · exact .inl h
  · obtain rfl | rfl | ⟨b, hb, rfl⟩ := hy
    · exact .inl rfl
    · exact .inr (.inl rfl)
    · exact .inr (.inr ⟨a + b, add_nonneg ha hb, rfl⟩)

/-- The product of two numbers that are not negative is not negative. -/
theorem mul_not_negative (hx : Scalar.lt x 0.0 = false) (hy : Scalar.lt y 0.0 = false) :
    Scalar.lt (x * y) 0.0 = false := by
  rw [lt_zero_eq_false_iff] at hx hy ⊢
  -- No number, infinity, or a number that is not negative: nine products.
  obtain rfl | rfl | ⟨a, ha, rfl⟩ := hx
  · exact .inl (notANumber_mul _)
  · obtain rfl | rfl | ⟨b, hb, rfl⟩ := hy
    · exact .inl rfl
    · exact .inr (.inl rfl)
    · rw [infinite_mul_finite]
      by_cases hzero : b = 0 <;> simp [hzero, hb.not_gt]
  · obtain rfl | rfl | ⟨b, hb, rfl⟩ := hy
    · exact .inl rfl
    · rw [finite_mul_infinite]
      by_cases hzero : a = 0 <;> simp [hzero, ha.not_gt]
    · exact .inr (.inr ⟨a * b, mul_nonneg ha hb, rfl⟩)

/-- The product of one that is not negative and a negative one is not positive. -/
theorem mul_not_positive (hx : Scalar.lt x 0.0 = false) (hy : Scalar.lt y 0.0 = true) :
    Scalar.lt 0.0 (x * y) = false := by
  rw [lt_zero_eq_false_iff] at hx
  rw [zero_lt_eq_false_iff]
  -- The same cases, with a factor that is negative.
  obtain rfl | rfl | ⟨a, ha, rfl⟩ := hx
  · exact .inl (notANumber_mul _)
  · cases y with
    | finite b =>
      have hb : b < 0 := by simpa using hy
      rw [infinite_mul_finite, if_neg hb.ne]
      simp [hb]
    | infinite s =>
      cases s with
      | false => cases hy
      | true => exact .inr (.inl rfl)
    | notANumber => exact .inl rfl
  · cases y with
    | finite b =>
      have hb : b < 0 := by simpa using hy
      exact .inr (.inr ⟨a * b, mul_nonpos_of_nonneg_of_nonpos ha hb.le, rfl⟩)
    | infinite s =>
      cases s with
      | false => cases hy
      | true =>
        rw [finite_mul_infinite]
        by_cases hzero : a = 0 <;> simp [hzero, ha.not_gt]
    | notANumber => exact .inl rfl

/-- What is not positive raises nothing that it is added to. -/
theorem le_of_le_add (hy : Scalar.lt 0.0 y = false) (h : Scalar.le z (x + y) = true) :
    Scalar.le z x = true := by
  rw [zero_lt_eq_false_iff] at hy
  -- A sum is no number, or minus infinity, or the start itself if that is infinite.
  obtain rfl | rfl | ⟨b, hb, rfl⟩ := hy
  · cases x <;> cases z <;> cases h
  · cases x with
    | finite a =>
      cases z with
      | finite c => cases h
      | infinite s =>
        cases s with
        | false => cases h
        | true => rfl
      | notANumber => cases h
    | infinite s =>
      cases s with
      | false => cases z <;> cases h
      | true => exact h
    | notANumber => cases z <;> cases h
  · cases x with
    | finite a =>
      cases z with
      | finite c =>
        rw [finite_add, le_finite] at h
        exact (le_finite c a).2 (h.trans (add_le_of_nonpos_right hb))
      | infinite s => exact h
      | notANumber => cases h
    | infinite s => exact h
    | notANumber => cases z <;> cases h

end

end Exact

/-- **Exact numbers keep to the rules of signs.** -/
instance {K : Type} [Field K] [LinearOrder K] [IsStrictOrderedRing K] [Roots K] :
    Scalar.Signed (Exact K) where
  zero_lt_one := by simp
  two_nonneg := by simp [Exact.lt_finite_eq_false_iff]
  half_nonneg := by simp [Exact.lt_finite_eq_false_iff]
  add_nonneg := Exact.add_not_negative
  mul_nonneg := Exact.mul_not_negative
  mul_nonpos := Exact.mul_not_positive
  le_of_le_add := Exact.le_of_le_add

/-- Scalars that make no number by addition of what is not one. -/
class Scalar.Absorbing (α : Type) [Scalar α] : Prop where
  isNaN_add {x y : α} : isNaN x = true → isNaN (x + y) = true

/-- What is no number stays none. -/
instance {K : Type} [Field K] [LinearOrder K] [Roots K] : Scalar.Absorbing (Exact K) where
  isNaN_add {x y} hx := by
    obtain rfl : x = .notANumber := of_decide_eq_true hx
    rw [Exact.notANumber_add]
    rfl

/-- Where a sum is the measure, its first part has to be a number. -/
theorem Scalar.Absorbing.isNaN_of_le_add {α : Type} [Scalar α] [Ordered α] [Absorbing α] {x y z : α}
    (h : le z (x + y) = true) : isNaN z = false ∧ isNaN x = false := by
  obtain ⟨hz, hsum, -⟩ := Ordered.le_iff.1 h
  refine ⟨hz, ?_⟩
  by_contra hx
  rw [Bool.not_eq_false] at hx
  rw [isNaN_add hx] at hsum
  cases hsum

end Minimization
