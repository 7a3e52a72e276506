import Mathlib.Tactic.FieldSimp
import Mathlib.Tactic.NormNum
import Mathlib.Tactic.Positivity
import Mathlib.Tactic.Ring
import Minimization.Proofs.Scalar.Exact

namespace Minimization

/-!
# Arithmetic of finite numbers

As long as all numbers are finite, exact scalars compute and compare as the field does.

* `Exact.finite_add` and the lemmas beside it — the operations of scalars, moved into the field.
* `Exact.infinite_add` and the lemmas beside it — what infinities do to sums and comparisons.
* `Exact.lit_zero`, `Exact.lit_one`, … — the constants that algorithms mention.
* `LawfulRoots` — roots that are roots; the root of zero exists.
-/

namespace Exact

variable {K : Type} [Field K] [LinearOrder K] [Roots K] (x y : K)

/-- Finite numbers are added in the field. -/
@[simp] theorem finite_add : (finite x + finite y : Exact K) = finite (x + y) := rfl

/-- They are subtracted there. -/
@[simp] theorem finite_sub : (finite x - finite y : Exact K) = finite (x - y) := by
  rw [sub_eq_add_neg]
  rfl

/-- They are multiplied there. -/
@[simp] theorem finite_mul : (finite x * finite y : Exact K) = finite (x * y) := rfl

/-- They are negated there. -/
@[simp] theorem finite_neg : (-finite x : Exact K) = finite (-x) := rfl

/-- They are divided there, by anything but zero. -/
theorem finite_div {y : K} (hy : y ≠ 0) : (finite x / finite y : Exact K) = finite (x / y) :=
  if_neg hy

/-- They compare as in the field. -/
@[simp] theorem lt_finite : Scalar.lt (finite x) (finite y) = true ↔ x < y := by
  simp [Scalar.lt, lt]

/-- The order of the field is total. -/
theorem lt_finite_eq_false_iff : Scalar.lt (finite x) (finite y) = false ↔ y ≤ x := by
  rw [Bool.eq_false_iff, Ne, lt_finite, not_lt]

/-- What lies above a finite number and below anything is finite. -/
theorem exists_of_lt_of_lt {a : K} {y z : Exact K} (hay : Scalar.lt (finite a) y = true)
    (hyz : Scalar.lt y z = true) : ∃ c, a < c ∧ y = finite c := by
  cases y with
  | finite c => exact ⟨c, (lt_finite a c).1 hay, rfl⟩
  | infinite negative =>
    cases negative with
    | false => cases z <;> cases hyz
    | true => cases hay
  | notANumber => cases hay

/-- One is at most another as in the field. -/
@[simp] theorem le_finite : Scalar.le (finite x) (finite y) = true ↔ x ≤ y := by
  simp [Scalar.le, lt, same, le_iff_lt_or_eq]

/-- Two are equal if they are in the field. -/
@[simp] theorem eq_finite : Scalar.eq (finite x) (finite y) = true ↔ x = y := by
  simp [Scalar.eq, same]

/-- A finite number is a number. -/
@[simp] theorem isNaN_finite : Scalar.isNaN (finite x) = false := by
  simp [Scalar.isNaN]

/-- It is not infinite. -/
@[simp] theorem isInfinite_finite : Scalar.isInfinite (finite x) = false := by
  simp [Scalar.isInfinite]

/-- It is finite. -/
@[simp] theorem isFinite_finite : Scalar.isFinite (finite x) = true := by
  simp [Scalar.isFinite]

/-- Nothing else is. -/
theorem isFinite_iff {z : Exact K} : Scalar.isFinite z = true ↔ ∃ x, z = finite x := by
  cases z with
  | finite x => simp
  | infinite s => cases s <;> simp [Scalar.isFinite, Scalar.isNaN, Scalar.isInfinite]
  | notANumber => simp [Scalar.isFinite, Scalar.isNaN]

/-- Infinity is infinite. -/
theorem isInfinite_infinity : Scalar.isInfinite (Scalar.infinity : Exact K) = true := by
  simp [Scalar.isInfinite, Scalar.infinity]

/-! ### Infinities -/

/-- What is no number does not become one by addition. -/
@[simp] theorem notANumber_add (z : Exact K) : notANumber + z = notANumber := by
  cases z <;> rfl

/-- To subtract what is no number yields none. -/
@[simp] theorem sub_notANumber (z : Exact K) : z - notANumber = notANumber := by
  cases z <;> rfl

/-- It compares with nothing. -/
@[simp] theorem lt_notANumber (z : Exact K) : Scalar.lt z notANumber = false := by
  cases z <;> rfl

/-- An infinity absorbs what is added to it, unless there is no sum. -/
theorem infinite_add (s : Bool) (z : Exact K) :
    infinite s + z = infinite s ∨ infinite s + z = notANumber := by
  cases z with
  | finite x => exact .inl rfl
  | infinite t => exact ite_eq_or_eq (s = t) (infinite s) notANumber
  | notANumber => exact .inr rfl

/-- An infinity less itself is no number. -/
@[simp] theorem infinite_sub_self (s : Bool) : (infinite s - infinite s : Exact K) = notANumber := by
  cases s <;> rfl

variable [IsStrictOrderedRing K]

/-- Absolute values are those of the field. -/
@[simp] theorem abs_finite : Scalar.abs (finite x) = finite |x| := by
  show (if lt (finite x) (finite 0) then neg (finite x) else finite x) = _
  by_cases h : x < 0
  · simp [lt, h, neg, abs_of_neg h]
  · simp [lt, h, abs_of_nonneg (not_lt.1 h)]

/-! ### Constants -/

omit [IsStrictOrderedRing K] in
/-- **A decimal literal** is the fraction that it denotes. -/
theorem lit (m : Nat) (e : Nat) :
    (OfScientific.ofScientific m true e : Exact K) = finite ((m : K) / 10 ^ e) := rfl

omit [IsStrictOrderedRing K] in
/-- The literal of zero. -/
@[simp] theorem lit_zero : (0.0 : Exact K) = finite 0 := by
  rw [lit]
  simp

/-- The literal of one. -/
@[simp] theorem lit_one : (1.0 : Exact K) = finite 1 := by
  rw [lit]
  norm_num

/-- The literal of two. -/
@[simp] theorem lit_two : (2.0 : Exact K) = finite 2 := by
  rw [lit]
  norm_num

/-- The literal of three. -/
@[simp] theorem lit_three : (3.0 : Exact K) = finite 3 := by
  rw [lit]
  norm_num

/-- The literal of four. -/
@[simp] theorem lit_four : (4.0 : Exact K) = finite 4 := by
  rw [lit]
  norm_num

/-- The literal of twelve. -/
@[simp] theorem lit_twelve : (12.0 : Exact K) = finite 12 := by
  rw [lit]
  norm_num

/-- The literal of a quarter. -/
@[simp] theorem lit_quarter : (0.25 : Exact K) = finite (1 / 4) := by
  rw [lit]
  norm_num

/-- The literal of a half. -/
@[simp] theorem lit_half : (0.5 : Exact K) = finite (1 / 2) := by
  rw [lit]
  norm_num

end Exact

/-! ### Roots -/

/-- Roots that are roots. -/
class LawfulRoots (K : Type) [Field K] [Roots K] : Prop where
  root?_zero : Roots.root? (0 : K) = some 0
  mul_self_of_root? {x r : K} : Roots.root? x = some r → r * r = x

/-- The rational numbers have the roots that they have. -/
instance : LawfulRoots ℚ where
  root?_zero := by decide +kernel
  mul_self_of_root? := by
    intro q r h
    simp only [Roots.root?] at h
    split at h
    · simp at h
    · next hq =>
      -- The root is found in numerator and denominator, each by itself.
      obtain ⟨m, hm, n, hn, hr⟩ : ∃ m, squareRoot? q.num.natAbs = some m ∧ ∃ n,
          squareRoot? q.den = some n ∧ (m : ℚ) / n = r := by
        simpa [Option.bind_eq_bind, Option.bind_eq_some_iff] using h
      have hnum : (m : ℚ) * m = q.num := by
        have hnonneg : 0 ≤ q.num := Rat.num_nonneg.2 (not_lt.1 hq)
        have hsquare := squareRoot?_spec hm
        have hcast : (m : ℤ) * m = q.num := by
          rw [← Int.natAbs_of_nonneg hnonneg, ← hsquare]
          push_cast
          ring
        exact_mod_cast hcast
      have hden : (n : ℚ) * n = q.den := by exact_mod_cast squareRoot?_spec hn
      rw [← hr, div_mul_div_comm, hnum, hden, Rat.num_div_den]

end Minimization
