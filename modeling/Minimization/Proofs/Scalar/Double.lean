import Mathlib
import Minimization.Proofs.Scalar.Order
import Minimization.Scalar.Double

namespace Minimization

/-!
# The order of doubles

* `Double.rank` — the place of a double on the line, by which it compares (`Double.lt_iff_rank`,
  `Double.le_iff_rank`).

Doubles are ordered in the sense of `Scalar.Ordered`, and floored in that of `Scalar.Floored`.
-/

namespace Double

open Float.Model

/-- The place of a number on the line: its sign, its exponent, its digits.  The infinities lie
    beyond all finite numbers, and both zeros in one place. -/
def rank : UnpackedFloat → Lex (Int × Lex (Int × Int))
  | .infinity .positive => toLex (2, toLex (0, 0))
  | .infinity .negative => toLex (-2, toLex (0, 0))
  | .finite .positive m e _ => toLex (1, toLex (e, m))
  | .finite .negative m e _ => toLex (-1, toLex (-e, -m))
  | _ => toLex (0, toLex (0, 0))

/-- A number is below another one if its place is. -/
theorem lt_iff_rank (a b : UnpackedFloat) :
    a.lt b = true ↔ a.isNaN = false ∧ b.isNaN = false ∧ rank a < rank b := by
  unfold UnpackedFloat.lt
  -- Only the comparison of two finite numbers of one sign looks at exponents and digits.
  rcases a with ⟨_ | _⟩ | _ | ⟨_ | _⟩ | ⟨_ | _, m, e, _⟩ <;>
    rcases b with ⟨_ | _⟩ | _ | ⟨_ | _⟩ | ⟨_ | _, n, f, _⟩ <;>
    simp [UnpackedFloat.compare, rank, UnpackedFloat.isNaN, Prod.Lex.toLex_lt_toLex]
  case infinity.negative.infinity.positive => rfl
  case finite.negative.finite.negative =>
    rw [Ordering.then_eq_gt, compare_gt_iff_gt, compare_gt_iff_gt, compare_eq_iff_eq]
  case finite.positive.finite.positive =>
    rw [Ordering.then_eq_lt, compare_lt_iff_lt, compare_lt_iff_lt, compare_eq_iff_eq]

/-- A lexicographic comparison. -/
theorem isGE_then (o o' : Ordering) :
    (o.then o').isGE = true ↔ o = .gt ∨ (o = .eq ∧ o'.isGE = true) := by
  cases o <;> simp

/-- A number is at most another one if its place is. -/
theorem le_iff_rank (a b : UnpackedFloat) :
    a.le b = true ↔ a.isNaN = false ∧ b.isNaN = false ∧ rank a ≤ rank b := by
  unfold UnpackedFloat.le
  rcases a with ⟨_ | _⟩ | _ | ⟨_ | _⟩ | ⟨_ | _, m, e, _⟩ <;>
    rcases b with ⟨_ | _⟩ | _ | ⟨_ | _⟩ | ⟨_ | _, n, f, _⟩ <;>
    simp [UnpackedFloat.compare, rank, UnpackedFloat.isNaN, Prod.Lex.toLex_le_toLex]
  case infinity.negative.infinity.negative => rfl
  case infinity.negative.infinity.positive => rfl
  case infinity.positive.infinity.negative => rfl
  case infinity.positive.infinity.positive => rfl
  case finite.negative.finite.negative =>
    rw [isGE_then, compare_gt_iff_gt, compare_eq_iff_eq, Nat.isGE_compare]
  case finite.positive.finite.positive =>
    rw [Ordering.isLE_then_iff_or, compare_lt_iff_lt, compare_eq_iff_eq, Nat.isLE_compare]

/-- Numbers compare as their parts do. -/
theorem lt_eq (x y : Double) :
    Scalar.lt x y = x.value.toModel.unpack.lt y.value.toModel.unpack := by
  show decide (decide (_ = true) = true) = _
  rw [Bool.decide_eq_true, Bool.decide_eq_true]
  rfl

/-- So that one is below another if its place is. -/
theorem lt_iff (x y : Double) : Scalar.lt x y = true ↔
    Scalar.isNaN x = false ∧ Scalar.isNaN y = false ∧
      rank x.value.toModel.unpack < rank y.value.toModel.unpack := by
  rw [lt_eq]
  exact lt_iff_rank _ _

/-- It is at most the other if its place is at most that of the other. -/
theorem le_iff (x y : Double) : Scalar.le x y = true ↔
    Scalar.isNaN x = false ∧ Scalar.isNaN y = false ∧
      rank x.value.toModel.unpack ≤ rank y.value.toModel.unpack := by
  have hle : Scalar.le x y = x.value.toModel.unpack.le y.value.toModel.unpack := by
    show decide (decide (_ = true) = true) = _
    rw [Bool.decide_eq_true, Bool.decide_eq_true]
    rfl
  rw [hle]
  exact le_iff_rank _ _

/-- No number lies beyond infinity. -/
theorem rank_le_infinity (a : UnpackedFloat) : rank a ≤ rank (.infinity .positive) := by
  rcases a with ⟨_ | _⟩ | _ | ⟨_ | _⟩ | ⟨_ | _, m, e, _⟩ <;>
    simp [rank, Prod.Lex.toLex_le_toLex]

/-- No number lies before minus infinity. -/
theorem neg_infinity_le_rank (a : UnpackedFloat) : rank (.infinity .negative) ≤ rank a := by
  rcases a with ⟨_ | _⟩ | _ | ⟨_ | _⟩ | ⟨_ | _, m, e, _⟩ <;>
    simp [rank, Prod.Lex.toLex_le_toLex]

/-- Only the negative infinity lies below all numbers. -/
theorem eq_of_rank_le_infinity {a : UnpackedFloat} (h : rank a ≤ rank (.infinity .negative)) :
    a = .infinity .negative := by
  rcases a with ⟨_ | _⟩ | _ | ⟨_ | _⟩ | ⟨_ | _, m, e, _⟩ <;>
    simp_all [rank, Prod.Lex.toLex_le_toLex]

/-- Infinity is stored as itself. -/
theorem unpack_infinity :
    (Scalar.infinity : Double).value.toModel.unpack = .infinity .positive := by
  rfl

/-- So is minus infinity. -/
theorem unpack_neg_infinity :
    (-Scalar.infinity : Double).value.toModel.unpack = .infinity .negative := by
  rfl

end Double

/-- **Numbers of the machine are ordered**, because their places are. -/
instance : Scalar.Ordered Double where
  isNaN_of_lt h := by
    obtain ⟨hx, hy, -⟩ := (Double.lt_iff _ _).1 h
    exact ⟨hx, hy⟩
  lt_asymm := by
    intro x y h
    obtain ⟨-, -, h⟩ := (Double.lt_iff x y).1 h
    rw [Bool.eq_false_iff, ne_eq, Double.lt_iff]
    rintro ⟨-, -, h'⟩
    exact lt_asymm h h'
  lt_of_lt_of_not_lt := by
    intro x y z hxy hz hzy
    obtain ⟨hx, hy, hxy⟩ := (Double.lt_iff x y).1 hxy
    rw [Bool.eq_false_iff, ne_eq, Double.lt_iff] at hzy
    refine (Double.lt_iff x z).2 ⟨hx, hz, lt_of_lt_of_le hxy ?_⟩
    exact not_lt.1 fun h => hzy ⟨hz, hy, h⟩
  le_iff := by
    intro x y
    rw [Double.le_iff, ← Bool.not_eq_true (Scalar.lt y x), Double.lt_iff]
    constructor
    · rintro ⟨hx, hy, h⟩
      exact ⟨hx, hy, fun ⟨_, _, h'⟩ => absurd h (not_le.2 h')⟩
    · rintro ⟨hx, hy, h⟩
      exact ⟨hx, hy, not_lt.1 fun h' => h ⟨hy, hx, h'⟩⟩
  isNaN_infinity := by decide +kernel
  not_infinity_lt x := by
    rw [Bool.eq_false_iff, ne_eq, Double.lt_iff, Double.unpack_infinity]
    rintro ⟨-, -, h⟩
    exact absurd h (not_lt.2 (Double.rank_le_infinity _))

/-- Only an infinity is at most minus infinity. -/
instance : Scalar.Floored Double where
  isInfinite_infinity := by
    show (Scalar.infinity : Double).value.toModel.unpack.isInf = true
    rw [Double.unpack_infinity]
    rfl
  isInfinite_of_le := by
    intro x h
    obtain ⟨-, -, hrank⟩ := (Double.le_iff _ _).1 h
    rw [Double.unpack_neg_infinity] at hrank
    show x.value.toModel.unpack.isInf = true
    rw [Double.eq_of_rank_le_infinity hrank]
    rfl

end Minimization
