import Mathlib
import Minimization.Proofs.Scalar.Packing
import Minimization.Proofs.Scalar.Signed

namespace Minimization

/-!
# Sums and products of doubles

Doubles are signed in the sense of `Scalar.Signed`: rounding, overflow and signed zeros do not turn
signs around, and a sum with what is not above zero is not above the other summand.  A sum with what
is not a number is not one either, as `Scalar.Absorbing` asks.

* `Double.below_add`, `Double.below_mul`, `Double.above_mul` — the signs of sums and products.
* `Double.rank_add_le` — a sum with what is not above zero.
-/

namespace Double

open Float.Model Float.Model.UnpackedFloat

variable {m n : ℕ} {e f : ℤ} {u v : UnpackedFloat} {s : Sign}

/-- A positive magnitude is not rounded to a negative number. -/
theorem Rounds.not_below (h : Rounds .positive m e u) : below u = false := by
  cases h <;> rfl

/-- A negative one is not rounded to a positive number. -/
theorem Rounds.not_above (h : Rounds .negative m e u) : above u = false := by
  cases h <;> rfl

/-! ### Sums -/

/-- **A sum of digits** keeps its sign, and zero is positive. -/
theorem normalize_cases (z : ℤ) (e : ℤ) :
    (0 < z ∧ Rounds .positive z.toNat e (UnpackedFloat.normalize .binary64 z e .positive)) ∨
    (z = 0 ∧ UnpackedFloat.normalize .binary64 z e .positive = .zero .positive) ∨
    (z < 0 ∧ Rounds .negative (-z).toNat e (UnpackedFloat.normalize .binary64 z e .positive)) := by
  unfold UnpackedFloat.normalize
  obtain hneg | rfl | hpos := lt_trichotomy z 0
  · refine .inr (.inr ⟨hneg, ?_⟩)
    rw [Int.compare_eq_lt.2 hneg]
    exact rounds_round .negative (by omega) e
  · exact .inr (.inl ⟨rfl, rfl⟩)
  · refine .inl ⟨hpos, ?_⟩
    rw [Int.compare_eq_gt.2 hpos]
    exact rounds_round .positive (by omega) e

/-- Finite numbers are added at the smaller exponent. -/
theorem add_finite {s₁ s₂ : Sign} (hm : 0 < m) (hn : 0 < n) :
    UnpackedFloat.add .binary64 (.finite s₁ m e hm) (.finite s₂ n f hn) =
      UnpackedFloat.normalize .binary64 (s₁.apply ((m * 2 ^ (e - min e f).toNat : ℕ) : ℤ) +
        s₂.apply ((n * 2 ^ (f - min e f).toNat : ℕ) : ℤ)) (min e f) .positive := by
  unfold UnpackedFloat.add decreaseExponent
  simp only [Nat.shiftLeft_eq]

/-- What has been normalized can be packed. -/
theorem fits_normalize (z : ℤ) (e : ℤ) :
    Fits (UnpackedFloat.normalize .binary64 z e .positive) := by
  obtain ⟨-, h⟩ | ⟨-, h⟩ | ⟨-, h⟩ := normalize_cases z e
  · exact h.fits
  · rw [h]
    trivial
  · exact h.fits

/-- So can a sum. -/
theorem fits_add (hu : Fits u) (hv : Fits v) : Fits (UnpackedFloat.add .binary64 u v) := by
  cases u with
  | notANumber => cases v <;> trivial
  | infinity s =>
    cases v with
    | infinity t => cases s <;> cases t <;> trivial
    | _ => trivial
  | zero s =>
    cases v with
    | zero t => cases s <;> cases t <;> trivial
    | finite => exact hv
    | _ => trivial
  | finite s m e hm =>
    cases v with
    -- Only two finite numbers need rounding.
    | finite t n f hn =>
      rw [add_finite]
      exact fits_normalize _ _
    | zero => exact hu
    | _ => trivial

/-- The sum of two numbers that are not below zero is not below zero. -/
theorem below_add (hu : below u = false) (hv : below v = false) :
    below (UnpackedFloat.add .binary64 u v) = false := by
  rcases u with (_ | _) | _ | (_ | _) | ⟨_ | _, m, e, hm⟩ <;> try cases hu
  all_goals rcases v with (_ | _) | _ | (_ | _) | ⟨_ | _, n, f, hn⟩ <;> try cases hv
  all_goals try rfl
  -- Only two finite numbers are rounded.
  rw [add_finite]
  obtain ⟨-, h⟩ | ⟨-, h⟩ | ⟨hneg, -⟩ := normalize_cases (Sign.positive.apply
    ((m * 2 ^ (e - min e f).toNat : ℕ) : ℤ) + Sign.positive.apply
      ((n * 2 ^ (f - min e f).toNat : ℕ) : ℤ)) (min e f)
  · exact h.not_below
  · rw [h]
    rfl
  · exact absurd hneg (not_lt.2 (add_nonneg (Int.natCast_nonneg _) (Int.natCast_nonneg _)))

/-! ### Sums with what is not above zero -/

/-- A number that is not above zero is at most one that is not below it. -/
theorem rank_le_of_signs (hu : above u = false) (hv : below v = false) : rank u ≤ rank v := by
  rcases u with ⟨_ | _⟩ | _ | _ | ⟨_ | _, m, e, hm⟩ <;> try cases hu
  all_goals rcases v with ⟨_ | _⟩ | _ | _ | ⟨_ | _, n, f, hn⟩ <;> try cases hv
  all_goals simp [rank, Prod.Lex.toLex_le_toLex]

/-- What is rounded from below a number is stored below it. -/
theorem Rounds.rank_le_positive (h : Rounds .positive m e u) (hm : 0 < m) (hn : 0 < n)
    (hc : Canonical n f) (hf : f ≤ 971) (hle : magnitude m e ≤ magnitude n f) :
    rank (Float.Model.pack u).unpack ≤ rank (.finite .positive n f hn) := by
  cases h with
  | zero => exact rank_le_of_signs rfl rfl
  | @finite k g hpos hcanonical r hnear hsame =>
    -- The rounded number is canonical, so that its exponent and its digits can be compared in this
    -- order.
    have hlex := hcanonical.lex_le hc (hsame.trans_le (hnear.magnitude_le hm hc hle))
    have hg : g ≤ f := by
      rw [Prod.Lex.toLex_le_toLex] at hlex
      dsimp only at hlex
      omega
    obtain h | ⟨_, _, _, _, heq, hlarge, -⟩ :=
      unpack_pack (u := .finite .positive k g hpos) hcanonical
    · rw [h]
      simpa [rank, Prod.Lex.toLex_le_toLex] using hlex
    · injection heq
      omega

/-- What is rounded from above a number is stored above it; below zero it is the other way
    around. -/
theorem Rounds.rank_le_negative (h : Rounds .negative m e u) (hm : 0 < m) (hn : 0 < n)
    (hc : Canonical n f) (hle : magnitude n f ≤ magnitude m e) :
    rank (Float.Model.pack u).unpack ≤ rank (.finite .negative n f hn) := by
  cases h with
  | zero hnear =>
    have hzero : magnitude 0 (target m e) < magnitude n f := by
      unfold magnitude
      rw [Nat.cast_zero, zero_mul]
      positivity
    -- A number this large is not rounded to zero.
    exact absurd (hnear.le_magnitude hm hc hle) (not_le.2 hzero)
  | @finite k g hpos hcanonical r hnear hsame =>
    have hlex := hc.lex_le hcanonical ((hnear.le_magnitude hm hc hle).trans_eq hsame.symm)
    obtain h | ⟨_, _, _, _, heq, -, h⟩ := unpack_pack (u := .finite .negative k g hpos) hcanonical
    · rw [Prod.Lex.toLex_le_toLex] at hlex
      rw [h]
      simp only [rank, Prod.Lex.toLex_le_toLex, lt_irrefl, true_and, false_or]
      dsimp only at hlex ⊢
      omega
    · injection heq with hs
      rw [h, ← hs]
      simp [rank, Prod.Lex.toLex_le_toLex]

/-- The sum of two finite numbers, the second of which is below zero, is not above the first. -/
theorem rank_add_finite_le (hm : 0 < m) (hn : 0 < n) (hc : Canonical m e) (he : e ≤ 971) :
    rank (Float.Model.pack (UnpackedFloat.add .binary64 (.finite s m e hm)
      (.finite .negative n f hn))).unpack ≤ rank (.finite s m e hm) := by
  rw [add_finite]
  -- Both are written with the lower of the two exponents, so that the sum is one of integers.
  set a := m * 2 ^ (e - min e f).toNat with ha
  set b := n * 2 ^ (f - min e f).toNat with hb
  have hmagnitude : magnitude a (min e f) = magnitude m e := by
    rw [ha, magnitude_mul_two_pow]
    congr 1
    omega
  have hfits := fits_normalize (s.apply (a : ℤ) + Sign.negative.apply (b : ℤ)) (min e f)
  have hbpos : 0 < b := by positivity
  cases s with
  | positive =>
    have hsum : Sign.positive.apply (a : ℤ) + Sign.negative.apply (b : ℤ) = a - b := rfl
    rw [hsum] at hfits ⊢
    -- The difference may have either sign.
    obtain ⟨hpos, h⟩ | ⟨-, h⟩ | ⟨-, h⟩ := normalize_cases ((a : ℤ) - b) (min e f)
    · refine h.rank_le_positive (by omega) hm hc he (hmagnitude ▸ magnitude_le_iff.2 ?_)
      omega
    · rw [h]
      exact rank_le_of_signs rfl rfl
    · exact rank_le_of_signs ((above_unpack_pack hfits).trans h.not_above) rfl
  | negative =>
    have hsum : Sign.negative.apply (a : ℤ) + Sign.negative.apply (b : ℤ) = -a + -b := rfl
    rw [hsum]
    -- The sum of two negative numbers is negative.
    obtain ⟨hpos, -⟩ | ⟨hzero, -⟩ | ⟨-, h⟩ := normalize_cases (-(a : ℤ) + -b) (min e f)
    · omega
    · omega
    · refine h.rank_le_negative (by omega) hm hc (hmagnitude ▸ magnitude_le_iff.2 ?_)
      omega

/-- **What is not above zero raises nothing that it is added to.** -/
theorem rank_add_le (hu : Stored u) (hv : Fits v) (hsign : above v = false)
    (hnumber : (UnpackedFloat.add .binary64 u v).isNaN = false) : u.isNaN = false ∧
      rank (Float.Model.pack (UnpackedFloat.add .binary64 u v)).unpack ≤ rank u := by
  -- An infinite summand decides the sum; two of different sign would give no number.
  cases u with
  | notANumber => cases v <;> cases hnumber
  | infinity s =>
    refine ⟨rfl, ?_⟩
    cases v with
    | notANumber => cases hnumber
    | infinity t =>
      cases t with
      | positive => cases hsign
      | negative =>
        cases s with
        | positive => cases hnumber
        | negative => exact neg_infinity_le_rank _
    | zero t => exact (congrArg rank (Stored.unpack_pack hu)).le
    | finite t n f hn => exact (congrArg rank (Stored.unpack_pack hu)).le
  | zero s =>
    refine ⟨rfl, rank_le_of_signs ?_ rfl⟩
    rw [above_unpack_pack (fits_add hu.fits hv)]
    cases v with
    | notANumber => rfl
    | infinity t => exact hsign
    | zero t => cases s <;> cases t <;> rfl
    | finite => exact hsign
  | finite s m e hm =>
    refine ⟨rfl, ?_⟩
    cases v with
    | notANumber => cases hnumber
    | infinity t =>
      cases t with
      | positive => cases hsign
      | negative =>
        have hsame : UnpackedFloat.add .binary64 (.finite s m e hm) (.infinity .negative) =
            .infinity .negative := rfl
        rw [hsame, Stored.unpack_pack (u := .infinity .negative) trivial]
        exact neg_infinity_le_rank _
    | zero t =>
      exact (congrArg rank (Stored.unpack_pack hu)).le
    | finite t n f hn =>
      cases t with
      | positive => cases hsign
      | negative => exact rank_add_finite_le hm hn hu.1 hu.2

/-! ### Products -/

/-- Finite numbers are multiplied without loss before they are rounded. -/
theorem rounds_mul (s : Sign) (hm : 0 < m) (hn : 0 < n) (hc : Canonical m e) (hc' : Canonical n f) :
    Rounds s (m * n) (e + f) (roundWithAccuracy .binary64 s (m * n) (e + f) .exact) := by
  refine rounds_roundWithAccuracy s (by positivity) ?_
  unfold target
  by_cases hfull : 2 ^ 52 ≤ m * n
  · have hlog := (Nat.le_log2 (by positivity)).2 hfull
    omega
  · -- Neither factor has all of its digits, so both have the smallest exponent.
    have hm' : ¬ 2 ^ 52 ≤ m := fun h => hfull (h.trans (Nat.le_mul_of_pos_right m hn))
    have hn' : ¬ 2 ^ 52 ≤ n := fun h => hfull (h.trans (Nat.le_mul_of_pos_left n hm))
    obtain rfl := hc.normal.resolve_left hm'
    obtain rfl := hc'.normal.resolve_left hn'
    omega

/-- So can a product. -/
theorem fits_mul (hu : Fits u) (hv : Fits v) : Fits (UnpackedFloat.mul .binary64 u v) := by
  cases u with
  | finite s m e hm =>
    cases v with
    | finite t n f hn => exact (rounds_mul (s * t) hm hn hu hv).fits
    | _ => trivial
  | _ => cases v <;> trivial

/-- The product of two numbers that are not below zero is not below zero. -/
theorem below_mul (hu : Fits u) (hv : Fits v) (hsign : below u = false) (hsign' : below v = false) :
    below (UnpackedFloat.mul .binary64 u v) = false := by
  rcases u with ⟨_ | _⟩ | _ | _ | ⟨_ | _, m, e, hm⟩ <;> try cases hsign
  all_goals rcases v with ⟨_ | _⟩ | _ | _ | ⟨_ | _, n, f, hn⟩ <;> try cases hsign'
  all_goals try rfl
  exact (rounds_mul .positive hm hn hu hv).not_below

/-- The product with a number below zero is not above zero. -/
theorem above_mul (hu : Fits u) (hv : Fits v) (hsign : below u = false) (hsign' : below v = true) :
    above (UnpackedFloat.mul .binary64 u v) = false := by
  rcases u with ⟨_ | _⟩ | _ | _ | ⟨_ | _, m, e, hm⟩ <;> try cases hsign
  all_goals rcases v with ⟨_ | _⟩ | _ | _ | ⟨_ | _, n, f, hn⟩ <;> try cases hsign'
  all_goals try rfl
  exact (rounds_mul .negative hm hn hu hv).not_above

/-! ### Doubles -/

/-- Two numbers are combined as the machine does it. -/
theorem value_combine (f : Float → Float → Float) (x y : Double) :
    (combine f x y).value = f x.value y.value := by
  unfold combine
  dsimp only
  split
  · rfl
  · split <;> rfl

/-- A sum is packed and read again. -/
theorem unpack_add (x y : Double) : (x + y).value.toModel.unpack = (Float.Model.pack
    (UnpackedFloat.add .binary64 x.value.toModel.unpack y.value.toModel.unpack)).unpack :=
  congrArg (·.toModel.unpack) (value_combine (· + ·) x y)

/-- So is a product. -/
theorem unpack_mul (x y : Double) : (x * y).value.toModel.unpack = (Float.Model.pack
    (UnpackedFloat.mul .binary64 x.value.toModel.unpack y.value.toModel.unpack)).unpack :=
  congrArg (·.toModel.unpack) (value_combine (· * ·) x y)

/-- Zero is stored as itself. -/
theorem unpack_zero : (0.0 : Double).value.toModel.unpack = .zero .positive := by
  rfl

/-- Below zero are the negative numbers. -/
theorem lt_zero_eq (x : Double) : Scalar.lt x 0.0 = below x.value.toModel.unpack := by
  rw [lt_eq, unpack_zero]
  rcases x.value.toModel.unpack with ⟨_ | _⟩ | _ | _ | ⟨_ | _, m, e, hm⟩ <;> rfl

/-- Above zero are the positive numbers. -/
theorem zero_lt_eq (x : Double) : Scalar.lt 0.0 x = above x.value.toModel.unpack := by
  rw [lt_eq, unpack_zero]
  rcases x.value.toModel.unpack with ⟨_ | _⟩ | _ | _ | ⟨_ | _, m, e, hm⟩ <;> rfl

/-- Every number that is stored can be packed again. -/
theorem fits_value (x : Double) : Fits x.value.toModel.unpack := (stored_unpack _).fits

end Double

open Double Float.Model in
/-- **Numbers of the machine** keep to the rules of signs, because rounding does. -/
instance : Scalar.Signed Double where
  zero_lt_one := by decide +kernel
  two_nonneg := by decide +kernel
  half_nonneg := by decide +kernel
  add_nonneg {x y} hx hy := by
    rw [lt_zero_eq] at hx hy ⊢
    rw [unpack_add, below_unpack_pack (fits_add (fits_value x) (fits_value y))]
    exact below_add hx hy
  mul_nonneg {x y} hx hy := by
    rw [lt_zero_eq] at hx hy ⊢
    rw [unpack_mul, below_unpack_pack (fits_mul (fits_value x) (fits_value y))]
    exact below_mul (fits_value x) (fits_value y) hx hy
  mul_nonpos {x y} hx hy := by
    rw [lt_zero_eq] at hx hy
    rw [zero_lt_eq, unpack_mul, above_unpack_pack (fits_mul (fits_value x) (fits_value y))]
    exact above_mul (fits_value x) (fits_value y) hx hy
  le_of_le_add {x y z} hy h := by
    rw [zero_lt_eq] at hy
    obtain ⟨hz, hnumber, hrank⟩ := (le_iff _ _).1 h
    have hfits := fits_add (fits_value x) (fits_value y)
    have hsum : (UnpackedFloat.add .binary64 x.value.toModel.unpack y.value.toModel.unpack).isNaN =
        false := by
      rw [← isNaN_unpack_pack hfits, ← unpack_add]
      exact hnumber
    obtain ⟨hx, hle⟩ := rank_add_le (stored_unpack _) (fits_value y) hy hsum
    rw [unpack_add] at hrank
    exact (le_iff z x).2 ⟨hz, hx, hrank.trans hle⟩

open Double Float.Model in
/-- What is no number does not become one by addition. -/
instance : Scalar.Absorbing Double where
  isNaN_add {x y} hx := by
    have hfits := fits_add (fits_value x) (fits_value y)
    have hnan : x.value.toModel.unpack.isNaN = true := hx
    show (x + y).value.toModel.unpack.isNaN = true
    rw [unpack_add, isNaN_unpack_pack hfits]
    cases hu : x.value.toModel.unpack <;> rw [hu] at hnan <;> first | rfl | cases hnan

end Minimization
