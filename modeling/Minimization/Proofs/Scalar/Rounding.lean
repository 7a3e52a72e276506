import Mathlib
import Minimization.Proofs.Scalar.Double

namespace Minimization

/-!
# Rounding doubles

How the arithmetic of doubles rounds, told by magnitudes, which are rational numbers.

* `Double.magnitude`, `Double.Canonical` — magnitudes, and those that need no rounding, which
  compare by their exponents first (`Double.Canonical.lex_le`).
* `Double.Nearby`, `Double.nearby_rounded` — digits are rounded to an integer next to them.
* `Double.Rounds`, `Double.rounds_round` — rounding yields a zero or a canonical magnitude, and
  keeps the sign.
* `Double.Nearby.magnitude_le`, `Double.Nearby.le_magnitude` — rounding does not move a magnitude
  across a canonical one.
-/

namespace Double

open Float.Model Float.Model.UnpackedFloat

/-! ### Magnitudes -/

/-- The magnitude with the digits `m` and the exponent `e`. -/
def magnitude (m : ℕ) (e : ℤ) : ℚ := m * 2 ^ e

/-- The digits and the exponent of a number that has been rounded. -/
structure Canonical (m : ℕ) (e : ℤ) : Prop where
  digits : m < 2 ^ 53
  exponent : -1074 ≤ e
  normal : 2 ^ 52 ≤ m ∨ e = -1074

variable {m n r k : ℕ} {e f t : ℤ}

/-- At the same exponent magnitudes compare by their digits. -/
theorem magnitude_le_iff : magnitude m e ≤ magnitude n e ↔ m ≤ n := by
  unfold magnitude
  rw [mul_le_mul_iff_left₀ (by positivity), Nat.cast_le]

/-- The magnitude of a power of two. -/
theorem magnitude_two_pow (k : ℕ) (e : ℤ) : magnitude (2 ^ k) e = 2 ^ (k + e) := by
  unfold magnitude
  rw [zpow_add₀ two_ne_zero]
  push_cast
  rfl

/-- Digits may be moved into the exponent. -/
theorem magnitude_mul_two_pow (m k : ℕ) (e : ℤ) :
    magnitude (m * 2 ^ k) e = magnitude m (e + k) := by
  unfold magnitude
  rw [zpow_add₀ two_ne_zero, zpow_natCast]
  push_cast
  ring

/-- Digits from a power of two on. -/
theorem two_pow_le_magnitude (hm : 2 ^ k ≤ m) : 2 ^ (k + e) ≤ magnitude m e := by
  rw [← magnitude_two_pow, magnitude_le_iff]
  exact hm

/-- Digits below a power of two. -/
theorem magnitude_lt_two_pow (hm : m < 2 ^ k) : magnitude m e < 2 ^ (k + e) := by
  rw [← magnitude_two_pow, ← not_le, magnitude_le_iff]
  exact not_le.2 hm

/-- Rounded magnitudes compare by their exponents first. -/
theorem Canonical.lex_le (hm : Canonical m e) (hn : Canonical n f)
    (h : magnitude m e ≤ magnitude n f) : toLex (e, (m : ℤ)) ≤ toLex (f, (n : ℤ)) := by
  rw [Prod.Lex.toLex_le_toLex]
  obtain hlt | rfl | hgt := lt_trichotomy e f
  · exact .inl hlt
  · exact .inr ⟨rfl, Nat.cast_le.2 (magnitude_le_iff.1 h)⟩
  · -- With the larger exponent, the digits start at their first place.
    have hfull : 2 ^ 52 ≤ m := hm.normal.resolve_right fun hmin => by
      have := hn.exponent
      omega
    have hpow := ((two_pow_le_magnitude hfull).trans h).trans_lt (magnitude_lt_two_pow hn.digits)
    rw [zpow_lt_zpow_iff_right₀ one_lt_two] at hpow
    push_cast at hpow
    omega

/-! ### Rounding a magnitude -/

/-- The exponent of a number that has been rounded. -/
def target (m : ℕ) (e : ℤ) : ℤ := max (m.log2 + e - 52) (-1074)

/-- The exponent at which a magnitude is rounded. -/
theorem targetExponent_eq (m : ℕ) (e : ℤ) :
    Format.binary64.targetExponent (totalExponent m e) = target m e := by
  have hbits : Format.binary64.mantissaBits = 53 := rfl
  have hmin : Format.binary64.minExponent = -1074 := rfl
  unfold Format.targetExponent totalExponent target
  rw [hbits, hmin]
  omega

/-- A magnitude is rounded no coarser than a canonical one above it is stored. -/
theorem target_le (hm : 0 < m) (hn : Canonical n f) (h : magnitude m e ≤ magnitude n f) :
    target m e ≤ f := by
  have hlog : 2 ^ m.log2 ≤ m := Nat.log2_self_le hm.ne'
  have hpow := ((two_pow_le_magnitude hlog).trans h).trans_lt (magnitude_lt_two_pow hn.digits)
  rw [zpow_lt_zpow_iff_right₀ one_lt_two] at hpow
  have := hn.exponent
  unfold target
  push_cast at hpow
  omega

/-- It is rounded no finer than a canonical one below it is. -/
theorem le_target (hn : Canonical n f) (h : magnitude n f ≤ magnitude m e) : f ≤ target m e := by
  unfold target
  obtain hfull | rfl := hn.normal
  · have hlog : m < 2 ^ (m.log2 + 1) := Nat.lt_log2_self
    have hpow := ((two_pow_le_magnitude hfull).trans h).trans_lt (magnitude_lt_two_pow hlog)
    rw [zpow_lt_zpow_iff_right₀ one_lt_two] at hpow
    push_cast at hpow
    omega
  · exact le_max_right _ _

/-- The digits `r` at the exponent `t` lie next to a magnitude. -/
structure Nearby (m : ℕ) (e : ℤ) (r : ℕ) (t : ℤ) : Prop where
  le : ∀ k : ℕ, magnitude m e ≤ magnitude k t → r ≤ k
  ge : ∀ k : ℕ, magnitude k t ≤ magnitude m e → k ≤ r

/-- Shifting keeps what is left, and knows whether anything was lost. -/
theorem shifted (m : ℕ) (k : ℕ) :
    (ExtendedMantissa.mk m false false >>> k).mantissa = m / 2 ^ k ∧
      (m % 2 ^ k = 0 → (ExtendedMantissa.mk m false false >>> k) = ⟨m / 2 ^ k, false, false⟩) := by
  induction k with
  | zero =>
    have hzero : (ExtendedMantissa.mk m false false >>> 0) = ⟨m, false, false⟩ := rfl
    simp [hzero]
  | succ k ih =>
    -- A shift by one more place is a halving of what has been shifted already.
    have hstep : (ExtendedMantissa.mk m false false >>> (k + 1)) =
        (ExtendedMantissa.mk m false false >>> k).shiftRightOne := rfl
    rw [hstep]
    constructor
    · show (ExtendedMantissa.mk m false false >>> k).mantissa / 2 = _
      rw [ih.1, Nat.div_div_eq_div_mul, pow_succ]
    -- As long as zeros are shifted out, nothing sticks to the rest.
    · intro hmod
      have hdvd : 2 ^ (k + 1) ∣ m := Nat.dvd_of_mod_eq_zero hmod
      have hmod' : m % 2 ^ k = 0 := Nat.mod_eq_zero_of_dvd ((pow_dvd_pow 2 k.le_succ).trans hdvd)
      have heven : m / 2 ^ k % 2 = 0 := by
        obtain ⟨j, rfl⟩ := hdvd
        rw [pow_succ, mul_assoc, Nat.mul_div_cancel_left _ (by positivity), Nat.mul_mod_right]
      rw [ih.2 hmod']
      unfold ExtendedMantissa.shiftRightOne
      simp only [heven, Nat.div_div_eq_div_mul, ← pow_succ]
      rfl

/-- Rounding adds one place at most. -/
theorem rounded_bounds (x : ExtendedMantissa) :
    x.mantissa ≤ x.roundedMantissa ∧ x.roundedMantissa ≤ x.mantissa + 1 := by
  obtain ⟨m, _ | _, _ | _⟩ := x <;>
    simp [ExtendedMantissa.roundedMantissa, ExtendedMantissa.accuracy, Accuracy.roundToNearestEven]
  omega

/-- **Rounding to an integer** moves across none. -/
theorem nearby_rounded (m k : ℕ) (e : ℤ) :
    Nearby m e (ExtendedMantissa.mk m false false >>> k).roundedMantissa (e + k) := by
  obtain ⟨hmantissa, hexact⟩ := shifted m k
  obtain ⟨hge, hle⟩ := rounded_bounds (ExtendedMantissa.mk m false false >>> k)
  rw [hmantissa] at hge hle
  constructor
  · intro j hj
    rw [← magnitude_mul_two_pow, magnitude_le_iff] at hj
    -- If digits are lost the rounded number is one more at most, which is still no further than the next
    -- one.
    obtain hmod | hmod := Nat.eq_zero_or_pos (m % 2 ^ k)
    · rw [hexact hmod]
      exact Nat.div_le_of_le_mul (by rwa [mul_comm])
    · refine hle.trans (Nat.succ_le_of_lt ?_)
      by_contra hlt
      have := Nat.mul_le_mul_right (2 ^ k) (not_lt.1 hlt)
      have := Nat.div_add_mod' m (2 ^ k)
      omega
  · intro j hj
    rw [← magnitude_mul_two_pow, magnitude_le_iff] at hj
    exact ((Nat.le_div_iff_mul_le (by positivity)).2 hj).trans hge

/-- The result of rounding lies next to the magnitude. -/
inductive Rounds (s : Sign) (m : ℕ) (e : ℤ) : UnpackedFloat → Prop
  | zero (h : Nearby m e 0 (target m e)) : Rounds s m e (.zero s)
  | finite {n : ℕ} {f : ℤ} (hpos : 0 < n) (hcanonical : Canonical n f) {r : ℕ}
      (hnear : Nearby m e r (target m e)) (hsame : magnitude n f = magnitude r (target m e)) :
      Rounds s m e (.finite s n f hpos)

/-- How a magnitude is rounded does not depend on how it is written. -/
theorem Rounds.congr {s : Sign} {u : UnpackedFloat} (h : Rounds s m e u)
    (hmagnitude : magnitude m e = magnitude n f) (htarget : target m e = target n f) :
    Rounds s n f u := by
  have hnearby {r : ℕ} (hr : Nearby m e r (target m e)) : Nearby n f r (target n f) := by
    obtain ⟨hle, hge⟩ := hr
    rw [hmagnitude, htarget] at hle hge
    exact ⟨hle, hge⟩
  cases h with
  | zero h => exact .zero (hnearby h)
  | finite hpos hcanonical hnear hsame =>
    exact .finite hpos hcanonical (hnearby hnear) (htarget ▸ hsame)

/-- Rounded digits are full at most. -/
theorem Nearby.le_full (h : Nearby m e r (target m e)) : r ≤ 2 ^ 53 := by
  refine h.le _ ?_
  rw [magnitude_two_pow]
  refine (magnitude_lt_two_pow Nat.lt_log2_self).le.trans ?_
  refine zpow_le_zpow_right₀ one_le_two ?_
  unfold target
  push_cast
  omega

/-- They have all their places, unless the exponent is the least. -/
theorem Nearby.normal (h : Nearby m e r (target m e)) (hm : 0 < m) :
    2 ^ 52 ≤ r ∨ target m e = -1074 := by
  by_cases hmin : target m e = -1074
  · exact .inr hmin
  · refine .inl (h.ge _ ?_)
    rw [magnitude_two_pow]
    refine le_trans (zpow_le_zpow_right₀ one_le_two ?_)
      (two_pow_le_magnitude (Nat.log2_self_le hm.ne'))
    unfold target at hmin ⊢
    push_cast
    omega

/-- To round is to shift by the difference of the exponents. -/
theorem shiftToTargetExponent_eq (m : ℕ) (e : ℤ) :
    shiftToTargetExponent .binary64 m e .exact =
      (ExtendedMantissa.mk m false false >>> (target m e - e).toNat, e + (target m e - e).toNat) := by
  unfold shiftToTargetExponent
  rw [targetExponent_eq]
  rfl

/-- No magnitude is rounded below the least exponent. -/
theorem neg_le_target (m : ℕ) (e : ℤ) : -1074 ≤ target m e := le_max_right _ _

/-- Digits that fit stay where they are. -/
theorem shifted_of_lt (hr : r < 2 ^ 53) (ht : -1074 ≤ t) :
    shiftToTargetExponent .binary64 r t .exact = (⟨r, false, false⟩, t) := by
  have hlog : r.log2 < 53 := by
    obtain rfl | hpos := Nat.eq_zero_or_pos r
    · decide
    · exact (Nat.log2_lt hpos.ne').2 hr
  have hle : target r t ≤ t := by
    unfold target
    omega
  have hstay : (target r t - t).toNat = 0 := by omega
  rw [shiftToTargetExponent_eq, hstay]
  exact congrArg (Prod.mk _) (add_zero t)

/-- Digits that have grown by one place are shifted once more. -/
theorem shifted_of_full (ht : -1074 ≤ t) :
    shiftToTargetExponent .binary64 (2 ^ 53) t .exact = (⟨2 ^ 52, false, false⟩, t + 1) := by
  have hnext : (target (2 ^ 53) t - t).toNat = 1 := by
    unfold target
    rw [Nat.log2_two_pow]
    omega
  rw [shiftToTargetExponent_eq, hnext]
  rfl

/-- **To round a magnitude** yields a neighbour of it. -/
theorem rounds_roundWithAccuracy (s : Sign) (hm : 0 < m) (he : e ≤ target m e) :
    Rounds s m e (roundWithAccuracy .binary64 s m e .exact) := by
  have hmin := neg_le_target m e
  have hexponent : e + (target m e - e).toNat = target m e := by omega
  have hnear := nearby_rounded m (target m e - e).toNat e
  rw [hexponent] at hnear
  unfold roundWithAccuracy
  rw [shiftToTargetExponent_eq, hexponent]
  dsimp only
  generalize ExtendedMantissa.roundedMantissa _ = r at hnear ⊢
  obtain hlt | rfl := hnear.le_full.lt_or_eq
  · rw [shifted_of_lt hlt hmin]
    split
    · next hzero =>
      obtain rfl : r = 0 := hzero
      exact .zero hnear
    · next hne => exact .finite _ ⟨hlt, hmin, hnear.normal hm⟩ hnear rfl
  · -- Rounding up may have given the digits another place.
    rw [shifted_of_full hmin]
    refine .finite _ ⟨by norm_num, by omega, .inl le_rfl⟩ hnear ?_
    rw [magnitude_two_pow, magnitude_two_pow]
    congr 1
    push_cast
    ring

/-- **Rounding** yields zero, or digits and an exponent that fit, with the given sign. -/
theorem rounds_round (s : Sign) (hm : 0 < m) (e : ℤ) :
    Rounds s m e (UnpackedFloat.round .binary64 s m e) := by
  unfold UnpackedFloat.round
  rw [targetExponent_eq]
  -- The exponent is made small enough first, which changes neither the magnitude nor its target.
  set d := (e - target m e).toNat with hd
  have hdown : decreaseExponent m e (target m e) = (m * 2 ^ d, e - d) := by
    unfold decreaseExponent
    dsimp only
    rw [Nat.shiftLeft_eq]
  have hlog : (m * 2 ^ d).log2 = m.log2 + d := by
    rw [Nat.log2_eq_iff (by positivity), pow_add, add_right_comm, pow_add]
    exact ⟨Nat.mul_le_mul_right _ (Nat.log2_self_le hm.ne'),
      Nat.mul_lt_mul_of_pos_right Nat.lt_log2_self (by positivity)⟩
  have htarget : target (m * 2 ^ d) (e - d) = target m e := by
    unfold target
    rw [hlog]
    push_cast
    omega
  have hmagnitude : magnitude (m * 2 ^ d) (e - d) = magnitude m e := by
    rw [magnitude_mul_two_pow, sub_add_cancel]
  have hrounds := rounds_roundWithAccuracy (e := e - d) s (by positivity : 0 < m * 2 ^ d) (by omega)
  dsimp only
  rw [hdown]
  exact hrounds.congr hmagnitude htarget

/-- **Rounding does not move across a number**: what lies below one is rounded to something below
    it. -/
theorem Nearby.magnitude_le (h : Nearby m e r (target m e)) (hm : 0 < m) (hn : Canonical n f)
    (hle : magnitude m e ≤ magnitude n f) : magnitude r (target m e) ≤ magnitude n f := by
  have ht := target_le hm hn hle
  have hshift : magnitude n f = magnitude (n * 2 ^ (f - target m e).toNat) (target m e) := by
    rw [magnitude_mul_two_pow]
    congr 1
    omega
  rw [hshift] at hle ⊢
  exact magnitude_le_iff.2 (h.le _ hle)

/-- What lies above a number is rounded to something above it. -/
theorem Nearby.le_magnitude (h : Nearby m e r (target m e)) (hm : 0 < m) (hn : Canonical n f)
    (hle : magnitude n f ≤ magnitude m e) : magnitude n f ≤ magnitude r (target m e) := by
  obtain rfl | hlt := (le_target hn hle).eq_or_lt
  · exact magnitude_le_iff.2 (h.ge _ hle)
  · -- The exponent is larger, and the digits start at their first place.
    have hfull : 2 ^ 52 ≤ r := (h.normal hm).resolve_right fun hmin => by
      have := hn.exponent
      omega
    calc magnitude n f ≤ 2 ^ ((53 : ℕ) + f) := (magnitude_lt_two_pow hn.digits).le
      _ ≤ 2 ^ ((52 : ℕ) + target m e) := zpow_le_zpow_right₀ one_le_two (by push_cast; omega)
      _ ≤ magnitude r (target m e) := two_pow_le_magnitude hfull

end Double

end Minimization
