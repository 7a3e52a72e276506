import Mathlib
import Minimization.Proofs.Scalar.Rounding

namespace Minimization

/-!
# Packing doubles

What is rounded is stored as it is, unless it is too large.

* `Double.Fits`, `Double.Stored` — numbers that operations yield, and numbers that can be stored.
* `Double.unpack_pack`, `Double.stored_unpack` — storing and reading.
* `Double.below`, `Double.above` — the sign of a number, which storing keeps.
-/

namespace Double

open Float.Model Float.Model.UnpackedFloat

variable {m n : ℕ} {e f : ℤ}

/-! ### Storing and reading -/

/-- The numbers that operations yield before they are packed. -/
def Fits : UnpackedFloat → Prop
  | .finite _ m e _ => Canonical m e
  | _ => True

/-- What rounding yields can be packed. -/
theorem Rounds.fits {s : Sign} {u : UnpackedFloat} (h : Rounds s m e u) : Fits u := by
  cases h with
  | zero => trivial
  | finite _ hcanonical => exact hcanonical

/-- The sign is read as it was written. -/
theorem unpackSign_packComponents (spec : Format) (s : Sign) (exponent : BitVec spec.exponentBits)
    (mantissa : BitVec spec.mantissaBitsWithoutImplicit) :
    Sign.ofBitVec (unpackSign (packComponents spec s exponent mantissa)) = s := by
  have hsign : unpackSign (packComponents spec s exponent mantissa) = s.toBitVec := by
    refine BitVec.eq_of_getLsbD_eq fun i hi => ?_
    obtain rfl : i = 0 := by omega
    simp [unpackSign, packComponents, BitVec.getLsbD_append, BitVec.getElem_append]
  rw [hsign]
  cases s <;> rfl

/-- The first digit is not written down. -/
theorem implicit_digits (v : BitVec 52) : (1#1 ++ v).toNat = 2 ^ 52 + v.toNat := by
  rw [BitVec.toNat_append, ← Nat.shiftLeft_add_eq_or_of_lt v.isLt]
  rfl

/-- The parts of a normal number. -/
theorem unpack_normal (s : Sign) {k : ℕ} (hk : 0 < k) (hmax : k < 2047) (hlow : 2 ^ 52 ≤ m)
    (hhigh : m < 2 ^ 53) : UnpackedFloat.unpack .binary64
      (packComponents .binary64 s (BitVec.ofNat _ k) (BitVec.ofNat _ m)) =
      .finite s m (k - 1075) (by omega) := by
  -- The exponent fits its eleven bits, and is neither of the two that have a meaning of their own.
  have hexponent : (BitVec.ofNat 11 k).toNat = k := by
    rw [BitVec.toNat_ofNat, Nat.mod_eq_of_lt (by omega)]
  have hall : ¬ BitVec.ofNat 11 k = -1#11 := fun h =>
    hmax.ne (hexponent.symm.trans (congrArg BitVec.toNat h))
  have hnone : ¬ BitVec.ofNat 11 k = 0#11 := fun h =>
    hk.ne' (hexponent.symm.trans (congrArg BitVec.toNat h))
  -- The leading digit is not stored, and comes back in front of the fraction.
  have hdigits : (1#1 ++ BitVec.ofNat 52 m).toNat = m := by
    rw [implicit_digits, BitVec.toNat_ofNat]
    omega
  unfold UnpackedFloat.unpack
  simp only [unpackMantissa_packComponents, unpackExponent_packComponents,
    unpackSign_packComponents, hall, hnone, hexponent, hdigits]
  rfl

/-- The parts of a number below the normal ones. -/
theorem unpack_subnormal (s : Sign) (hm : 0 < m) (hlow : m < 2 ^ 52) :
    UnpackedFloat.unpack .binary64 (packComponents .binary64 s 0#_ (BitVec.ofNat _ m)) =
      .finite s m (-1074) hm := by
  have hdigits : (BitVec.ofNat 52 m).toNat = m := by
    rw [BitVec.toNat_ofNat, Nat.mod_eq_of_lt (by omega)]
  have hnone : ¬ BitVec.ofNat 52 m = 0#52 := fun h =>
    hm.ne' (hdigits.symm.trans (congrArg BitVec.toNat h))
  have hall : ¬ (0#11) = -1#11 := by decide
  unfold UnpackedFloat.unpack
  simp only [unpackMantissa_packComponents, unpackExponent_packComponents,
    unpackSign_packComponents, hall, hnone, hdigits]
  rfl

/-- A number that is packed and fits is unpacked as it was, unless it has become infinite. -/
theorem unpack_pack {u : UnpackedFloat} (hu : Fits u) : (Float.Model.pack u).unpack = u ∨
    ∃ s m e hm, u = .finite s m e hm ∧ 971 < e ∧ (Float.Model.pack u).unpack = .infinity s := by
  cases u with
  | infinity s => cases s <;> exact .inl rfl
  | notANumber => exact .inl rfl
  | zero s => cases s <;> exact .inl rfl
  -- A finite number is packed as it is, unless its exponent is too large.
  | finite s m e hm =>
    obtain ⟨hdigits, hexponent, hnormal⟩ : Canonical m e := hu
    have hpack : (Float.Model.pack (.finite s m e hm)).unpack = UnpackedFloat.unpack .binary64
        (UnpackedFloat.pack .binary64 (.finite s m e hm)) := rfl
    have hbias : (Format.exponentBias .binary64 : ℤ) = 1023 := rfl
    rw [hpack]
    unfold UnpackedFloat.pack
    dsimp only
    rw [hbias]
    by_cases hlarge : 971 < e
    · refine .inr ⟨s, m, e, hm, rfl, hlarge, ?_⟩
      rw [if_pos (by omega)]
      cases s <;> rfl
    · left
      rw [if_neg (by omega)]
      -- Full digits are stored without the first one, fewer digits with the lowest exponent.
      by_cases hlow : 2 ^ 52 ≤ m
      · have hlog : m.log2 = 52 := (Nat.log2_eq_iff hm.ne').2 ⟨hlow, hdigits⟩
        rw [if_pos (by rw [hlog]; rfl), unpack_normal s (by omega) (by omega) hlow hdigits]
        congr 1
        omega
      · have hlog : m.log2 < 52 := (Nat.log2_lt hm.ne').2 (not_le.1 hlow)
        have hplaces : ¬ m.log2 + 1 = Format.mantissaBits .binary64 := by
          show ¬ m.log2 + 1 = 53
          omega
        obtain rfl := hnormal.resolve_left hlow
        rw [if_neg hplaces, unpack_subnormal s hm (not_le.1 hlow)]

/-- The numbers that can be stored. -/
def Stored : UnpackedFloat → Prop
  | .finite _ m e _ => Canonical m e ∧ e ≤ 971
  | _ => True

/-- What can be stored can be packed. -/
theorem Stored.fits {u : UnpackedFloat} (hu : Stored u) : Fits u := by
  cases u with
  | finite => exact hu.1
  | _ => trivial

/-- It is read as it was packed. -/
theorem Stored.unpack_pack {u : UnpackedFloat} (hu : Stored u) :
    (Float.Model.pack u).unpack = u := by
  obtain h | ⟨s, m, e, hm, rfl, hlarge, -⟩ := Double.unpack_pack hu.fits
  · exact h
  · exact absurd hu.2 (not_le.2 hlarge)

/-- Whatever is read can be stored. -/
theorem stored_unpack (x : Float.Model) : Stored x.unpack := by
  have hunpack : x.unpack = UnpackedFloat.unpack .binary64 x.toBits.toBitVec := rfl
  have hbias : (Format.exponentBias .binary64 : ℤ) = 1023 := rfl
  rw [hunpack]
  generalize x.toBits.toBitVec = b
  unfold UnpackedFloat.unpack
  dsimp only
  have hdigits : (@unpackMantissa .binary64 b).toNat < 2 ^ 52 := BitVec.isLt _
  have hexponent : (@unpackExponent .binary64 b).toNat < 2 ^ 11 := BitVec.isLt _
  rw [hbias]
  -- All ones in the exponent mean infinity or no number, all zeros a number without leading digit.
  split
  · split <;> trivial
  · next hall =>
    split
    · next hnone =>
      split
      · trivial
      · rw [hnone]
        exact ⟨⟨by omega, by simp, .inr (by simp)⟩, by simp⟩
    · next hsome =>
      have hpos : (@unpackExponent .binary64 b).toNat ≠ 0 := fun h =>
        hsome (BitVec.eq_of_toNat_eq h)
      have hmax : (@unpackExponent .binary64 b).toNat ≠ 2047 := fun h =>
        hall (BitVec.eq_of_toNat_eq h)
      have hleading := implicit_digits (@unpackMantissa .binary64 b)
      refine ⟨⟨?_, ?_, .inl ?_⟩, ?_⟩ <;> omega

/-! ### Signs -/

/-- The number is below zero. -/
def below : UnpackedFloat → Bool
  | .infinity .negative => true
  | .finite .negative .. => true
  | _ => false

/-- The number is above zero. -/
def above : UnpackedFloat → Bool
  | .infinity .positive => true
  | .finite .positive .. => true
  | _ => false

variable {u v : UnpackedFloat} {s : Sign}

/-- Packing does not turn signs around. -/
theorem below_unpack_pack (hu : Fits u) : below (Float.Model.pack u).unpack = below u := by
  obtain h | ⟨s, m, e, hm, rfl, -, h⟩ := unpack_pack hu
  · rw [h]
  · rw [h]
    cases s <;> rfl

/-- Packing keeps a number above zero or off it. -/
theorem above_unpack_pack (hu : Fits u) : above (Float.Model.pack u).unpack = above u := by
  obtain h | ⟨s, m, e, hm, rfl, -, h⟩ := unpack_pack hu
  · rw [h]
  · rw [h]
    cases s <;> rfl

/-- It keeps numbers numbers. -/
theorem isNaN_unpack_pack (hu : Fits u) : (Float.Model.pack u).unpack.isNaN = u.isNaN := by
  obtain h | ⟨s, m, e, hm, rfl, -, h⟩ := unpack_pack hu
  · rw [h]
  · rw [h]
    rfl

end Double

end Minimization
