import Mathlib.Analysis.SpecialFunctions.Exp
import Mathlib.Analysis.Real.Sqrt
import Minimization.Proofs.Scalar.Finite

namespace Minimization

/-!
# Fields with square roots

* `SquareRoots` — every number that is not negative has a root.
* `Exact.sqrt_finite`, `Exact.sqrt_of_neg` — roots of finite numbers; that of a negative number is
  not a number.
* The real numbers are such a field, so that statements about exact arithmetic can be made of them.
-/

/-- A field in which every number that is not negative has a root that is not negative. -/
class SquareRoots (K : Type) [Field K] [LinearOrder K] [Roots K] : Prop extends LawfulRoots K where
  exists_root? {x : K} : 0 ≤ x → ∃ r, 0 ≤ r ∧ Roots.root? x = some r

/-- Texts of real numbers show their whole part. -/
noncomputable instance : Roots ℝ where
  root? x := if 0 ≤ x then some √x else none
  exp? x := some (Real.exp x)
  text x := toString ⌊x⌋

/-- Real numbers have all the roots that can be asked for. -/
instance : SquareRoots ℝ where
  root?_zero := by simp [Roots.root?]
  mul_self_of_root? := by
    intro x r h
    simp only [Roots.root?] at h
    split at h
    · next hx =>
      obtain rfl := Option.some.inj h
      exact Real.mul_self_sqrt hx
    · cases h
  exists_root? := by
    intro x hx
    exact ⟨√x, Real.sqrt_nonneg x, if_pos hx⟩

namespace Exact

variable {K : Type} [Field K] [LinearOrder K] [Roots K] {x : K}

/-- The root of a number that is not negative. -/
theorem sqrt_finite [SquareRoots K] (hx : 0 ≤ x) :
    ∃ r : K, 0 ≤ r ∧ r * r = x ∧ Scalar.sqrt (finite x) = finite r := by
  obtain ⟨r, hr, hroot⟩ := SquareRoots.exists_root? hx
  refine ⟨r, hr, LawfulRoots.mul_self_of_root? hroot, ?_⟩
  show ofOption (Roots.root? x) = _
  rw [hroot]
  rfl

/-- A negative number has no root. -/
theorem sqrt_of_neg [IsStrictOrderedRing K] [LawfulRoots K] (hx : x < 0) :
    Scalar.sqrt (finite x) = (notANumber : Exact K) := by
  show ofOption (Roots.root? x) = _
  cases hroot : Roots.root? x with
  | none => rfl
  | some r =>
    have hsquare := LawfulRoots.mul_self_of_root? hroot
    exact absurd (hsquare ▸ mul_self_nonneg r) (not_le.2 hx)

end Exact

end Minimization
