import Mathlib.LinearAlgebra.Matrix.Notation
import Minimization.Proofs.QuasiNewton.Secant

namespace Minimization.QuasiNewton

open Matrix

/-!
# The rank-two update

The method updates its matrix along a step `s` by the change `y` of the gradient, or warns that it
does not.  With positive curvature the quadratic form of the new matrix is that of the old one at a
shorter vector, and a square.

* `updated` — the update with its warning; `learn_eq` says that an iteration carries out just this.
* `RankTwo` — what a matrix is to the one before the update.
* `exec_updated` — the update of a symmetric matrix, for vectors and matrices of any size.
-/

section
variable {ω α : Type} [Scalar α]

/-- The matrix after a step: the updated one, or the one before together with a warning. -/
def updated (h s y : Tensor α) : Action (Session ω) α (Tensor α) := do
  let update ← Action.ofExcept (secantUpdate h s y)
  refine h update

/-- Inside a step the update is computed first, and then noted. -/
theorem onSession_updated {σ : Type} (h s y : Tensor α) :
    (Workspace.onSession (updated h s y) : Action (Workspace σ ω) α (Tensor α)) =
      (Action.ofExcept (secantUpdate h s y) >>= fun update =>
        Workspace.onSession (refine h update)) := by
  unfold updated
  cases secantUpdate h s y with
  | error e => rfl
  | ok update => rfl

/-- What an iteration does after its search: it stores the updated matrix last. -/
theorem learn_eq (A : Setting ω α) (x oldGradient h : Tensor α) (found : Progress α) :
    learn A x oldGradient h found = (do
      let gradient ← Workspace.onSession (Session.gradient A.operator found.param)
      let y ← Action.ofExcept (Backend.sub gradient oldGradient)
      let s ← Action.ofExcept (Backend.sub found.param x)
      let refined ← Workspace.onSession (updated h s y)
      Workspace.modifySolver fun m => { m with inverseHessian := refined }
      return { param := some found.param, cost := some found.cost, gradient := some gradient }) := by
  simp only [learn, onSession_updated, bind_assoc]

end

variable {K ω : Type} [Field K] [LinearOrder K] {n : Nat} {H : Matrix (Fin n) (Fin n) K}
  {s y : Fin n → K}

/-- The matrix `H'` is `H` after a step `s` along which the gradient has changed by `y`. -/
structure RankTwo (H : Matrix (Fin n) (Fin n) K) (s y : Fin n → K)
    (H' : Matrix (Fin n) (Fin n) K) : Prop where
  symm : H'.IsSymm
  secant : H' *ᵥ y = s
  form (v : Fin n → K) : v ⬝ᵥ H' *ᵥ v =
    (v - ((s ⬝ᵥ v) / (y ⬝ᵥ s)) • y) ⬝ᵥ H *ᵥ (v - ((s ⬝ᵥ v) / (y ⬝ᵥ s)) • y) +
      (s ⬝ᵥ v) ^ 2 / (y ⬝ᵥ s)
  definite : Definite H → Definite H'

/-- **A correction by positive curvature** is a rank-two update. -/
theorem rankTwo_corrected [IsStrictOrderedRing K] (hH : H.IsSymm) (hpos : 0 < y ⬝ᵥ s) :
    RankTwo H s y (corrected H s y) where
  symm := isSymm_corrected hH
  secant := corrected_mulVec hpos.ne'
  form v := by
    -- The two terms of the correction, with the inverse curvature written as a division.
    have hshare : 1 / y ⬝ᵥ s * s ⬝ᵥ v = (s ⬝ᵥ v) / (y ⬝ᵥ s) := one_div_mul_eq_div ..
    have hsquare : 1 / y ⬝ᵥ s * (s ⬝ᵥ v) ^ 2 = (s ⬝ᵥ v) ^ 2 / (y ⬝ᵥ s) := one_div_mul_eq_div ..
    rw [dotProduct_corrected, hshare, hsquare]
  definite hdefinite := by
    have hrefined := hdefinite.refined s y
    rwa [refined, if_pos hpos] at hrefined

variable [Roots K] [IsStrictOrderedRing K]

/-- **The update of the inverse Hessian.**  A symmetric matrix of any size is updated along any step:
    with positive curvature the result is symmetric, maps the change of the gradient to the step, has
    the quadratic form of a rank-two update and stays definite, and the session is as it was; without,
    the result is the matrix itself, and all that changes is the logbook. -/
theorem exec_updated (b : Backend) {H : Matrix (Fin n) (Fin n) K} (hH : H.IsSymm) (s y : Fin n → K)
    (t : Session ω) :
    (0 < y ⬝ᵥ s → ∃ H', (updated (.ofMat b H) (.ofVec b s) (.ofVec b y)).exec t =
      (.ok (.ofMat b H'), t) ∧ RankTwo H s y H') ∧
    (y ⬝ᵥ s ≤ 0 → (updated (.ofMat b H) (.ofVec b s) (.ofVec b y)).exec t =
      (.ok (.ofMat b H), { t with
        logbook := t.logbook.emit warningLevel Logbook.quasiNewtonLogger fun _ =>
          skipLine (Exact.finite (y ⬝ᵥ s)) })) := by
  unfold updated
  rw [Action.exec_bind, Action.exec_ofExcept, secantUpdate_ofVec]
  -- Positive curvature corrects the matrix and logs nothing; any other keeps the matrix and logs the
  -- curvature.
  constructor
  · intro hpos
    rw [if_pos hpos]
    exact ⟨corrected H s y, rfl, rankTwo_corrected hH hpos⟩
  · intro hnonpos
    rw [if_neg hnonpos.not_gt]
    rfl

/-- Two steps from a matrix over the rationals, with positive and with negative curvature. -/
theorem exec_updated_rat :
    (!![2, 1; 1, 3] : Matrix (Fin 2) (Fin 2) ℚ).IsSymm ∧
    0 < (![2, 1] : Fin 2 → ℚ) ⬝ᵥ ![1, -1] ∧ (![-2, 1] : Fin 2 → ℚ) ⬝ᵥ ![1, -1] ≤ 0 ∧
    (∃ H', (updated (.ofMat .array !![2, 1; 1, 3]) (.ofVec .array ![1, -1])
      (.ofVec .array ![2, 1])).exec (Session.start ()) =
        (.ok (.ofMat .array H'), Session.start ()) ∧
      RankTwo (!![2, 1; 1, 3] : Matrix (Fin 2) (Fin 2) ℚ) ![1, -1] ![2, 1] H') ∧
    ((updated (.ofMat .array (!![2, 1; 1, 3] : Matrix (Fin 2) (Fin 2) ℚ)) (.ofVec .array ![1, -1])
      (.ofVec .array ![-2, 1])).exec (Session.start ())).1 = .ok (.ofMat .array !![2, 1; 1, 3]) := by
  have hsymm : (!![2, 1; 1, 3] : Matrix (Fin 2) (Fin 2) ℚ).IsSymm := by decide +kernel
  have hpos : 0 < (![2, 1] : Fin 2 → ℚ) ⬝ᵥ ![1, -1] := by decide +kernel
  have hnonpos : (![-2, 1] : Fin 2 → ℚ) ⬝ᵥ ![1, -1] ≤ 0 := by decide +kernel
  -- Along the other change of gradients the curvature is negative, so the update is left out.
  have hskipped := (exec_updated .array hsymm ![1, -1] ![-2, 1] (Session.start ())).2 hnonpos
  exact ⟨hsymm, hpos, hnonpos, (exec_updated .array hsymm ![1, -1] ![2, 1] (Session.start ())).1 hpos,
    congrArg Prod.fst hskipped⟩

end Minimization.QuasiNewton
