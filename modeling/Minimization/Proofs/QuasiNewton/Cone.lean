import Minimization.Proofs.Operator.Sphere
import Minimization.Proofs.QuasiNewton.Contract

namespace Minimization.QuasiNewton

open Minimization Matrix

/-!
# The cone of descent

* `InCone` — a state whose inverse Hessian is symmetric and positive definite, so that the direction
  of the next search leads downhill.
* `run_inCone` — every state that a run reaches is one, and no run fails because of its direction.
-/

variable {K ω η : Type} [Field K] [LinearOrder K] [Roots K] {n : Nat}

/-- The inverse Hessian is symmetric and positive definite, and the direction `-H g` leads strictly
    downhill, or is zero where the gradient is. -/
structure InCone (b : Backend) (G : (Fin n → K) → Fin n → K) (p : Progress (Exact K))
    (s : QuasiNewton (Exact K)) (x : Fin n → K) (H : Matrix (Fin n) (Fin n) K) : Prop where
  param : p.param = .ofVec b x
  gradient : p.gradient = some (.ofVec b (G x))
  hessian : s.inverseHessian = .ofMat b H
  definite : Definite H
  /-- The direction that the method computes. -/
  direction : (Backend.apply s.inverseHessian (.ofVec b (G x))).map (b.scale · (-1.0)) =
    (.ok (.ofVec b (-(H *ᵥ G x))) : Except (Failure (Exact K)) _)
  descent : G x ≠ 0 → G x ⬝ᵥ -(H *ᵥ G x) < 0
  rest : G x = 0 → -(H *ᵥ G x) = 0

/-- A direction of length zero is zero. -/
theorem still_ofVec [IsStrictOrderedRing K] [LawfulRoots K] (b : Backend) (x d : Fin n → K) :
    (Ray.ofVec b x d).Still ↔ d = 0 := by
  have hlength : (Ray.ofVec b x d).length = .ofOption (Roots.root? (d ⬝ᵥ d)) :=
    Except.ok.inj ((Ray.norm_way _).symm.trans (Backend.norm_ofVec b d))
  rw [Ray.Still, hlength]
  exact Backend.eq_norm_zero_iff d

variable {A : Setting ω (Exact K)} {b : Backend} {f : Tensor (Exact K) → Exact K}
  {g : Tensor (Exact K) → Tensor (Exact K)} {G : (Fin n → K) → Fin n → K} {p : Progress (Exact K)}
  {s : QuasiNewton (Exact K)}

/-- Any failure but that of a direction that does not lead downhill. -/
def NotOfDirection (e : Failure (Exact K)) : Prop := e ≠ .invalid .notDescent

omit [Field K] [LinearOrder K] [Roots K] in
/-- A failed check is a failure of another kind. -/
theorem findings_notOfDirection : Run.Findings (NotOfDirection (K := K)) where
  undefined _ _ := by simp [NotOfDirection]
  decreased _ := by simp [NotOfDirection]

variable [IsStrictOrderedRing K]

/-- What a run holds to between iterations puts it in the cone. -/
theorem Holds.inCone (h : Holds b f g (Definite (n := n)) p s)
    (hG : ∀ x, g (.ofVec b x) = .ofVec b (G x)) :
    ∃ x H, InCone b G p s x H := by
  obtain ⟨x, hx⟩ := h.param
  obtain ⟨H, hH, hdefinite⟩ := h.hessian
  -- A definite inverse Hessian turns every gradient but zero into a way downhill.
  obtain ⟨hdescent, hrest⟩ := hdefinite.descent (G x)
  refine ⟨x, H, hx, ?_, hH, hdefinite, ?_, hdescent, hrest⟩
  · rw [h.gradient, hx, hG]
  · rw [hH, Backend.apply_ofVec]
    simp [Except.map]

/-- **A run never leaves the cone of descent.**  From a symmetric positive definite matrix, with any
    gradients, costs and line search, every state that the run reaches is in the cone; and the run
    does not fail because of a direction that does not lead downhill, unless the operator or an
    observer raises just that. -/
theorem run_inCone [LawfulRoots K] (A : Setting ω (Exact K)) (O : Observer η (Exact K))
    (c : RunConfig (Exact K)) (b : Backend) (f : Tensor (Exact K) → Exact K)
    (g : Tensor (Exact K) → Tensor (Exact K)) (G : (Fin n → K) → Fin n → K)
    (hf : Answers A.operator.cost (Tensor.IsReal b [n]) f NotOfDirection)
    (hg : Answers A.operator.gradient (Tensor.IsReal b [n]) g NotOfDirection)
    (hG : ∀ x, g (.ofVec b x) = .ofVec b (G x)) (hO : O.FailsWith NotOfDirection)
    (x : Fin n → K) {H : Matrix (Fin n) (Fin n) K} (hH : Definite H) {search : LineSearch (Exact K)}
    (hsearch : search.Sound) (maxIters : Int) (cost? : Option (Exact K))
    (gradient? hessian? : Option (Tensor (Exact K))) (session : Session ω) (ws : List (Watch η)) :
    (∀ t, Run.Reached ⟨solver, O, A, c⟩ ⟨Run.seeded (.ofVec b x) maxIters cost? gradient? hessian?,
        ⟨.ofMat b H, search⟩, session, ws⟩ t → ∃ x' H', InCone b G t.progress t.solver x' H') ∧
      ∀ r', (Run.execute ⟨solver, O, A, c⟩).exec ⟨Run.seeded (.ofVec b x) maxIters cost? gradient?
        hessian?, ⟨.ofMat b H, search⟩, session, ws⟩ ≠ (.error (.invalid .notDescent), r') := by
  obtain ⟨-, -, hrun⟩ := Run.seeded_unstarted (.ofVec b x) maxIters cost? gradient? hessian?
  obtain ⟨hparam, -, -, hbest⟩ := Run.seeded_fields (.ofVec b x) maxIters cost? gradient? hessian?
  have hground : Ground A b f g G Definite NotOfDirection := by
    refine ⟨hf, hg, hG, fun _ s y h => h.refined s y, fun H x h => ?_, findings_notOfDirection⟩
    -- A zero gradient leads to a direction of length zero, which is not tested.
    by_cases hzero : G x = 0
    · exact .inl ((still_ofVec b x _).2 ((h.descent (G x)).2 hzero))
    · exact .inr (.inl ((h.descent (G x)).1 hzero))
  have hcontract := contract hground hO c
  have hinit : Run.Contract.Inits ⟨solver, O, A, c⟩ ⟨Run.seeded (.ofVec b x) maxIters cost?
      gradient? hessian?, ⟨.ofMat b H, search⟩, session, ws⟩ (Holds b f g Definite)
      NotOfDirection :=
    fun _ => ends_init hground hparam (.of_infinite hbest) hsearch ⟨H, rfl, hH⟩
  refine ⟨fun t ht => (hcontract.reached hinit ht).inCone hG, fun r' hexec => ?_⟩
  exact (hcontract.execute hrun hinit).of_error hexec rfl

/-! ### The sphere function -/

/-- Three iterations on the sphere function. -/
def spherePlan : Plan (QuasiNewton (Exact ℚ)) Unit Empty (Exact ℚ) :=
  ⟨solver, Run.noObserver, ⟨sphereOperator, true⟩, ⟨3, -1.0, true⟩⟩

/-- From the point `(1, 2)`, with the identity matrix and halved step lengths. -/
def sphereStart : Run (QuasiNewton (Exact ℚ)) Unit Empty (Exact ℚ) :=
  ⟨Run.seeded (.ofVec .array ![1, 2]) 3 none none none,
    ⟨.ofMat .array (1 : Matrix (Fin 2) (Fin 2) ℚ),
      .backtracking ⟨⟨none, 1.0, 10, 0, none, none⟩, 0.25, 0.5, 1.0⟩⟩, .start (), []⟩

/-- A run on the sphere function stays in the cone, and succeeds. -/
theorem run_inCone_sphere :
    Definite (1 : Matrix (Fin 2) (Fin 2) ℚ) ∧ sphereStart.solver.search.Sound ∧
    ((Run.execute spherePlan).exec sphereStart).1.isOk = true ∧
    (∀ t, Run.Reached spherePlan sphereStart t →
      ∃ x H, InCone .array (2 • ·) t.progress t.solver x (H : Matrix (Fin 2) (Fin 2) ℚ)) ∧
    ∀ r', (Run.execute spherePlan).exec sphereStart ≠ (.error (.invalid .notDescent), r') := by
  have hsearch : sphereStart.solver.search.Sound :=
    ⟨⟨1, by decide, by decide +kernel⟩, 1 / 2, by decide +kernel, by decide +kernel⟩
  -- There are no observers to raise anything.
  have hobserver : (Run.noObserver : Observer Empty (Exact ℚ)).FailsWith NotOfDirection :=
    ⟨fun _ _ _ => trivial, fun _ _ _ => trivial, by simp [NotOfDirection]⟩
  obtain ⟨hcone, hdirection⟩ := run_inCone ⟨sphereOperator, true⟩ Run.noObserver ⟨3, -1.0, true⟩
    .array sphere sphereGradient (2 • ·) (sphereOperator_cost _ _) (sphereOperator_gradient _ _)
    sphereGradient_ofVec hobserver ![1, 2] .one hsearch 3 none none none (.start ()) []
  exact ⟨.one, hsearch, by decide +kernel, hcone, hdirection⟩

end Minimization.QuasiNewton
