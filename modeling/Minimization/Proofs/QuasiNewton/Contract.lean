import Minimization.Proofs.Contract.Observers
import Minimization.Proofs.LineSearch.Descent
import Minimization.Proofs.Progress.Merge
import Minimization.Proofs.QuasiNewton.Update

namespace Minimization.QuasiNewton

open Minimization Matrix

/-!
# What the quasi-Newton method keeps

* `Ground` — what a run can rely on: the operator answers by functions, and the line search accepts
  every direction that a matrix of the expected kind leads to.
* `Holds` — between two iterations cost and gradient are those at the point, and the inverse Hessian
  is a matrix of the expected kind.
* `ends_init`, `ends_step_searched` — the start and an iteration, which is one line search.
* `contract` — the contract of a run, for any kind of matrices that the update keeps.
-/

variable {K ω η α : Type} [Field K] [LinearOrder K] [Roots K] {n : Nat}

/-- The line along which the method searches. -/
def ray (b : Backend) (x : Fin n → K) (H : Matrix (Fin n) (Fin n) K) (v : Fin n → K) : Ray K :=
  .ofVec b x (-(H *ᵥ v))

/-- The direction that the method computes. -/
theorem way_ray [IsStrictOrderedRing K] (b : Backend) (x : Fin n → K)
    (H : Matrix (Fin n) (Fin n) K) (v : Fin n → K) :
    b.scale (.ofVec b (H *ᵥ v)) (-1.0) = (ray b x H v).way := by
  rw [Exact.lit_one, Exact.finite_neg, Backend.scale_ofVec, neg_one_smul]
  rfl

/-- What a run can rely on, for matrices of the kind `D`. -/
structure Ground (A : Setting ω (Exact K)) (b : Backend) (f : Tensor (Exact K) → Exact K)
    (g : Tensor (Exact K) → Tensor (Exact K)) (G : (Fin n → K) → Fin n → K)
    (D : Matrix (Fin n) (Fin n) K → Prop) (E : Failure (Exact K) → Prop) : Prop where
  cost : Answers A.operator.cost (Tensor.IsReal b [n]) f E
  gradient : Answers A.operator.gradient (Tensor.IsReal b [n]) g E
  vector : ∀ x, g (.ofVec b x) = .ofVec b (G x)
  refined : ∀ H s y, D H → D (refined H s y)
  descent : ∀ H x, D H → (ray b x H (G x)).Still ∨ G x ⬝ᵥ -(H *ᵥ G x) < 0 ∨ E (.invalid .notDescent)
  findings : Run.Findings E

/-- Between two iterations. -/
structure Holds (b : Backend) (f : Tensor (Exact K) → Exact K)
    (g : Tensor (Exact K) → Tensor (Exact K)) (D : Matrix (Fin n) (Fin n) K → Prop)
    (p : Progress (Exact K)) (s : QuasiNewton (Exact K)) : Prop where
  sound : s.search.Sound
  hessian : ∃ H, s.inverseHessian = .ofMat b H ∧ D H
  param : ∃ x : Fin n → K, p.param = .ofVec b x
  cost : p.cost = f p.param
  gradient : p.gradient = some (g p.param)
  best : p.Best f

variable {A : Setting ω (Exact K)} {b : Backend} {f : Tensor (Exact K) → Exact K}
  {g : Tensor (Exact K) → Tensor (Exact K)} {G : (Fin n → K) → Fin n → K}
  {D : Matrix (Fin n) (Fin n) K → Prop} {E : Failure (Exact K) → Prop} {p : Progress (Exact K)}
  {s : QuasiNewton (Exact K)} {session : Session ω}

omit [Field K] [LinearOrder K] [Roots K] in
/-- A vector is a tensor of real entries. -/
theorem isReal_ofVec (x : Fin n → K) : (Tensor.ofVec b x).IsReal b [n] :=
  ⟨_, by simp [volume], rfl⟩

omit [Field K] [LinearOrder K] [Roots K] in
/-- Finite numbers along one axis are a vector. -/
theorem exists_ofVec {t : Tensor (Exact K)} (h : t.IsReal b [n]) :
    ∃ v : Fin n → K, t = .ofVec b v := by
  obtain ⟨xs, hxs, rfl⟩ := h
  obtain ⟨v, rfl⟩ := exists_ofFn (n := n) (by simpa [volume] using hxs)
  exact ⟨v, rfl⟩

/-- Reports of a point with cost and gradient there. -/
theorem Holds.update (h : p.Best f) (hs : s.search.Sound)
    (hH : ∃ H, s.inverseHessian = .ofMat b H ∧ D H) {report : Report (Exact K)} {x : Fin n → K}
    (hparam : report.param = some (.ofVec b x)) (hcost : report.cost = some (f (.ofVec b x)))
    (hgradient : report.gradient = some (g (.ofVec b x))) :
    Holds b f g D (p.update report).1 s where
  sound := hs
  hessian := hH
  param := ⟨x, by simp [hparam]⟩
  cost := by simp [hparam, hcost]
  gradient := by simp [hparam, hgradient]
  best := h.update hparam hcost

/-- Neither counting an iteration nor stopping shows. -/
theorem Holds.increment (h : Holds b f g D p s) : Holds b f g D p.increment s :=
  ⟨h.sound, h.hessian, h.param, h.cost, h.gradient, h.best⟩

/-- The reason to stop is no part of it. -/
theorem Holds.stopped (h : Holds b f g D p s) (reason : Reason) :
    Holds b f g D { p with reason := reason } s :=
  ⟨h.sound, h.hessian, h.param, h.cost, h.gradient, h.best⟩

/-- Cost and gradient at the start are evaluated, whatever is known there. -/
theorem ends_init (hA : Ground A b f g G D E) {x : Fin n → K} (hp : p.param = .ofVec b x)
    (hbest : p.Best f) (hs : s.search.Sound) (hH : ∃ H, s.inverseHessian = .ofMat b H ∧ D H) :
    (solver.init A p).Ends ⟨s, session⟩
      (fun report? w => Holds b f g D (Run.started p report?) w.solver) E := by
  rw [ends_init_iff, hp]
  -- Cost and gradient are evaluated at the given point, and the report has both.
  refine (Session.ends_cost hA.cost (isReal_ofVec x)).mono ?_
  rintro c t rfl
  refine (Session.ends_gradient hA.gradient (isReal_ofVec x)).mono ?_
  rintro v t' rfl
  exact Holds.update hbest hs hH rfl rfl rfl

omit [Field K] [LinearOrder K] [Roots K] in
/-- The memory at the start is the one that was given. -/
theorem ends_init_frame [Scalar α] (A : Setting ω α) (p : Progress α) (s : QuasiNewton α)
    (session : Session ω) :
    (solver.init A p).Ends ⟨s, session⟩ (fun _ w => w.solver = s) fun _ => True := by
  rw [ends_init_iff]
  refine (Action.ends_anyhow _ _).mono fun _ _ _ => ?_
  exact (Action.ends_anyhow _ _).mono fun _ _ _ => rfl

/-- An operator whose answers depend on the point alone, with any matrices and any failures. -/
theorem Ground.of_deterministic {h : Tensor (Exact K) → Tensor (Exact K)}
    (hA : A.operator.Deterministic f g h) (hG : ∀ x, g (.ofVec b x) = .ofVec b (G x)) :
    Ground A b f g G (fun _ => True) fun _ => True :=
  ⟨.of_deterministic hA.cost _, .of_deterministic hA.gradient _, hG, fun _ _ _ _ => trivial,
    fun _ _ _ => .inr (.inr trivial), ⟨fun _ _ => trivial, fun _ => trivial⟩⟩

/-- What a search along the direction of the method can rely on. -/
theorem Ground.terrain (hA : Ground A b f g G D E) (x : Fin n → K) (H : Matrix (Fin n) (Fin n) K) :
    Line.Terrain A (ray b x H (G x)) f g E where
  cost := hA.cost
  gradient := hA.gradient
  slope a e h := by
    rw [ray, Ray.point_ofVec, hA.vector] at h
    have hdot := Backend.dot_ofVec b (G (x + a • -(H *ᵥ G x))) (-(H *ᵥ G x))
    cases hdot.symm.trans h

variable [IsStrictOrderedRing K]

/-- **The search of an iteration** starts with the cost and the gradient that are known at its
    origin. -/
theorem Ground.ends_search (hA : Ground A b f g G D E) (h : Holds b f g D p s) {x : Fin n → K}
    {H : Matrix (Fin n) (Fin n) K} (hx : p.param = .ofVec b x) (hD : D H) (session : Session ω) :
    (LineSearch.run A (.ofVec b x) (some (ray b x H (G x)).way) (some p.cost)
      (some (.ofVec b (G x)))).Ends ⟨s.search, session⟩
        (fun found v => LineSearch.Searched A (ray b x H (G x)) f g s.search session found v) E := by
  -- The slope at the origin is that of the gradient along the direction.
  have hdescent (slope : Exact K) (hslope : b.dot (g (ray b x H (G x)).start)
      (ray b x H (G x)).way = .ok slope) : (ray b x H (G x)).Still ∨ Scalar.lt slope 0.0 = true ∨
        E (.invalid .notDescent) := by
    have hdot : b.dot (g (.ofVec b x)) (.ofVec b (-(H *ᵥ G x))) = .ok slope := hslope
    rw [hA.vector, Backend.dot_ofVec] at hdot
    obtain rfl := Except.ok.inj hdot
    obtain hstill | hneg | herror := hA.descent H x hD
    · exact .inl hstill
    · exact .inr (.inl (by simpa using hneg))
    · exact .inr (.inr herror)
  rw [h.cost, hx, ← hA.vector]
  exact LineSearch.ends_run_searched (hA.terrain x H) h.sound hdescent fun _ =>
    .inr hA.findings.undefined

/-- **An iteration** carries out one search and ends at the point that it has found, with the matrix
    updated by the step. -/
theorem ends_step_searched (hA : Ground A b f g G D E) (h : Holds b f g D p s) :
    (solver.step A p).Ends ⟨s, session⟩
      (fun report w => Holds b f g D (p.update report).1.increment w.solver ∧
        ∃ x H found v, p.param = .ofVec b x ∧ s.inverseHessian = .ofMat b H ∧
          LineSearch.Searched A (ray b x H (G x)) f g s.search session found v ∧
          report.param = some found.param ∧ report.cost = some found.cost ∧
            w.solver.search = v.solver) E := by
  obtain ⟨x, hx⟩ := h.param
  obtain ⟨H, hH, hD⟩ := h.hessian
  have hgradient : p.requireGradient = (.ok (.ofVec b (G x)) : Except (Failure (Exact K)) _) := by
    simp [ProgressOn.requireGradient, h.gradient, hx, hA.vector]
  have hsearch := hA.ends_search h hx hD session
  have himage : Backend.apply s.inverseHessian (.ofVec b (G x)) = .ok (.ofVec b (H *ᵥ G x)) := by
    rw [hH, Backend.apply_ofVec]
  refine ends_step_of (fun e he => ?_) (fun v e hv he => ?_) fun v image hv hi => ?_
  · cases hgradient.symm.trans he
  · obtain rfl := Except.ok.inj (hgradient.symm.trans hv)
    cases himage.symm.trans he
  obtain rfl := Except.ok.inj (hgradient.symm.trans hv)
  obtain rfl := Except.ok.inj (himage.symm.trans hi)
  rw [hx, Tensor.backend_ofVec, way_ray b x, hH]
  refine hsearch.mono ?_
  rintro found ⟨search, t⟩ hsearched
  obtain ⟨⟨a, ha⟩, hcost⟩ := hsearched.found.stage.coherent
  -- From here on all that matters of the new point is that it is a vector.
  rw [ray, Ray.point_ofVec] at ha
  generalize x + a • -(H *ᵥ G x) = x' at ha
  rw [ha] at hcost
  rw [ends_learn_iff, ha]
  refine (Session.ends_gradient hA.gradient (isReal_ofVec x')).mono ?_
  rintro _ t' rfl
  rw [hA.vector, revision_ofVec, Action.ends_ofExcept_ok]
  -- The method updates the matrix by the step and the change of the gradient, or leaves it.
  have hmatrix : ∃ H', ((if 0 < (G x' - G x) ⬝ᵥ (x' - x) then
      some (.ofMat b (corrected H (x' - x) (G x' - G x))) else none).getD (.ofMat b H) :
        Tensor (Exact K)) = .ofMat b H' ∧ D H' := by
    refine ⟨refined H (x' - x) (G x' - G x), ?_, hA.refined _ _ _ hD⟩
    unfold refined
    split
    · rfl
    · rfl
  refine ⟨(Holds.update (x := x') h.best (hsearched.found.sound h.sound) hmatrix rfl ?_ ?_).increment,
    x, H, found, ⟨search, t⟩, rfl, rfl, hsearched, by rw [ha], rfl, rfl⟩
  · rw [hcost]
  · rw [hA.vector]

/-- A step searches, and then updates the matrix with what the search has found. -/
theorem ends_step (hA : Ground A b f g G D E) (h : Holds b f g D p s) :
    (solver.step A p).Ends ⟨s, session⟩
      (fun report w => Holds b f g D (p.update report).1.increment w.solver) E :=
  (ends_step_searched hA h).mono fun _ _ hstep => hstep.1

omit [IsStrictOrderedRing K] in
/-- The method's own stopping rule does not fail. -/
theorem ends_terminate (hA : Ground A b f g G D E) (h : Holds b f g D p s) :
    (solver.terminate p).Ends ⟨s, session⟩ (fun _ w => w.solver = s) E := by
  obtain ⟨x, hx⟩ := h.param
  -- The gradient is known and its norm exists, so neither test raises.
  have hgradient : p.requireGradient = (.ok (.ofVec b (G x)) : Except (Failure (Exact K)) _) := by
    simp [ProgressOn.requireGradient, h.gradient, hx, hA.vector]
  refine Action.ends_ofExcept (fun _ _ => rfl) fun e he => ?_
  unfold terminate at he
  simp only [hgradient, hx, Tensor.backend_ofVec, Backend.norm_ofVec, bind, Except.bind] at he
  split at he
  · cases he
  · split at he
    · cases he
    · cases he

/-- **The contract of a run** of the quasi-Newton method, for matrices of any kind that the update
    keeps. -/
theorem contract (hA : Ground A b f g G D E) {O : Observer η (Exact K)} (hO : O.FailsWith E)
    (c : RunConfig (Exact K)) :
    Run.Contract ⟨solver, O, A, c⟩ (Holds b f g D) (Holds b f g D) E where
  -- Neither the reason nor the count that the executor adds is anything the invariant speaks of.
  stopped _ h := h.stopped _
  step _ h _ := ends_step hA h
  inspected _ _ _ hfound := hA.findings.inspection hfound
  terminate _ h := by
    refine (ends_terminate hA h).mono ?_
    rintro own w hw
    rw [hw]
    exact h.stopped _
  introduced := hO.ends_init
  watched := hO.ends_iteration

end Minimization.QuasiNewton
