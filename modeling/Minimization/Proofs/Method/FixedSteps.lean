import Minimization.Proofs.Backend.Runs
import Minimization.Proofs.Method.Resumption
import Minimization.Proofs.Operator.Quadratic
import Minimization.Proofs.Run.Steered
import Minimization.Proofs.Tensor.Elimination

namespace Minimization

open Matrix

/-!
# Fixed steps on quadratic functions

In exact arithmetic a gradient step of fixed length and a damped Newton step on a quadratic function are
affine: each multiplies the distance to the stationary point by a matrix.

* `approach` — the points that such steps lead to; `approach_succ` — from one of them to the next.
* `landweber_step`, `newton_step` — the steps, told by that matrix.
* `Landweber.steers`, `Newton.steers` — the steps of the two solvers.
* `fixed_steps_closed_form` — where a run of either ends.
-/

variable {K : Type} [Field K] {n : ℕ}

/-! ### Affine steps -/

/-- The point after `i` steps, each of which multiplies the distance to `s` by `N`. -/
def approach (N : Matrix (Fin n) (Fin n) K) (s x : Fin n → K) (i : ℕ) : Fin n → K :=
  s + N ^ i *ᵥ (x - s)

/-- Before the first step it is at the start. -/
@[simp] theorem approach_zero (N : Matrix (Fin n) (Fin n) K) (s x : Fin n → K) :
    approach N s x 0 = x := by
  unfold approach
  rw [pow_zero, one_mulVec, add_sub_cancel]

/-- A step multiplies the distance once more. -/
theorem approach_succ (N : Matrix (Fin n) (Fin n) K) (s x : Fin n → K) (i : ℕ) :
    approach N s x (i + 1) = s + N *ᵥ (approach N s x i - s) := by
  unfold approach
  rw [add_sub_cancel_left, mulVec_mulVec, ← pow_succ']

/-- A matrix that is a number times the identity. -/
theorem approach_smul_one (t : K) (s x : Fin n → K) (i : ℕ) :
    approach (t • (1 : Matrix (Fin n) (Fin n) K)) s x i = s + t ^ i • (x - s) := by
  unfold approach
  rw [smul_pow, one_pow, smul_mulVec, one_mulVec]

variable {M : Matrix (Fin n) (Fin n) K} {c s : Fin n → K}

/-- A step along the gradient. -/
theorem landweber_step (hs : M *ᵥ s = c) (a : K) (x : Fin n → K) :
    x - a • (M *ᵥ x - c) = s + (1 - a • M) *ᵥ (x - s) := by
  rw [sub_mulVec, one_mulVec, smul_mulVec, mulVec_sub, hs]
  abel

/-- A step along the Newton direction. -/
theorem newton_step (hs : M *ᵥ s = c) (hM : IsUnit M.det) (g : K) (x : Fin n → K) :
    x - g • (M⁻¹ *ᵥ (M *ᵥ x - c)) = s + ((1 - g) • (1 : Matrix (Fin n) (Fin n) K)) *ᵥ (x - s) := by
  rw [← hs, ← mulVec_sub, mulVec_mulVec, nonsing_inv_mul M hM, one_mulVec, smul_mulVec, one_mulVec,
    sub_smul, one_smul]
  abel

/-! ### The two solvers -/

variable [LinearOrder K] [IsStrictOrderedRing K] [Roots K] {ω η : Type} {op : Operator ω (Exact K)}
  {b : Backend} {debug : Bool} {O : Observer η (Exact K)} {config : RunConfig (Exact K)}

open Run

omit [IsStrictOrderedRing K] in
/-- **Landweber iteration** multiplies the distance by `1 - a M`. -/
theorem Landweber.steers (hs : M *ᵥ s = c)
    (hgradient : ∀ v host,
      ((op.gradient (.ofVec b v)).exec host).1 = .ok (.ofVec b (M *ᵥ v - c)))
    (a : K) (x : Fin n → K) :
    Steers (plan ⟨op, debug⟩ O config) (.landweber ⟨.finite a, false⟩)
      fun i => .ofVec b (approach (1 - a • M) s x i) where
  init p session := ⟨rfl, rfl⟩
  step i p session hp := by
    refine (Method.ends_dispatch (fun S => S.step ⟨op, debug⟩ p) _).2 ((Workspace.ends_wrapping ..).2 ?_)
    -- One gradient, at the point; the new point is the next one of the closed form.
    rw [Landweber.ends_step_iff, hp]
    refine (Session.ends_evaluate_known (hgradient _ session.host)).mono ?_
    rintro _ t ⟨rfl, ht⟩
    rw [Tensor.backend_ofVec, Backend.scaledSub_ofVec, landweber_step hs, ← approach_succ]
    exact ⟨rfl, rfl, _, ht.trans (Counts.tick_eq_add ..)⟩
  terminate p session := ⟨rfl, rfl⟩

/-- **Newton's method** multiplies the distance by `1 - g`. -/
theorem Newton.steers (hs : M *ᵥ s = c) (hM : IsUnit M.det)
    (hgradient : ∀ v host,
      ((op.gradient (.ofVec b v)).exec host).1 = .ok (.ofVec b (M *ᵥ v - c)))
    (hhessian : ∀ (v : Fin n → K) host,
      ((op.hessian (.ofVec b v)).exec host).1 = .ok (.ofMat b M))
    (g : K) (x : Fin n → K) :
    Steers (plan ⟨op, debug⟩ O config) (.newton ⟨.finite g⟩)
      fun i => .ofVec b (approach ((1 - g) • (1 : Matrix (Fin n) (Fin n) K)) s x i) where
  init p session := ⟨rfl, rfl⟩
  step i p session hp := by
    refine (Method.ends_dispatch (fun S => S.step ⟨op, debug⟩ p) _).2 ((Workspace.ends_wrapping ..).2 ?_)
    rw [Newton.ends_step_iff, hp]
    -- A gradient and a Hessian at the point, and one linear system.
    refine (Session.ends_evaluate_known (hgradient _ session.host)).mono ?_
    rintro _ t ⟨rfl, ht⟩
    refine (Session.ends_evaluate_known (hhessian _ t.host)).mono ?_
    rintro _ u ⟨rfl, hu⟩
    rw [target_ofVec b hM rfl, newton_step hs hM, ← approach_succ, Action.ends_ofExcept_ok]
    refine ⟨rfl, rfl, (Counts.zero.tick .gradient).tick .hessian, ?_⟩
    show u.counts = _
    rw [hu, ht, ← Counts.tick_add, ← Counts.tick_eq_add]
  terminate p session := ⟨rfl, rfl⟩

/-- **Fixed steps on a quadratic function.**  Let the gradient of the operator be `M x - c`, and let
    `s` be a stationary point.  A run without a target that nobody stops ends after as many iterations
    `k` as its cap allows: Landweber iteration with step length `a` at `s + (1 - a M)ᵏ (x - s)`, and
    Newton's method with damping factor `g`, where `M` is the Hessian and invertible, at
    `s + (1 - g)ᵏ (x - s)`, which is `s` for full steps.  The point before is the one with a step
    less. -/
theorem fixed_steps_closed_form (hs : M *ᵥ s = c)
    (hgradient : ∀ v host,
      ((op.gradient (.ofVec b v)).exec host).1 = .ok (.ofVec b (M *ᵥ v - c)))
    (debug : Bool) {R : η → Prop} (hO : O.Quiet R) {ws : List (Watch η)}
    (hws : Watches.Attentive R ws) (guarded : Bool) (session : Session ω) (x : Fin n → K) (k : ℕ) :
    let P := plan ⟨op, debug⟩ O ⟨k, -Scalar.infinity, guarded⟩
    let start := fun m => fresh P (.ofVec b x) none none none m session ws
    (∀ a : K, Unasked P (start (.landweber ⟨.finite a, false⟩)) →
      ∃ final, (execute P).exec (start (.landweber ⟨.finite a, false⟩)) = (.ok (), final) ∧
        final.progress.iter = k ∧
        final.progress.param = .ofVec b (s + (1 - a • M) ^ k *ᵥ (x - s)) ∧
        ∀ j, k = j + 1 →
          final.progress.prevParam = .ofVec b (s + (1 - a • M) ^ j *ᵥ (x - s))) ∧
    ((∀ (v : Fin n → K) host, ((op.hessian (.ofVec b v)).exec host).1 = .ok (.ofMat b M)) →
      IsUnit M.det →
      ∀ g : K, Unasked P (start (.newton ⟨.finite g⟩)) →
        ∃ final, (execute P).exec (start (.newton ⟨.finite g⟩)) = (.ok (), final) ∧
          final.progress.iter = k ∧
          final.progress.param = .ofVec b (s + (1 - g) ^ k • (x - s)) ∧
          (g = 1 → 1 ≤ k → final.progress.param = .ofVec b s) ∧
          ∀ j, k = j + 1 → final.progress.prevParam = .ofVec b (s + (1 - g) ^ j • (x - s))) := by
  intro P start
  -- A run along a path from `x` ends at the point with the number of its cap.
  have hends {m : Method (Exact K)} {N : Matrix (Fin n) (Fin n) K}
      (h : Steers P m fun i => .ofVec b (approach N s x i)) (hcalm : Unasked P (start m)) :
      ∃ final, (execute P).exec (start m) = (.ok (), final) ∧ final.progress.iter = k ∧
        final.progress.param = .ofVec b (approach N s x k) ∧
        ∀ j, k = j + 1 → final.progress.prevParam = .ofVec b (approach N s x j) := by
    have hstart := onPath_fresh P m (fun i => .ofVec b (approach N s x i)) session ws
    rw [approach_zero] at hstart
    obtain ⟨final, hrun, hiter, -, hparam, hprev⟩ := h.execute_eq hO rfl rfl hstart hws hcalm
    exact ⟨final, hrun, hiter, hparam, hprev⟩
  constructor
  · intro a hcalm
    exact hends (Landweber.steers hs hgradient a x) hcalm
  · intro hhessian hM g hcalm
    obtain ⟨final, hrun, hiter, hparam, hprev⟩ :=
      hends (Newton.steers hs hM hgradient hhessian g x) hcalm
    rw [approach_smul_one] at hparam
    refine ⟨final, hrun, hiter, hparam, ?_, fun j hj => ?_⟩
    · rintro rfl hk
      rw [hparam, sub_self, zero_pow (by omega), zero_smul, add_zero]
    · rw [hprev j hj, approach_smul_one]

/-- The function `x² + x y + y² - 3 x - 3 y`, which is least at `(1, 1)`. -/
def valley : Quadratic (Exact ℚ) := .ofMat .array !![2, 1; 1, 2] ![3, 3]

/-- At most three steps on it. -/
def valleyPlan : Plan (Method (Exact ℚ)) Unit Empty (Exact ℚ) :=
  plan ⟨valley.operator, true⟩ noObserver ⟨3, -Scalar.infinity, true⟩

/-- From the point `(9, -7)`. -/
def valleyStart (m : Method (Exact ℚ)) : Run (Method (Exact ℚ)) Unit Empty (Exact ℚ) :=
  fresh valleyPlan (.ofVec .array ![9, -7]) none none none m (.start ()) []

/-- Halved steps of both methods.  The start is an eigenvector away from the minimum, so that each of
    them halves the distance. -/
theorem fixed_steps_closed_form_valley :
    (∃ final, (execute valleyPlan).exec (valleyStart (.landweber ⟨.finite (1 / 2), false⟩)) =
      (.ok (), final) ∧ final.progress.param = .ofVec .array ![2, 0] ∧
        final.progress.prevParam = .ofVec .array ![3, -1]) ∧
    ∃ final, (execute valleyPlan).exec (valleyStart (.newton ⟨.finite (1 / 2)⟩)) = (.ok (), final) ∧
      final.progress.param = .ofVec .array ![2, 0] ∧
        final.progress.prevParam = .ofVec .array ![3, -1] := by
  have hcalm (m : Method (Exact ℚ)) (hm : m.BuiltIn) : Unasked valleyPlan (valleyStart m) :=
    fun i hi => calm_of_pointwise valley.pointwise hm hi
  -- The valley is the quadratic with Hessian ((2, 1), (1, 2)) and its minimum at (1, 1).
  have hM : IsUnit (!![2, 1; 1, 2] : Matrix (Fin 2) (Fin 2) ℚ).det := by
    rw [det_fin_two_of, isUnit_iff_ne_zero]
    norm_num
  have hminimum : (!![2, 1; 1, 2] : Matrix (Fin 2) (Fin 2) ℚ) *ᵥ ![1, 1] = ![3, 3] := by decide +kernel
  have hgradient (v : Fin 2 → ℚ) (host : Host Unit) :
      ((valley.operator.gradient (.ofVec .array v)).exec host).1 =
        .ok (.ofVec .array (!![2, 1; 1, 2] *ᵥ v - ![3, 3])) :=
    Quadratic.gradient_ofMat .array _ _ v
  have hhessian (v : Fin 2 → ℚ) (host : Host Unit) :
      ((valley.operator.hessian (.ofVec .array v)).exec host).1 = .ok (.ofMat .array !![2, 1; 1, 2]) :=
    Quadratic.hessian_ofMat .array !![2, 1; 1, 2] ![3, 3] (by decide)
  obtain ⟨hlandweber, hnewton⟩ := fixed_steps_closed_form hminimum hgradient true noObserver_quiet
    nobody_attentive true (.start ()) ![9, -7] 3
  constructor
  · obtain ⟨final, hrun, -, hparam, hprev⟩ := hlandweber (1 / 2) (hcalm _ trivial)
    refine ⟨final, hrun, hparam.trans ?_, (hprev 2 rfl).trans ?_⟩
    · decide +kernel
    · decide +kernel
  · obtain ⟨final, hrun, -, hparam, -, hprev⟩ := hnewton hhessian hM (1 / 2) (hcalm _ trivial)
    refine ⟨final, hrun, hparam.trans ?_, (hprev 2 rfl).trans ?_⟩
    · decide +kernel
    · decide +kernel

end Minimization
