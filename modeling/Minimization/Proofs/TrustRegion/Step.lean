import Minimization.Method.TrustRegion
import Minimization.Proofs.Contract.Ends
import Minimization.Proofs.Progress.Merge

namespace Minimization.TrustRegion

/-!
# A step of a trust-region method, taken apart

A step asks for a direction inside the region, looks at the cost where it leads, and then takes the
new point or keeps the old one.  Proofs about trust regions go through the lemmas about these parts and
do not unfold `step` again.

* `Trial` — what a step finds out before it decides.
* `Trial.Made` — how it finds it out.
* `Trial.Reports` — what it reports: the new point with all that is known there, or the old one.
* `ends_init_iff`, `ends_terminate_iff`, `ends_subproblemStep_of` — the start of a run, its stopping
  rule, and the run inside a step.
* `explore`, `attempt`, `conclude` — a trial, the trial with the change of the radius, and the decision;
  `step_parts` puts them together, and `explore_parts` takes a trial apart once more.
* `ends_explore_of`, `ends_conclude_iff` — all that a trial and a decision can come to.
* `ends_step_trial` — what a step comes to as a whole.
-/

variable {ω α : Type} [Scalar α]

/-- What a step finds out before it decides. -/
structure Trial (α : Type) where
  /-- The step inside the region. -/
  direction : Tensor α
  /-- Where it leads. -/
  point : Tensor α
  cost : α
  /-- The decrease of the cost that the model predicts. -/
  predicted : α
  length : α

namespace Trial

/-- Actual by predicted decrease, where the step starts at the given cost. -/
def ratio (t : Trial α) (cost : α) : α := TrustRegion.ratio cost t.cost t.predicted

/-- The step is good enough, and the cost there is a number. -/
def isTaken (t : Trial α) (cost acceptance : α) : Bool :=
  Scalar.lt acceptance (t.ratio cost) && Scalar.isFinite t.cost

/-- The trial is the one that a step from `w` makes, with gradient and Hessian as they are known. -/
structure Made (A : Setting ω α) (p : Progress α) (w : Workspace (TrustRegion α) ω)
    (g h : Tensor α) (t : Trial α) : Prop where
  gradient : p.gradient = some g
  hessian : p.hessian = some h
  direction : ((subproblemStep A p.param g h).exec w).1 = .ok t.direction
  point : Backend.add p.param t.direction = .ok t.point
  cost : (Session.cost A.operator t.point).Yields t.cost
  predicted : predictedDecrease p.param.backend p.cost g h t.direction = .ok t.predicted
  length : p.param.backend.norm t.direction = .ok t.length

/-- What is reported of a trial. -/
inductive Reports (A : Setting ω α) (p : Progress α) (g h : Tensor α) (t : Trial α)
    (acceptance : α) : Report α → Prop
  /-- The new point, with the derivatives there. -/
  | taken {v m : Tensor α} (notes : Notes α) (htaken : t.isTaken p.cost acceptance = true)
      (hv : (Session.gradient A.operator t.point).Yields v)
      (hm : (Session.hessian A.operator t.point).Yields m) :
      Reports A p g h t acceptance ⟨some t.point, some t.cost, some v, some m, notes⟩
  /-- The old point, with what is known there. -/
  | kept (notes : Notes α) (hkept : t.isTaken p.cost acceptance = false) :
      Reports A p g h t acceptance ⟨some p.param, some p.cost, some g, some h, notes⟩

end Trial

variable {A : Setting ω α} {p : Progress α} {w : Workspace (TrustRegion α) ω} {E : Failure α → Prop}

/-! ### The parts of a step -/

/-- The start evaluates all that there is. -/
theorem ends_init_iff {Q : Option (Report α) → Workspace (TrustRegion α) ω → Prop} :
    (solver.init A p).Ends w Q E ↔
      (Session.cost A.operator p.param).Ends w.session (fun c t =>
        (Session.gradient A.operator p.param).Ends t (fun g t =>
          (Session.hessian A.operator p.param).Ends t (fun h t =>
            Q (some ⟨some p.param, some c, some g, some h, []⟩) ⟨w.solver, t⟩) E) E) E := by
  show (init A p).Ends _ _ _ ↔ _
  unfold init
  simp only [Action.ends_bind, Action.ends_pure, Workspace.ends_onSession]

/-- The stopping rule looks at the settings and leaves them as they are. -/
theorem ends_terminate_iff {Q : Reason → Workspace (TrustRegion α) ω → Prop} :
    (solver.terminate p).Ends w Q E ↔
      (Action.ofExcept (terminate w.solver p)).Ends w.session (fun own t => Q own ⟨w.solver, t⟩) E := by
  show (Workspace.readSolver >>= fun s => Action.ofExcept (terminate s p)).Ends _ _ _ ↔ _
  rw [Action.ends_bind, Workspace.ends_readSolver, Workspace.ends_ofExcept]

/-- **The run inside a step** is one of the dogleg method, which is given the radius; it touches nothing
    else. -/
theorem ends_subproblemStep_of {x g h : Tensor α}
    {Q : Tensor α → Workspace (TrustRegion α) ω → Prop}
    (hradius : ∀ e, w.solver.subproblem.setRadius w.solver.radius = .error e → E e)
    (hrun : ∀ d, w.solver.subproblem.setRadius w.solver.radius = (.ok d : Except (Failure α) _) →
      (Run.nested Dogleg.solver A fun c => Run.seeded x c.maxIters none (some g) (some h)).Ends
        ⟨d, w.session⟩ (fun found v => Q found.param
          ⟨{ w.solver with subproblem := .dogleg v.solver }, v.session⟩) E) :
    (subproblemStep A x g h).Ends w Q E := by
  unfold subproblemStep
  -- Setting the radius is all that comes before the nested run, and only an unsuited subproblem refuses
  -- it.
  simp only [Action.ends_bind, Workspace.ends_readSolver]
  refine Action.ends_ofExcept (fun d hd => ?_) hradius
  rw [Workspace.ends_within]
  exact hrun d hd

/-- A trial up to the change of the radius. -/
def explore (A : Setting ω α) (p : Progress α) :
    Action (Workspace (TrustRegion α) ω) α (Tensor α × Tensor α × Trial α) := do
  let x := p.param
  let gradient ← Action.ofExcept p.requireGradient
  let hessian ← Action.ofExcept p.requireHessian
  let direction ← subproblemStep A x gradient hessian
  let newX ← Action.ofExcept (Backend.add x direction)
  let newCost ← Workspace.onSession (Session.cost A.operator newX)
  let predicted ← Action.ofExcept (predictedDecrease x.backend p.cost gradient hessian direction)
  let length ← Action.ofExcept (x.backend.norm direction)
  return (gradient, hessian, ⟨direction, newX, newCost, predicted, length⟩)

/-- What a trial finds out where the run inside the step has led. -/
def weigh (A : Setting ω α) (p : Progress α) (gradient hessian direction : Tensor α) :
    Action (Workspace (TrustRegion α) ω) α (Trial α) := do
  let point ← Action.ofExcept (Backend.add p.param direction)
  let cost ← Workspace.onSession (Session.cost A.operator point)
  let predicted ← Action.ofExcept
    (predictedDecrease p.param.backend p.cost gradient hessian direction)
  let length ← Action.ofExcept (p.param.backend.norm direction)
  return ⟨direction, point, cost, predicted, length⟩

/-- A trial asks for the derivatives that are known, then for a direction, and weighs it. -/
theorem explore_parts (A : Setting ω α) (p : Progress α) : explore A p = (do
    let gradient ← Action.ofExcept p.requireGradient
    let hessian ← Action.ofExcept p.requireHessian
    let direction ← subproblemStep A p.param gradient hessian
    let t ← weigh A p gradient hessian direction
    return (gradient, hessian, t)) := by
  unfold explore weigh
  simp only [bind_assoc, pure_bind]

/-- A step up to its decision: gradient and Hessian as they are known, and the trial.  The radius has
    been changed by then. -/
def attempt (A : Setting ω α) (p : Progress α) :
    Action (Workspace (TrustRegion α) ω) α (Tensor α × Tensor α × Trial α) := do
  let x := p.param
  let gradient ← Action.ofExcept p.requireGradient
  let hessian ← Action.ofExcept p.requireHessian
  let direction ← subproblemStep A x gradient hessian
  let newX ← Action.ofExcept (Backend.add x direction)
  let newCost ← Workspace.onSession (Session.cost A.operator newX)
  let predicted ← Action.ofExcept (predictedDecrease x.backend p.cost gradient hessian direction)
  let length ← Action.ofExcept (x.backend.norm direction)
  Workspace.modifySolver fun s =>
    { s with radius := s.nextRadius (ratio p.cost newCost predicted) length }
  return (gradient, hessian, ⟨direction, newX, newCost, predicted, length⟩)

/-- The rest of a step. -/
def conclude (A : Setting ω α) (p : Progress α) (gradient hessian : Tensor α) (t : Trial α) :
    Action (Workspace (TrustRegion α) ω) α (Report α) := do
  let s ← Workspace.readSolver
  let notes := [("radius", .number s.radius), ("rho", .number (t.ratio p.cost))]
  if t.isTaken p.cost s.acceptance then
    let newGradient ← Workspace.onSession (Session.gradient A.operator t.point)
    let newHessian ← Workspace.onSession (Session.hessian A.operator t.point)
    return {
      param := some t.point, cost := some t.cost, gradient := some newGradient
      hessian := some newHessian, notes := notes }
  else
    return {
      param := some p.param, cost := some p.cost, gradient := some gradient, hessian := some hessian
      notes := notes }

/-- The method after a trial. -/
def resized (s : TrustRegion α) (p : Progress α) (t : Trial α) : TrustRegion α :=
  { s with radius := s.nextRadius (t.ratio p.cost) t.length }

/-- The radius changes after all that may fail in a trial. -/
theorem attempt_eq (A : Setting ω α) (p : Progress α) : attempt A p = (do
    let (gradient, hessian, t) ← explore A p
    Workspace.modifySolver (resized · p t)
    return (gradient, hessian, t)) := by
  unfold attempt explore
  simp only [bind_assoc, pure_bind]
  rfl

/-- A step is a trial and a decision. -/
theorem step_parts (A : Setting ω α) (p : Progress α) : step A p = (do
    let (gradient, hessian, t) ← attempt A p
    conclude A p gradient hessian t) := by
  unfold step attempt conclude
  simp only [bind_assoc, pure_bind]
  rfl

/-! ### What the parts come to -/

/-- **A trial** evaluates one cost, where the run inside the step has led. -/
theorem ends_explore_of {Q : Tensor α × Tensor α × Trial α → Workspace (TrustRegion α) ω → Prop}
    (hrun : ∀ g h, p.gradient = some g → p.hessian = some h →
      (subproblemStep A p.param g h).Ends w (fun direction v =>
        ∀ x, Backend.add p.param direction = .ok x →
          (Session.cost A.operator x).Ends v.session (fun c u => ∀ predicted length,
            predictedDecrease p.param.backend p.cost g h direction = .ok predicted →
            p.param.backend.norm direction = .ok length →
            Q (g, h, ⟨direction, x, c, predicted, length⟩) ⟨v.solver, u⟩) fun _ => True)
        fun _ => True) : (explore A p).Ends w Q fun _ => True := by
  unfold explore
  simp only [Action.ends_bind]
  -- Both derivatives, the step of the subproblem, the new point and its cost, then two calculations.
  refine Action.ends_ofExcept (fun g hg => ?_) fun _ _ => trivial
  refine Action.ends_ofExcept (fun h hh => ?_) fun _ _ => trivial
  refine (hrun g h (ProgressOn.requireGradient_eq_ok_iff.1 hg)
    (ProgressOn.requireHessian_eq_ok_iff.1 hh)).mono fun direction v hcost => ?_
  refine Action.ends_ofExcept (fun x hx => ?_) fun _ _ => trivial
  rw [Workspace.ends_onSession]
  refine (hcost x hx).mono fun c u hQ => ?_
  refine Action.ends_ofExcept (fun predicted hpredicted => ?_) fun _ _ => trivial
  exact Action.ends_ofExcept (hQ predicted · hpredicted) fun _ _ => trivial

/-- How the trial is made; the run inside it leaves nothing but its own memory. -/
theorem ends_explore (A : Setting ω α) (p : Progress α) (w : Workspace (TrustRegion α) ω) :
    (explore A p).Ends w (fun found v => found.2.2.Made A p w found.1 found.2.1 ∧
      ∃ d, v.solver = { w.solver with subproblem := d }) fun _ => True := by
  refine ends_explore_of fun g h hg hh => ?_
  -- A subproblem writes to itself only.
  have hframe : (subproblemStep A p.param g h).Ends w
      (fun _ v => ∃ d, v.solver = { w.solver with subproblem := d }) fun _ => True :=
    ends_subproblemStep_of (fun _ _ => trivial) fun d _ =>
      (Action.ends_anyhow _ _).mono fun found v _ => ⟨.dogleg v.solver, rfl⟩
  refine hframe.executed.mono ?_
  rintro direction v ⟨hexec, hd⟩ x hx
  refine (Action.ends_yields _ _).mono fun c u hc predicted length hpredicted hlength => ⟨?_, hd⟩
  exact ⟨hg, hh, by rw [hexec], hx, hc, hpredicted, hlength⟩

/-- **The decision** evaluates both derivatives at the new point, or nothing. -/
theorem ends_conclude_iff {g h : Tensor α} {t : Trial α}
    {Q : Report α → Workspace (TrustRegion α) ω → Prop} : (conclude A p g h t).Ends w Q E ↔
      if t.isTaken p.cost w.solver.acceptance then
        (Session.gradient A.operator t.point).Ends w.session (fun v s =>
          (Session.hessian A.operator t.point).Ends s (fun m u =>
            Q ⟨some t.point, some t.cost, some v, some m,
              [("radius", .number w.solver.radius), ("rho", .number (t.ratio p.cost))]⟩
              ⟨w.solver, u⟩) E) E
      else Q ⟨some p.param, some p.cost, some g, some h,
        [("radius", .number w.solver.radius), ("rho", .number (t.ratio p.cost))]⟩ w := by
  unfold conclude
  simp only [Action.ends_bind, Action.ends_ite, Action.ends_pure, Workspace.ends_readSolver,
    Workspace.ends_onSession]

/-- **A step makes one trial**, sets the radius by it, and takes the new point or keeps the old. -/
theorem ends_step_trial (A : Setting ω α) (p : Progress α) (s : TrustRegion α)
    (session : Session ω) :
    (solver.step A p).Ends ⟨s, session⟩
      (fun report w => ∃ g h t, Trial.Made A p ⟨s, session⟩ g h t ∧
        t.Reports A p g h s.acceptance report ∧ ∃ d, w.solver =
          { s with subproblem := d, radius := s.nextRadius (t.ratio p.cost) t.length })
      fun _ => True := by
  show (step A p).Ends _ _ _
  -- The radius is written between the trial and the decision, which is why the step is split there.
  rw [step_parts, attempt_eq]
  simp only [bind_assoc, pure_bind, Action.ends_bind, Workspace.ends_modifySolver]
  refine (ends_explore A p ⟨s, session⟩).mono ?_
  rintro ⟨g, h, t⟩ ⟨_, session'⟩ ⟨hmade, d, rfl⟩
  refine ends_conclude_iff.2 ?_
  split
  · next htaken =>
    refine (Action.ends_yields _ _).mono fun v _ hv => ?_
    refine (Action.ends_yields _ _).mono fun m _ hm => ?_
    exact ⟨g, h, t, hmade, .taken _ htaken hv hm, d, rfl⟩
  · next hkept =>
    exact ⟨g, h, t, hmade, .kept _ (Bool.eq_false_iff.2 hkept), d, rfl⟩

end Minimization.TrustRegion
