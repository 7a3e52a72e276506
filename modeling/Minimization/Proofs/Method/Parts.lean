import Minimization.Method.Basic
import Minimization.Proofs.Contract.Ends
import Minimization.Proofs.LineSearch.Start

namespace Minimization

/-!
# The methods, part by part

What the start and the step of a method do, said once for each of them.  The proofs about these methods
go through the lemmas below and do not open the functions again; the lemmas say what has to be shown of
the evaluations, one after another, for a step to end in some way.  The trust-region method, whose step
has parts of its own, has them beside its trial.

* `Landweber.ends_step_iff`, `Newton.ends_step_iff`, `Dogleg.ends_step_iff` — steps without a search;
  `Newton.target` is where one of Newton's steps leads.
* `SteepestDescent.step_parts`, `SteepestDescent.ends_step_iff` — a step evaluates and then searches.
* `QuasiNewton.step_parts`, `QuasiNewton.ends_step_of` — a step aims, searches and learns;
  `QuasiNewton.ends_learn_iff` — what it learns from the point that its search has found, and
  `QuasiNewton.ends_step_report` — what it reports.
-/

variable {ω α : Type} [Scalar α] {A : Setting ω α} {p : Progress α} {E : Failure α → Prop}

/-! ### Steps without a search -/

/-- **A step of Landweber iteration** evaluates one gradient, and the cost where the step leads if the
    costs are wanted. -/
theorem Landweber.ends_step_iff {w : Workspace (Landweber α) ω}
    {Q : Report α → Workspace (Landweber α) ω → Prop} : (solver.step A p).Ends w Q E ↔
      (Session.gradient A.operator p.param).Ends w.session (fun g t =>
        (Action.ofExcept (p.param.backend.scaledSub p.param w.solver.omega g)).Ends t (fun x t =>
          if w.solver.costing then
            (Session.cost A.operator x).Ends t
              (fun c u => Q { param := some x, cost := some c } ⟨w.solver, u⟩) E
          else Q { param := some x } ⟨w.solver, t⟩) E) E := by
  show (step A p).Ends _ _ _ ↔ _
  unfold step
  simp only [Action.ends_bind, Action.ends_ite, Action.ends_pure, Workspace.ends_readSolver,
    Workspace.ends_onSession, Workspace.ends_ofExcept]

/-- Where a Newton step leads. -/
def Newton.target (s : Newton α) (x gradient hessian : Tensor α) : Except (Failure α) (Tensor α) := do
  let inverse ← x.backend.inv hessian
  let direction ← Backend.apply inverse gradient
  x.backend.scaledSub x s.gamma direction

/-- A step evaluates one gradient and one Hessian, and the rest is calculated. -/
theorem Newton.step_eq (A : Setting ω α) (p : Progress α) : step A p = (do
    let s ← Workspace.readSolver
    let gradient ← Workspace.onSession (Session.gradient A.operator p.param)
    let hessian ← Workspace.onSession (Session.hessian A.operator p.param)
    let x ← Action.ofExcept (s.target p.param gradient hessian)
    return { param := some x }) := by
  unfold step target
  simp only [Action.ofExcept_bind, bind_assoc]

/-- **A step of Newton's method** evaluates one gradient and one Hessian. -/
theorem Newton.ends_step_iff {w : Workspace (Newton α) ω}
    {Q : Report α → Workspace (Newton α) ω → Prop} : (solver.step A p).Ends w Q E ↔
      (Session.gradient A.operator p.param).Ends w.session (fun g t =>
        (Session.hessian A.operator p.param).Ends t (fun h t =>
          (Action.ofExcept (w.solver.target p.param g h)).Ends t
            (fun x t => Q { param := some x } ⟨w.solver, t⟩) E) E) E := by
  show (step A p).Ends _ _ _ ↔ _
  rw [step_eq]
  simp only [Action.ends_bind, Action.ends_pure, Workspace.ends_readSolver, Workspace.ends_onSession,
    Workspace.ends_ofExcept]

/-- **A dogleg step** needs a radius, and gradient and Hessian as they are known or evaluated. -/
theorem Dogleg.ends_step_iff {w : Workspace (Dogleg α) ω}
    {Q : Report α → Workspace (Dogleg α) ω → Prop} : (solver.step A p).Ends w Q E ↔
      if Scalar.isNaN w.solver.radius then E (.impossible .radiusMissing)
      else (Session.knownGradient A p).Ends w.session (fun g t =>
        (Session.knownHessian A p).Ends t (fun h t =>
          (Action.ofExcept (path p.param.backend w.solver g h)).Ends t
            (fun report t => Q report ⟨w.solver, t⟩) E) E) E := by
  show (step A p).Ends _ _ _ ↔ _
  rw [step_eq]
  simp only [Action.ends_bind, Action.ends_ite, Workspace.ends_readSolver, Workspace.ends_onSession,
    Workspace.ends_ofExcept]
  rfl

/-! ### Steepest descent -/

namespace SteepestDescent

/-- Cost and gradient at a point. -/
def measure (A : Setting ω α) (x : Tensor α) : Action (Workspace (LineSearch α) ω) α (α × Tensor α) := do
  let cost ← Workspace.onSession (Session.cost A.operator x)
  let gradient ← Workspace.onSession (Session.gradient A.operator x)
  return (cost, gradient)

/-- A step of steepest descent evaluates, then searches. -/
theorem step_parts (A : Setting ω α) (p : Progress α) : step A p = (do
    let (cost, gradient) ← measure A p.param
    let found ← LineSearch.run A p.param (some (p.param.backend.scale gradient (-1.0)))
      (some cost) (some gradient)
    return { param := some found.param, cost := some found.cost }) := by
  unfold step measure
  simp only [bind_assoc, pure_bind]

/-- **A step** hands cost and gradient at its point to a search. -/
theorem ends_step_iff {w : Workspace (LineSearch α) ω}
    {Q : Report α → Workspace (LineSearch α) ω → Prop} : (solver.step A p).Ends w Q E ↔
      (Session.cost A.operator p.param).Ends w.session (fun c t =>
        (Session.gradient A.operator p.param).Ends t (fun g t =>
          (LineSearch.run A p.param (some (p.param.backend.scale g (-1.0))) (some c) (some g)).Ends
            ⟨w.solver, t⟩ (fun found v => Q { param := some found.param, cost := some found.cost } v)
            E) E) E := by
  show (step A p).Ends _ _ _ ↔ _
  rw [step_parts]
  unfold measure
  simp only [Action.ends_bind, Action.ends_pure, Workspace.ends_onSession]

end SteepestDescent

/-! ### The quasi-Newton method -/

namespace QuasiNewton

/-- The start evaluates cost and gradient. -/
theorem ends_init_iff {w : Workspace (QuasiNewton α) ω}
    {Q : Option (Report α) → Workspace (QuasiNewton α) ω → Prop} : (solver.init A p).Ends w Q E ↔
      (Session.cost A.operator p.param).Ends w.session (fun c t =>
        (Session.gradient A.operator p.param).Ends t (fun g t =>
          Q (some { param := some p.param, cost := some c, gradient := some g }) ⟨w.solver, t⟩) E)
        E := by
  show (init A p).Ends _ _ _ ↔ _
  unfold init
  simp only [Action.ends_bind, Action.ends_pure, Workspace.ends_onSession]

/-- The old gradient and the direction of the next search. -/
def aim (p : Progress α) : Action (Workspace (QuasiNewton α) ω) α (Tensor α × Tensor α × Tensor α) := do
  let oldGradient ← Action.ofExcept p.requireGradient
  let h := (← Workspace.readSolver).inverseHessian
  let image ← Action.ofExcept (Backend.apply h oldGradient)
  return (oldGradient, h, p.param.backend.scale image (-1.0))

/-- What a quasi-Newton step does after its search. -/
def learn (A : Setting ω α) (x oldGradient h : Tensor α) (found : Progress α) :
    Action (Workspace (QuasiNewton α) ω) α (Report α) := do
  let gradient ← Workspace.onSession (Session.gradient A.operator found.param)
  let y ← Action.ofExcept (Backend.sub gradient oldGradient)
  let s ← Action.ofExcept (Backend.sub found.param x)
  let update ← Action.ofExcept (secantUpdate h s y)
  let refined ← Workspace.onSession (refine h update)
  Workspace.modifySolver fun m => { m with inverseHessian := refined }
  return { param := some found.param, cost := some found.cost, gradient := some gradient }

/-- A quasi-Newton step aims, searches and learns. -/
theorem step_parts (A : Setting ω α) (p : Progress α) : step A p = (do
    let (oldGradient, h, direction) ← aim p
    let found ← Workspace.within (·.search) (fun search s => { s with search := search })
      (LineSearch.run A p.param (some direction) (some p.cost) (some oldGradient))
    learn A p.param oldGradient h found) := by
  unfold step aim learn
  simp only [bind_assoc, pure_bind]

/-- Where a step has a gradient to start from, its direction is found out. -/
theorem exec_aim {g image : Tensor α} {w : Workspace (QuasiNewton α) ω}
    (hgradient : p.requireGradient = .ok g)
    (himage : Backend.apply w.solver.inverseHessian g = .ok image) : (aim p).exec w =
      (.ok (g, w.solver.inverseHessian, p.param.backend.scale image (-1.0)), w) := by
  have hread : (Workspace.readSolver : Action (Workspace (QuasiNewton α) ω) α _).exec w =
      (.ok w.solver, w) := rfl
  unfold aim
  rw [hgradient, Action.exec_bind, Action.exec_ofExcept]
  dsimp only
  rw [Action.exec_bind, hread]
  dsimp only
  rw [himage, Action.exec_bind, Action.exec_ofExcept]
  rfl

/-- **A step** searches in the direction that the inverse Hessian tells, and learns from what has been
    found. -/
theorem ends_step_of {s : QuasiNewton α} {t : Session ω}
    {Q : Report α → Workspace (QuasiNewton α) ω → Prop}
    (hgradient : ∀ e, p.requireGradient = .error e → E e)
    (himage : ∀ g e, p.requireGradient = .ok g → Backend.apply s.inverseHessian g = .error e → E e)
    (hsearch : ∀ g image, p.requireGradient = .ok g → Backend.apply s.inverseHessian g = .ok image →
      (LineSearch.run A p.param (some (p.param.backend.scale image (-1.0))) (some p.cost)
        (some g)).Ends ⟨s.search, t⟩ (fun found v =>
          (learn A p.param g s.inverseHessian found).Ends
            ⟨{ s with search := v.solver }, v.session⟩ Q E) E) : (solver.step A p).Ends ⟨s, t⟩ Q E := by
  show (step A p).Ends _ _ _
  rw [step_parts]
  unfold aim
  simp only [Action.ends_bind]
  -- The aim reads the solver and calculates; no evaluation comes before the search.
  refine Action.ends_ofExcept (fun g hg => ?_) hgradient
  rw [Workspace.ends_readSolver]
  refine Action.ends_ofExcept (fun image hi => ?_) fun e => himage g e hg
  simp only [Action.ends_pure, Workspace.ends_within]
  exact hsearch g image hg hi

/-- The update after a search that has led from `x` to `x'`, and the gradients there. -/
def revision (h x gradient x' gradient' : Tensor α) : Except (Failure α) (α × Option (Tensor α)) := do
  let y ← Backend.sub gradient' gradient
  let s ← Backend.sub x' x
  secantUpdate h s y

/-- What follows a search, with its calculations as one. -/
theorem learn_parts (A : Setting ω α) (x oldGradient h : Tensor α) (found : Progress α) :
    learn A x oldGradient h found = (do
      let gradient ← Workspace.onSession (Session.gradient A.operator found.param)
      let update ← Action.ofExcept (revision h x oldGradient found.param gradient)
      let refined ← Workspace.onSession (refine h update)
      Workspace.modifySolver fun m => { m with inverseHessian := refined }
      return { param := some found.param, cost := some found.cost, gradient := some gradient }) := by
  unfold learn revision
  simp only [Action.ofExcept_bind, bind_assoc]

/-- The session after an update: if that is skipped, there is a warning. -/
def noted : α × Option (Tensor α) → Session ω → Session ω
  | (_, some _), t => t
  | (curvature, none), t => { t with
      logbook := t.logbook.emit warningLevel Logbook.quasiNewtonLogger fun _ => skipLine curvature }

/-- A warning is all that is noted. -/
@[simp] theorem noted_host (update : α × Option (Tensor α)) (t : Session ω) :
    (noted update t).host = t.host := by
  obtain ⟨curvature, _ | m⟩ := update <;> rfl

/-- No evaluation is made for it. -/
@[simp] theorem noted_counts (update : α × Option (Tensor α)) (t : Session ω) :
    (noted update t).counts = t.counts := by
  obtain ⟨curvature, _ | m⟩ := update <;> rfl

/-- A skipped update leaves the matrix as it is. -/
@[simp] theorem ends_refine {h : Tensor α} {update : α × Option (Tensor α)} {t : Session ω}
    {Q : Tensor α → Session ω → Prop} :
    (refine h update).Ends t Q E ↔ Q (update.2.getD h) (noted update t) := by
  obtain ⟨curvature, _ | m⟩ := update <;> rfl

/-- **What follows a search** evaluates one gradient, and revises the matrix. -/
theorem ends_learn_iff {x oldGradient h : Tensor α} {found : Progress α}
    {w : Workspace (QuasiNewton α) ω} {Q : Report α → Workspace (QuasiNewton α) ω → Prop} :
    (learn A x oldGradient h found).Ends w Q E ↔
      (Session.gradient A.operator found.param).Ends w.session (fun v t =>
        (Action.ofExcept (revision h x oldGradient found.param v)).Ends t (fun update t =>
          Q { param := some found.param, cost := some found.cost, gradient := some v }
            ⟨{ w.solver with inverseHessian := update.2.getD h }, noted update t⟩) E) E := by
  rw [learn_parts]
  simp only [Action.ends_bind, Action.ends_pure, Workspace.ends_onSession, Workspace.ends_ofExcept,
    Workspace.ends_modifySolver, ends_refine]

/-- What is reported after a search: the point and the cost that it has found, and the gradient there. -/
theorem ends_learn_report (x oldGradient h : Tensor α) (found : Progress α)
    (w : Workspace (QuasiNewton α) ω) : (learn A x oldGradient h found).Ends w
      (fun report _ => ∃ v, (Session.gradient A.operator found.param).Yields v ∧
        report = { param := some found.param, cost := some found.cost, gradient := some v })
      fun _ => True :=
  ends_learn_iff.2 <| (Action.ends_yields _ _).mono fun v _ hv =>
    Action.ends_ofExcept (fun _ _ => ⟨v, hv, rfl⟩) fun _ _ => trivial

/-- So does a whole step. -/
theorem ends_step_report (p : Progress α) (w : Workspace (QuasiNewton α) ω) : (solver.step A p).Ends w
    (fun report _ => ∃ (found : Progress α) (v : Tensor α),
      (Session.gradient A.operator found.param).Yields v ∧
        report = { param := some found.param, cost := some found.cost, gradient := some v })
    fun _ => True :=
  ends_step_of (fun _ _ => trivial) (fun _ _ _ _ => trivial) fun _ _ _ _ =>
    (Action.ends_anyhow _ _).mono fun found _ _ =>
      (ends_learn_report _ _ _ found _).mono fun _ _ hv => ⟨found, hv⟩

end QuasiNewton

end Minimization
