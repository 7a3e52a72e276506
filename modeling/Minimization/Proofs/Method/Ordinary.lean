import Minimization.Proofs.Contract.Ordinary
import Minimization.Proofs.LineSearch.Parts
import Minimization.Proofs.TrustRegion.Step

namespace Minimization

/-!
# The solvers are ordinary

* `Inquiry.knownCost`, `Inquiry.refine` and the lemmas beside them — evaluations and log lines.
* `Landweber.ordinary`, `Newton.ordinary`, `Dogleg.ordinary` — solvers that run no other solver, with any
  property of the memory.
* `Line.ordinary_begin`, `StrongWolfe.ordinary_judge` — the parts of a line search;
  `LineSearch.ordinary` — the searches, which keep their settings.
* `SteepestDescent.ordinary_measure`, `QuasiNewton.ordinary_aim`, `QuasiNewton.ordinary_learn`,
  `TrustRegion.ordinary_weigh`, `TrustRegion.ordinary_conclude` — the parts of the other solvers, between
  which they run another one.
-/

variable {σ α β : Type}

/-! ### Inquiries -/

namespace Inquiry

/-- The cost is evaluated unless it is known. -/
theorem knownCost [Scalar α] (p : Progress α) : Inquiry fun _ A => Session.knownCost A p := by
  unfold Session.knownCost
  split
  · exact .cost p.param
  · exact .pure p.cost

/-- So is the gradient. -/
theorem knownGradient (p : Progress α) : Inquiry fun _ A => Session.knownGradient A p := by
  unfold Session.knownGradient
  split
  · exact .pure _
  · exact .gradient p.param

/-- So is the Hessian. -/
theorem knownHessian (p : Progress α) : Inquiry fun _ A => Session.knownHessian A p := by
  unfold Session.knownHessian
  split
  · exact .pure _
  · exact .hessian p.param

/-- An update that is skipped leaves a warning in the log. -/
theorem refine [Scalar α] (h : Tensor α) : ∀ update : α × Option (Tensor α),
    Inquiry fun _ _ => QuasiNewton.refine h update
  | (_, some m) => .pure m
  | (_, none) => .bind (.log _ _ _) fun _ => .pure h

end Inquiry

variable [Scalar α]

/-! ### Solvers on their own -/

/-- A step of Landweber iteration asks for a gradient, and for the cost if the costs are wanted. -/
theorem Landweber.ordinary (I : Landweber α → Prop) : Solver.Ordinary I fun _ => Landweber.solver where
  name _ _ := rfl
  init _ := .pure none
  terminate _ := .pure _
  step p := by
    refine .reading fun s _ => .bind (.onSession (.gradient _)) fun gradient => ?_
    refine .calculating (Backend.uninterrupted_sub _ _) fun x _ => ?_
    -- The cost of the new point is evaluated on request only.
    cases s.costing with
    | true => exact .bind (.onSession (.cost x)) fun cost => .pure _
    | false => exact .pure _

/-- One of Newton's method asks for both derivatives, and calculates. -/
theorem Newton.ordinary (I : Newton α → Prop) : Solver.Ordinary I fun _ => Newton.solver where
  name _ _ := rfl
  init _ := .pure none
  terminate _ := .pure _
  step p := by
    show Ordinary I fun _ A => Newton.step A p
    simp only [Newton.step_eq]
    refine .reading fun s _ => .bind (.onSession (.gradient _)) fun gradient => ?_
    refine .bind (.onSession (.hessian _)) fun hessian => ?_
    exact .calculating (s.uninterrupted_target _ gradient hessian) fun x _ => .pure _

/-- One of the dogleg method fails without a radius, and asks for what is not known. -/
theorem Dogleg.ordinary (I : Dogleg α → Prop) : Solver.Ordinary I fun _ => Dogleg.solver where
  name _ _ := rfl
  init _ := .pure none
  terminate _ := .pure _
  step p := by
    show Ordinary I fun _ A => Dogleg.step A p
    simp only [Dogleg.step_eq]
    -- A missing radius is refused before anything is evaluated.
    refine .reading fun s _ => ?_
    split
    · exact .throw nofun
    · refine .bind (.onSession (.knownGradient p)) fun g => ?_
      refine .bind (.onSession (.knownHessian p)) fun h => ?_
      exact .calculated (Dogleg.uninterrupted_path _ s g h)

/-! ### Line searches -/

/-- It does not matter for `J` how far a search along the line has come. -/
structure Line.Lasting (J : Line α → Prop) : Prop where
  begun : ∀ {l} start, J l → J { l with start := start, trials := 0, done := none }
  finished : ∀ {l} reason, J l → J (l.finish reason)

namespace Line

omit [Scalar α] in
/-- The settings are as they were. -/
theorem lasting_blank (l₀ : Line α) : Lasting (·.blank = l₀) := ⟨fun _ h => h, fun _ h => h⟩

/-- Slope and length decide how a search begins. -/
theorem ordinary_settle {J : Line α → Prop} (hJ : Lasting J) (x d : Tensor α) (c : α) (v : Tensor α) :
    Ordinary J fun _ _ => settle x d c v := by
  refine .calculating (Backend.uninterrupted_dot _ _ _) fun slope _ => ?_
  refine .bind (.modifying fun _ hl => hJ.begun _ hl) fun _ => ?_
  refine .calculating (Backend.uninterrupted_norm _ _) fun length _ => ?_
  -- What follows depends on whether the direction has a length and leads downhill.
  dsimp only
  split
  · exact .bind (.modifying fun _ hl => hJ.finished _ hl) fun _ => .pure _
  · split
    · exact .bind (.throw nofun) fun _ => .pure _
    · exact .pure _

/-- The start of a search. -/
theorem ordinary_begin {J : Line α → Prop} (hJ : Lasting J) (name : String) (p : Progress α) :
    Ordinary J fun _ A => Line.begin name A p := by
  simp only [begin_eq]
  refine .reading fun l _ => ?_
  refine .calculating (l.uninterrupted_requireDirection name) fun d _ => ?_
  refine .bind (.onSession (.knownCost p)) fun c => .bind (.onSession (.knownGradient p)) fun v => ?_
  exact ordinary_settle hJ p.param d c v

end Line

namespace Backtracking

/-- The start, with what is kept of the line and of the search around it. -/
theorem ordinary_init {J : Line α → Prop} {I : Backtracking α → Prop} (hJ : Line.Lasting J)
    (hline : ∀ s, I s → J s.line)
    (hput : ∀ s l step, I s → J l → I { s with line := l, step := step }) (p : Progress α) :
    Ordinary I fun _ A => solver.init A p :=
  .bind (.within hline (fun l s hs hl => hput s l s.step hs hl) (Line.ordinary_begin hJ _ p)) fun _ =>
    .bind (.modifying fun s hs => hput s s.line _ hs (hline s hs)) fun _ => .pure _

/-- A trial keeps the settings. -/
theorem ordinary_trial (b : Backtracking α) : Ordinary (·.blank = b) fun _ A => trial A := by
  simp only [trial_eq]
  refine .reading fun s hs => ?_
  split
  · exact .pure _
  · refine .calculating (s.line.uninterrupted_point _) fun x _ => ?_
    refine .calculating s.line.uninterrupted_requireStart fun start _ => ?_
    refine .bind (.onSession (.cost x)) fun c => ?_
    exact .bind (.modifying fun _ _ => (s.blank_tried start c).trans hs) fun _ => .pure _

/-- **Backtracking** keeps its settings. -/
theorem ordinary (b : Backtracking α) : Solver.Ordinary (·.blank = b) fun _ => solver where
  name _ _ := rfl
  init := ordinary_init (Line.lasting_blank b.line) (by rintro s rfl; rfl) fun _ _ _ => blank_put
  step _ := ordinary_trial b
  terminate _ := .reading fun _ _ => .pure _

end Backtracking

namespace StrongWolfe

/-- The start, with what is kept of the line and of the search around it. -/
theorem ordinary_init {J : Line α → Prop} {I : StrongWolfe α → Prop} (hJ : Line.Lasting J)
    (hline : ∀ s, I s → J s.line)
    (hput : ∀ s l k, I s → J l → I { s with line := l, bracket := k }) (p : Progress α) :
    Ordinary I fun _ A => solver.init A p := by
  refine .bind (.within hline (fun l s hs hl => hput s l s.bracket hs hl) (Line.ordinary_begin hJ _ p))
    fun report => .reading fun s hs => ?_
  refine .calculating s.line.uninterrupted_requireStart fun start _ => ?_
  exact .bind (.modifying fun s hs => hput s s.line _ hs (hline s hs)) fun _ => .pure _

/-- One trial in either phase reads the memory and leaves it as it is. -/
theorem ordinary_judge (I : StrongWolfe α → Prop) (k : Bracket α) :
    Ordinary I fun _ A => judge A k := by
  have hprobe : Ordinary I fun _ A => probe A (next k) :=
    .reading fun s _ => .calculating (s.line.uninterrupted_point _) fun x _ =>
      .bind (.onSession (.cost x)) fun c => .pure _
  have hslope (x : Tensor α) : Ordinary I fun _ A => slopeAt A x :=
    .bind (.onSession (.gradient x)) fun v => .reading fun s _ =>
      .calculating (s.line.uninterrupted_slopeOf v) fun slope _ => .pure _
  refine .bind hprobe fun (x, c) => .reading fun s _ => ?_
  refine .calculating s.line.uninterrupted_requireStart fun start _ => ?_
  dsimp only
  split
  · exact .pure _
  · exact .bind (hslope x) fun (v, there) => .pure _

/-- An iteration counts a trial, makes it and adopts the verdict, none of which are settings. -/
theorem ordinary_trial (b : StrongWolfe α) : Ordinary (·.blank = b) fun _ A => trial A := by
  have hreport : Ordinary (·.blank = b) fun ω _ =>
      (do Action.ofExcept ((← Workspace.readSolver).report) :
        Action (Workspace (StrongWolfe α) ω) α (Report α)) :=
    .reading fun s _ => .calculated s.uninterrupted_report
  simp only [trial_eq]
  refine .reading fun s hs => ?_
  split
  · refine .bind (.modifying fun _ hs => hs) fun _ => .reading fun s _ => ?_
    refine .calculating s.uninterrupted_requireBracket fun k _ => ?_
    exact .bind (ordinary_judge _ k) fun verdict => .bind (.modifying fun _ hs => hs) fun _ => hreport
  · exact hreport

/-- **The search for the strong Wolfe conditions** keeps its settings. -/
theorem ordinary (b : StrongWolfe α) : Solver.Ordinary (·.blank = b) fun _ => solver where
  name _ _ := rfl
  init := ordinary_init (Line.lasting_blank b.line) (by rintro s rfl; rfl) fun _ _ _ => blank_put
  step _ := ordinary_trial b
  terminate _ := .reading fun _ _ => .pure _

end StrongWolfe

namespace LineSearch

omit [Scalar α] in
/-- The search that acts is the one whose memory is at hand. -/
theorem ordinary_dispatch (l₀ : LineSearch α) {m : Uniform α (Workspace (Backtracking α)) β}
    {n : Uniform α (Workspace (StrongWolfe α)) β} (hm : ∀ b, Ordinary (·.blank = b) m)
    (hn : ∀ b, Ordinary (·.blank = b) n) :
    Ordinary (·.blank = l₀) fun ω A => dispatch (m ω A) (n ω A) := by
  refine .reading fun s hs => ?_
  subst hs
  cases s with
  | backtracking s =>
    exact .wrapping (J := (·.blank = s.blank)) rfl (fun y hy => by simp only [blank, hy]) (hm s.blank)
  | strongWolfe s =>
    exact .wrapping (J := (·.blank = s.blank)) rfl (fun y hy => by simp only [blank, hy]) (hn s.blank)
  | unsuited text => exact .throw nofun

/-- **Both searches** are ordinary and keep their settings. -/
theorem ordinary (l₀ : LineSearch α) : Solver.Ordinary (·.blank = l₀) fun _ => solver where
  name _ _ := rfl
  init p := ordinary_dispatch l₀ (fun b => (Backtracking.ordinary b).init p)
    fun b => (StrongWolfe.ordinary b).init p
  step p := ordinary_dispatch l₀ (fun b => (Backtracking.ordinary b).step p)
    fun b => (StrongWolfe.ordinary b).step p
  terminate p := ordinary_dispatch l₀ (fun b => (Backtracking.ordinary b).terminate p)
    fun b => (StrongWolfe.ordinary b).terminate p

omit [Scalar α] in
/-- A direction may be set whatever is kept that does not depend on it. -/
theorem ordinary_aim {I : LineSearch α → Prop} (d : Option (Tensor α))
    (hI : ∀ s s', s.setDirection d = (.ok s' : Except (Failure α) _) → I s → I s') :
    Ordinary I fun _ _ => aim d :=
  .reading fun s hs => .calculating (s.uninterrupted_setDirection d) fun s' hs' =>
    .modifying fun _ _ => hI s s' hs' hs

end LineSearch

/-! ### Solvers that run another one -/

omit [Scalar α] in
/-- What a step of steepest descent does before its search. -/
theorem SteepestDescent.ordinary_measure (I : LineSearch α → Prop) (x : Tensor α) :
    Ordinary I fun _ A => measure A x :=
  .bind (.onSession (.cost x)) fun _ => .bind (.onSession (.gradient x)) fun _ => .pure _

namespace QuasiNewton

variable {I : QuasiNewton α → Prop}

/-- The start of a quasi-Newton run evaluates cost and gradient. -/
theorem ordinary_init (I : QuasiNewton α → Prop) (p : Progress α) :
    Ordinary I fun _ A => solver.init A p :=
  .bind (.onSession (.cost _)) fun _ => .bind (.onSession (.gradient _)) fun _ => .pure _

/-- Before its search a step finds out its direction. -/
theorem ordinary_aim (I : QuasiNewton α → Prop) (p : Progress α) : Ordinary I fun _ _ => aim p :=
  .calculating p.uninterrupted_requireGradient fun _ _ => .reading fun _ _ =>
    .calculating (Backend.uninterrupted_apply _ _) fun _ _ => .pure _

/-- After its search it revises its matrix. -/
theorem ordinary_learn (hI : ∀ s h, I s → I { s with inverseHessian := h }) (x oldGradient h : Tensor α)
    (found : Progress α) : Ordinary I fun _ A => learn A x oldGradient h found := by
  simp only [learn_parts]
  refine .bind (.onSession (.gradient _)) fun v => ?_
  refine .calculating (uninterrupted_revision _ _ _ _ _) fun update _ => ?_
  refine .bind (.onSession (.refine h update)) fun m => ?_
  exact .bind (.modifying fun s hs => hI s m hs) fun _ => .pure _

end QuasiNewton

namespace TrustRegion

/-- The start of a trust-region run evaluates all three. -/
theorem ordinary_init (I : TrustRegion α → Prop) (p : Progress α) :
    Ordinary I fun _ A => solver.init A p :=
  .bind (.onSession (.cost _)) fun _ => .bind (.onSession (.gradient _)) fun _ =>
    .bind (.onSession (.hessian _)) fun _ => .pure _

/-- The stopping rule looks at the settings alone. -/
theorem ordinary_terminate (I : TrustRegion α → Prop) (p : Progress α) :
    Ordinary I fun ω _ => (solver (ω := ω)).terminate p :=
  .reading fun s _ => .calculated (uninterrupted_terminate s p)

/-- A trial reads nothing of the memory once its direction is known. -/
theorem ordinary_weigh (I : TrustRegion α → Prop) (p : Progress α) (g h d : Tensor α) :
    Ordinary I fun _ A => weigh A p g h d :=
  .calculating (Backend.uninterrupted_add _ _) fun x _ => .bind (.onSession (.cost x)) fun _ =>
    .calculating (uninterrupted_predictedDecrease _ _ _ _ _) fun _ _ =>
      .calculating (Backend.uninterrupted_norm _ _) fun _ _ => .pure _

/-- After a trial a step decides, which leaves the memory as it is. -/
theorem ordinary_conclude (I : TrustRegion α → Prop) (p : Progress α) (g h : Tensor α) (t : Trial α) :
    Ordinary I fun _ A => conclude A p g h t := by
  refine .reading fun s _ => ?_
  dsimp only
  split
  · exact .bind (.onSession (.gradient _)) fun _ => .bind (.onSession (.hessian _)) fun _ => .pure _
  · exact .pure _

end TrustRegion

end Minimization
