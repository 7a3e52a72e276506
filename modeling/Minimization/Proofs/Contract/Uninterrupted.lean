import Minimization.Observer.Kinds
import Minimization.Proofs.Contract.Nested
import Minimization.Proofs.Contract.Observers
import Minimization.Proofs.Counts.Runs
import Minimization.Proofs.Coupling.Abreast

namespace Minimization

/-!
# Failures that are no interrupts

Whatever makes a method fail, it does not look like a request of the user to stop, unless an
evaluation of the operator looks like one.

* `Action.Uninterrupted` and the rules beside it — a computation does not fail as if it had been
  interrupted, from whatever state.
* `Abiding` — evaluations are not interrupted.
* `Ordinary.ends_uninterrupted`, `Ordinary.uninterrupted` — so that no ordinary computation is.
* `Solver.Uninterrupted` — none of the parts of a solver is; `LineSearch.uninterrupted` and the lemmas
  beside it — the solvers of the library, nested runs included.
* `Watcher.observer_uninterrupted`, `Method.uninterrupted_contract` — the observers, and a whole run.
-/

variable {σ τ ω η α β γ : Type}

/-! ### Computations -/

/-- From no state does the computation fail as if the user had asked to stop. -/
def Action.Uninterrupted (m : Action σ α β) : Prop :=
  ∀ s, m.Ends s (fun _ _ => True) (· ≠ .interrupted)

namespace Action.Uninterrupted

/-- Nothing is done. -/
theorem pure (b : β) : (Pure.pure b : Action σ α β).Uninterrupted := fun _ => trivial

/-- A failure of another kind. -/
theorem throw {e : Failure α} (h : e ≠ .interrupted) :
    (MonadExcept.throw e : Action σ α β).Uninterrupted :=
  fun _ => h

/-- A calculation that is not interrupted. -/
theorem ofExcept {x : Except (Failure α) β} (h : Minimization.Uninterrupted x) :
    (Action.ofExcept x : Action σ α β).Uninterrupted :=
  fun _ => Action.ends_ofExcept (fun _ _ => trivial) h

/-- One computation after another. -/
theorem bind {m : Action σ α β} {f : β → Action σ α γ} (hm : m.Uninterrupted)
    (hf : ∀ b, (f b).Uninterrupted) : (m >>= f).Uninterrupted :=
  fun s => (hm s).bind fun b t _ => hf b t

/-- Work on a part of the memory. -/
theorem within {part : σ → τ} {put : τ → σ → σ} {m : Action (Workspace τ ω) α β}
    (h : m.Uninterrupted) : (Workspace.within part put m).Uninterrupted := by
  intro w
  rw [Workspace.ends_within]
  exact h _

/-- Work with a memory that takes the place of the whole. -/
theorem wrapping {wrap : τ → σ} {I : σ → Prop} (hwrap : ∀ y, I (wrap y)) {x : τ}
    {m : Action (Workspace τ ω) α β} (h : m.Uninterrupted) (w : Workspace σ ω) :
    (Workspace.wrapping wrap x m).Ends w (fun _ v => I v.solver) (· ≠ .interrupted) := by
  rw [Workspace.ends_wrapping]
  exact (h _).mono fun _ _ _ => hwrap _

end Action.Uninterrupted

/-- Counted evaluations are not interrupted. -/
structure Abiding (A : Setting ω α) : Prop where
  cost : ∀ x, (Session.cost A.operator x).Uninterrupted
  gradient : ∀ x, (Session.gradient A.operator x).Uninterrupted
  hessian : ∀ x, (Session.hessian A.operator x).Uninterrupted

/-- None of the parts of a solver is interrupted. -/
structure Solver.Uninterrupted (S : Solver σ ω α) (A : Setting ω α) : Prop where
  init : ∀ p, (S.init A p).Uninterrupted
  step : ∀ p, (S.step A p).Uninterrupted
  terminate : ∀ p, (S.terminate p).Uninterrupted

variable {A : Setting ω α}

/-! ### Ordinary computations -/

/-- Inquiries fail only where an evaluation does. -/
theorem Inquiry.uninterrupted {m : Uniform α Session β} (hm : Inquiry m) (h : Abiding A) :
    (m ω A).Uninterrupted := by
  induction hm with
  | pure b => exact .pure b
  | bind _ _ hm hf => exact .bind hm hf
  | cost x => exact h.cost x
  | gradient x => exact h.gradient x
  | hessian x => exact h.hessian x
  | log level logger message => exact fun _ => trivial

/-- **Ordinary computations** are not interrupted, and what holds of the memory before holds of it
    afterwards. -/
theorem Ordinary.ends_uninterrupted {I : σ → Prop} {m : Uniform α (Workspace σ) β}
    (hm : Ordinary I m) (h : Abiding A) : ∀ {w : Workspace σ ω}, I w.solver →
      (m ω A).Ends w (fun _ v => I v.solver) (· ≠ .interrupted) := by
  -- Each construct preserves this, as long as the parts that it is made of do.
  induction hm with
  | pure b => exact fun hw => hw
  | throw he => exact fun _ => he
  | bind _ _ hm hf => exact fun hw => (hm hw).bind fun b _ hv => hf b hv
  | calculating hx _ hf =>
    intro w hw
    rw [Action.ends_bind]
    exact Action.ends_ofExcept (fun b hb => hf b hb hw) hx
  | reading _ hf =>
    intro w hw
    rw [Action.ends_bind, Workspace.ends_readSolver]
    exact hf w.solver hw hw
  | modifying hf => exact fun hw => hf _ hw
  | onSession hm =>
    intro w hw
    rw [Workspace.ends_onSession]
    exact (hm.uninterrupted h w.session).mono fun _ _ _ => hw
  | within hpart hput _ hm =>
    intro w hw
    rw [Workspace.ends_within]
    exact (hm (hpart _ hw)).mono fun _ _ hv => hput _ _ hw hv
  | wrapping hx hwrap _ hm =>
    intro w hw
    rw [Workspace.ends_wrapping]
    exact (hm hx).mono fun _ _ hv => hwrap _ hv

/-- So from no state, where nothing need be known of the memory. -/
theorem Ordinary.uninterrupted {m : Uniform α (Workspace σ) β} (hm : Ordinary (fun _ => True) m)
    (h : Abiding A) : (m ω A).Uninterrupted :=
  fun _ => (hm.ends_uninterrupted h trivial).mono fun _ _ _ => trivial

/-- A solver that is ordinary with whatever is seen of its memory is not interrupted. -/
theorem Solver.Ordinary.uninterrupted {κ : Type} {v : σ → κ} {S : (ω : Type) → Solver σ ω α}
    (hS : ∀ k, Solver.Ordinary (v · = k) S) (h : Abiding A) : (S ω).Uninterrupted A where
  init p _ := (((hS _).init p).ends_uninterrupted h rfl).mono fun _ _ _ => trivial
  step p _ := (((hS _).step p).ends_uninterrupted h rfl).mono fun _ _ _ => trivial
  terminate p _ := (((hS _).terminate p).ends_uninterrupted h rfl).mono fun _ _ _ => trivial

variable [Scalar α]

omit [Scalar α] in
/-- What debug mode finds is no interrupt. -/
theorem Run.findings_uninterrupted : Findings (α := α) (· ≠ .interrupted) := ⟨nofun, nofun⟩

/-- **A nested run** is not interrupted if the parts of its solver are not. -/
theorem Run.uninterrupted_nested {S : Solver σ ω α} (h : S.Uninterrupted A) (x : Tensor α)
    (cost? : Option α) (gradient? hessian? : Option (Tensor α)) :
    (nested S A fun c => seeded x c.maxIters cost? gradient? hessian?).Uninterrupted := by
  have hcontract : Contract (nestedPlan S A) (fun _ _ => True) (fun _ _ => True) (· ≠ .interrupted) :=
    { stopped := fun _ _ => trivial
      step := fun session _ _ => h.step _ _
      inspected := fun _ _ _ => findings_uninterrupted.inspection
      terminate := fun session _ => h.terminate _ _
      introduced := fun name notes ws => noObserver_introduced name notes ws _
      watched := fun p notes isNewBest ws => noObserver_watched p notes isNewBest ws _ }
  exact fun w => (hcontract.nested x cost? gradient? hessian? fun session => h.init _ _).mono
    fun _ _ _ => trivial

/-! ### Solvers -/

/-- Landweber iteration is interrupted only by an evaluation. -/
theorem Landweber.uninterrupted (h : Abiding A) : Landweber.solver.Uninterrupted A :=
  Solver.Ordinary.uninterrupted (v := id) (fun _ => Landweber.ordinary _) h

/-- So is Newton's method. -/
theorem Newton.uninterrupted (h : Abiding A) : Newton.solver.Uninterrupted A :=
  Solver.Ordinary.uninterrupted (v := id) (fun _ => Newton.ordinary _) h

/-- So is the dogleg method. -/
theorem Dogleg.uninterrupted (h : Abiding A) : Dogleg.solver.Uninterrupted A :=
  Solver.Ordinary.uninterrupted (v := id) (fun _ => Dogleg.ordinary _) h

/-- So are both line searches, whatever their settings. -/
theorem LineSearch.uninterrupted (h : Abiding A) : LineSearch.solver.Uninterrupted A :=
  Solver.Ordinary.uninterrupted LineSearch.ordinary h

/-- A search inside a step, and before it the direction. -/
theorem LineSearch.uninterrupted_run (h : Abiding A) (x : Tensor α) (direction : Option (Tensor α))
    (cost : Option α) (gradient : Option (Tensor α)) :
    (run A x direction cost gradient).Uninterrupted := by
  rw [run_eq]
  exact .bind ((ordinary_aim direction fun _ _ _ _ => trivial).uninterrupted h) fun _ =>
    Run.uninterrupted_nested (uninterrupted h) x cost gradient none

/-- So is steepest descent with its searches. -/
theorem SteepestDescent.uninterrupted (h : Abiding A) : SteepestDescent.solver.Uninterrupted A where
  init _ := .pure _
  terminate _ := .pure _
  step p := by
    show (step A p).Uninterrupted
    rw [step_parts]
    exact .bind ((ordinary_measure _ p.param).uninterrupted h) fun _ =>
      .bind (LineSearch.uninterrupted_run h _ _ _ _) fun found => .pure _

/-- So is the quasi-Newton method with its searches. -/
theorem QuasiNewton.uninterrupted (h : Abiding A) : QuasiNewton.solver.Uninterrupted A where
  init p := (ordinary_init _ p).uninterrupted h
  terminate p := .ofExcept (uninterrupted_terminate p)
  step p := by
    show (step A p).Uninterrupted
    rw [step_parts]
    refine .bind ((ordinary_aim _ p).uninterrupted h) fun (oldGradient, inverse, direction) => ?_
    refine .bind (.within (LineSearch.uninterrupted_run h _ _ _ _)) fun found => ?_
    exact (ordinary_learn (fun _ _ _ => trivial) p.param oldGradient inverse found).uninterrupted h

/-- The run inside a step of a trust-region method is one of the dogleg method. -/
theorem TrustRegion.uninterrupted_subproblemStep (h : Abiding A) (x gradient hessian : Tensor α) :
    (subproblemStep A x gradient hessian).Uninterrupted := fun w =>
  ends_subproblemStep_of (w.solver.subproblem.uninterrupted_setRadius _) fun _ _ =>
    Run.uninterrupted_nested (Dogleg.uninterrupted h) x none (some gradient) (some hessian) _

/-- So is a trust-region method with the runs inside its steps. -/
theorem TrustRegion.uninterrupted (h : Abiding A) : TrustRegion.solver.Uninterrupted A where
  init p := (ordinary_init _ p).uninterrupted h
  terminate p := (ordinary_terminate _ p).uninterrupted h
  step p := by
    have hexplore : (explore A p).Uninterrupted := by
      rw [explore_parts]
      refine .bind (.ofExcept p.uninterrupted_requireGradient) fun gradient => ?_
      refine .bind (.ofExcept p.uninterrupted_requireHessian) fun hessian => ?_
      refine .bind (uninterrupted_subproblemStep h p.param gradient hessian) fun direction => ?_
      exact .bind ((ordinary_weigh _ p gradient hessian direction).uninterrupted h) fun t => .pure _
    show (step A p).Uninterrupted
    rw [step_parts, attempt_eq]
    refine .bind (.bind hexplore fun (gradient, hessian, t) => fun _ => trivial)
      fun (gradient, hessian, t) => ?_
    exact (ordinary_conclude _ p gradient hessian t).uninterrupted h

/-! ### Observers and methods -/

omit [Scalar α] in
/-- A name that is no file name is refused as such. -/
theorem Place.uninterrupted_ofName (name : String) :
    Uninterrupted (Place.ofName name : Except (Failure α) Place) := by
  unfold ofName
  dsimp only
  split
  · exact .error nofun
  · split
    · exact .error nofun
    · split
      · exact .error nofun
      · split
        · exact .error nofun
        · split
          · exact .ok _
          · exact .ok _

omit [Scalar α] in
/-- To write to a logger may be refused for its level alone. -/
theorem Watcher.uninterrupted_writeLine (level : Option Int) (logger message : String) :
    (writeLine level logger message : Action (Notebook (Watcher α)) α Unit).Uninterrupted := by
  cases level with
  | some level => exact fun _ => trivial
  | none => exact .throw nofun

/-- The observers of the library are not interrupted. -/
theorem Watcher.observer_uninterrupted : (observer (α := α)).FailsWith (· ≠ .interrupted) where
  init name notes page := by
    unfold observer
    rw [Action.ends_bind, Action.ends_get]
    cases page.memory with
    | recorder seen => trivial
    | counter seen => trivial
    | lines logger level => exact uninterrupted_writeLine level logger _ page
    | files stem format saved => trivial
  iteration p notes page := by
    unfold observer
    -- Only files have to find a place, and their names are no interrupts.
    rw [Action.ends_bind, Action.ends_get]
    cases page.memory with
    | recorder seen => trivial
    | counter seen => trivial
    | lines logger level => exact uninterrupted_writeLine level logger _ page
    | files stem format saved =>
      refine (Action.Uninterrupted.ofExcept (Place.uninterrupted_ofName _) page).bind fun place _ _ => ?_
      cases place with
      | inside name => trivial
      | outside => trivial
  interval := nofun

open Action.Uninterrupted in
/-- **A method that the library comes with** is interrupted only by an evaluation. -/
theorem Method.uninterrupted_dispatch {act : {σ : Type} → Solver σ ω α → Action (Workspace σ ω) α β}
    (hact : ∀ {σ : Type} (S : Solver σ ω α), S.Uninterrupted A → (act S).Uninterrupted)
    (h : Abiding A) {w : Workspace (Method α) ω} (hm : w.solver.BuiltIn) :
    (dispatch act).Ends w (fun _ v => v.solver.BuiltIn) (· ≠ .interrupted) := by
  unfold Action.Ends
  rw [Method.exec_dispatch]
  show (acting act w.solver).Ends w (fun _ v => v.solver.BuiltIn) (· ≠ .interrupted)
  obtain ⟨m, s⟩ := w
  cases m with
  | landweber x => exact wrapping (fun _ => trivial) (hact _ (Landweber.uninterrupted h)) _
  | newton x => exact wrapping (fun _ => trivial) (hact _ (Newton.uninterrupted h)) _
  | steepestDescent x => exact wrapping (fun _ => trivial) (hact _ (SteepestDescent.uninterrupted h)) _
  | quasiNewton x => exact wrapping (fun _ => trivial) (hact _ (QuasiNewton.uninterrupted h)) _
  | lineSearch x => exact wrapping (fun _ => trivial) (hact _ (LineSearch.uninterrupted h)) _
  | dogleg x => exact wrapping (fun _ => trivial) (hact _ (Dogleg.uninterrupted h)) _
  | trustRegion x => exact wrapping (fun _ => trivial) (hact _ (TrustRegion.uninterrupted h)) _
  | script x => exact hm.elim

/-- The parts of a run on such a method. -/
theorem Method.uninterrupted_contract {O : Observer η α} (h : Abiding A)
    (hO : O.FailsWith (· ≠ .interrupted)) (c : RunConfig α) :
    Run.Contract (Run.plan A O c) (fun _ m => m.BuiltIn) (fun _ m => m.BuiltIn) (· ≠ .interrupted) where
  stopped _ hm := hm
  step _ hm _ := uninterrupted_dispatch (fun _ hS => hS.step _) h hm
  inspected _ _ _ hfound := Run.findings_uninterrupted.inspection hfound
  terminate _ hm := uninterrupted_dispatch (fun _ hS => hS.terminate _) h hm
  introduced := hO.ends_init
  watched := hO.ends_iteration

/-- The start of such a run. -/
theorem Method.uninterrupted_inits (h : Abiding A) (O : Observer η α) (c : RunConfig α)
    {r : Run (Method α) ω η α} (hm : r.solver.BuiltIn) :
    Run.Contract.Inits (Run.plan A O c) r (fun _ m => m.BuiltIn) (· ≠ .interrupted) :=
  fun _ => uninterrupted_dispatch (fun _ hS => hS.init _) h hm

end Minimization
