import Minimization.Proofs.Run.Iteration

namespace Minimization

/-!
# Listening to a solver

To speak of the calls that a run makes to its solver, the solver is replaced by one that does the
same and writes down every call in its memory.  Nothing else about the run changes, so the list is
that of the run itself.

* `Call` — what a run may ask of its solver, with what was to be seen at that moment.
* `Solver.overheard` — the solver that writes down its calls.
* `Run.overheard_iterate`, `Run.overheard_opening` — a part of a run that succeeds also succeeds
  overheard, with the calls added to the list.
-/

/-- A call to a solver. -/
inductive Call (α : Type) where
  /-- The solver was initialised; the interrupt as it was afterwards. -/
  | init (interrupt : Interrupt)
  /-- The solver was asked for a step; the progress and the interrupt as they were before. -/
  | step (before : Progress α) (interrupt : Interrupt)
  /-- The solver was asked for its own reason to stop; the progress, the answer, and the interrupt as
      it was afterwards. -/
  | terminate (progress : Progress α) (answer : Reason) (interrupt : Interrupt)

namespace Solver

variable {σ ω α β : Type}

/-- Writes down a call, with the interrupt as it is. -/
def note (call : Interrupt → Call α) : Action (Workspace (σ × List (Call α)) ω) α Unit :=
  modify fun w => { w with
    solver := (w.solver.1, w.solver.2 ++ [call w.session.host.interrupt]) }

/-- Lets the solver act that is listened to. -/
def listen (m : Action (Workspace σ ω) α β) : Action (Workspace (σ × List (Call α)) ω) α β :=
  Workspace.within Prod.fst (fun s t => (s, t.2)) m

/-- The solver with a list of the calls to it. -/
def overheard (S : Solver σ ω α) : Solver (σ × List (Call α)) ω α where
  name s := S.name s.1
  text s := S.text s.1
  init setting p := do
    let report? ← listen (S.init setting p)
    note .init
    return report?
  step setting p := do
    note (.step p)
    listen (S.step setting p)
  terminate p := do
    let answer ← listen (S.terminate p)
    note (.terminate p answer)
    return answer

end Solver

/-- A workspace with a list of calls. -/
def Workspace.overheard {σ ω α : Type} (w : Workspace σ ω) (calls : List (Call α)) :
    Workspace (σ × List (Call α)) ω :=
  ⟨(w.solver, calls), w.session⟩

namespace Solver

variable {σ ω α β : Type} {S : Solver σ ω α} {setting : Setting ω α} {p : Progress α}
  {w w' : Workspace σ ω}

/-- To listen changes nothing but what has been heard. -/
theorem exec_listen {m : Action (Workspace σ ω) α β} {b : β} (calls : List (Call α))
    (h : m.exec w = (.ok b, w')) :
    (listen m).exec (w.overheard calls) = (.ok b, w'.overheard calls) := by
  change ((m.exec w).1, (m.exec w).2.overheard calls) = _
  rw [h]

/-- The initialisation is heard with the request to stop that it leaves. -/
theorem overheard_init {report? : Option (Report α)} (calls : List (Call α))
    (h : (S.init setting p).exec w = (.ok report?, w')) :
    (S.overheard.init setting p).exec (w.overheard calls) =
      (.ok report?, w'.overheard (calls ++ [.init w'.session.host.interrupt])) := by
  simp only [overheard, Action.exec_bind]
  have hlisten := exec_listen calls h
  rw [hlisten]
  rfl

/-- A step is heard before it is made. -/
theorem overheard_step {report : Report α} (calls : List (Call α))
    (h : (S.step setting p).exec w = (.ok report, w')) :
    (S.overheard.step setting p).exec (w.overheard calls) =
      (.ok report, w'.overheard (calls ++ [.step p w.session.host.interrupt])) := by
  simp only [overheard, Action.exec_bind]
  exact exec_listen (calls ++ [.step p w.session.host.interrupt]) h

/-- The stopping rule is heard with its answer. -/
theorem overheard_terminate {own : Reason} (calls : List (Call α))
    (h : (S.terminate p).exec w = (.ok own, w')) :
    (S.overheard.terminate p).exec (w.overheard calls) =
      (.ok own, w'.overheard (calls ++ [.terminate p own w'.session.host.interrupt])) := by
  simp only [overheard, Action.exec_bind]
  rw [exec_listen calls h]
  rfl

end Solver

/-- The plan with a solver that writes down its calls. -/
def Plan.overheard {σ ω η α : Type} (P : Plan σ ω η α) : Plan (σ × List (Call α)) ω η α :=
  ⟨P.solver.overheard, P.observer, P.setting, P.config⟩

namespace Run

variable {σ ω η α : Type}

/-- The run with a list of calls. -/
def overheard (r : Run σ ω η α) (calls : List (Call α)) : Run (σ × List (Call α)) ω η α :=
  ⟨r.progress, (r.solver, calls), r.session, r.observers⟩

variable [Scalar α]

/-- What is shown of an iteration does not depend on who listens. -/
theorem overheard_display {P : Plan σ ω η α} {before : Counts} {notes : Notes α} {isNewBest : Bool}
    {r shown : Run σ ω η α} {outcome : Except (Failure α) Unit} (calls : List (Call α))
    (h : (display P before notes isNewBest).exec r = (outcome, shown)) :
    (display P.overheard before notes isNewBest).exec (r.overheard calls) =
      (outcome, shown.overheard calls) := by
  rw [exec_display] at h ⊢
  -- A solver that is overheard passes the same checks.
  have hsame : inspection P.overheard before (r.overheard calls) = inspection P before r := rfl
  rw [hsame]
  cases hf : inspection P before r with
  | error e =>
    simp only [hf] at h ⊢
    cases h
    rfl
  | ok _ =>
    simp only [hf, exec_onWatches] at h ⊢
    cases h
    rfl

end Run

/-! ### Turns -/

/-- One iteration as the solver sees it: a step and the question whether to stop. -/
structure Turn (α : Type) where
  /-- The progress that the step was given. -/
  before : Progress α
  /-- The interrupt when the step was asked for. -/
  interrupt : Interrupt
  /-- The progress after the iteration. -/
  after : Progress α
  /-- The solver's own reason to stop. -/
  own : Reason
  /-- The interrupt when the solver had answered. -/
  left : Interrupt

namespace Turn

variable {α : Type}

/-- The two calls of a turn. -/
def calls (t : Turn α) : List (Call α) :=
  [.step t.before t.interrupt, .terminate t.after t.own t.left]

/-- A turn that leads from one progress and interrupt to the next. -/
structure Leads [Scalar α] (c : RunConfig α) (t : Turn α) (p : Progress α) (i : Interrupt)
    (p' : Progress α) (i' : Interrupt) : Prop where
  before : t.before = p
  interrupt : t.interrupt = i
  iter : t.after.iter = p.iter + 1
  maxIters : t.after.maxIters = p.maxIters
  left : t.left = i'
  after : p' = { t.after with reason := Run.ruling c t.after t.own }

end Turn

namespace Run

variable {σ ω η α : Type} [Scalar α]

/-- **An iteration is one turn**: overheard, it adds a step and a question to the list of calls. -/
theorem overheard_iterate {P : Plan σ ω η α} {r r' : Run σ ω η α} (calls : List (Call α))
    (hr : r.progress.reason = .notTerminated) (h : (iterate P).exec r = (.ok (), r')) :
    ∃ t : Turn α, t.Leads P.config r.progress r.session.host.interrupt r'.progress
        r'.session.host.interrupt ∧
      (iterate P.overheard).exec (r.overheard calls) =
        (.ok (), r'.overheard (calls ++ t.calls)) := by
  obtain ⟨report, w, shown, own, v, hstep, hshow, hown, rfl⟩ := (iterate_ok_iff P hr).1 h
  have hframe := display_frame hshow
  -- The turn is made of what the parts of the iteration have seen.
  let t : Turn α := ⟨r.progress, r.session.host.interrupt, shown.progress, own,
    v.session.host.interrupt⟩
  refine ⟨t, ⟨rfl, rfl, ?_, ?_, rfl, rfl⟩, ?_⟩
  · show shown.progress.iter = _
    rw [hframe.progress]
    simp [counted]
  · show shown.progress.maxIters = _
    rw [hframe.progress]
    simp [counted]
  · refine (iterate_ok_iff P.overheard hr).2 ⟨report,
      w.overheard (calls ++ [.step r.progress r.session.host.interrupt]),
      shown.overheard (calls ++ [.step r.progress r.session.host.interrupt]), own,
      v.overheard (calls ++ t.calls), ?_, ?_, ?_, rfl⟩
    · exact Solver.overheard_step calls hstep
    · exact overheard_display (calls ++ [.step r.progress r.session.host.interrupt]) hshow
    -- The question comes behind the call of the step in the list.
    · have := Solver.overheard_terminate
        (calls ++ [.step r.progress r.session.host.interrupt]) hown
      rw [List.append_assoc] at this
      exact this

/-- The start of a run, overheard, is one call. -/
theorem overheard_opening {P : Plan σ ω η α} {r r' : Run σ ω η α} (calls : List (Call α))
    (h : (opening P).exec r = (.ok (), r')) :
    (opening P.overheard).exec (r.overheard calls) =
      (.ok (), r'.overheard (calls ++ [.init r'.session.host.interrupt])) := by
  rw [exec_opening] at h ⊢
  rcases hinit : (P.solver.init P.setting r.progress).exec ⟨r.solver, r.session⟩ with
    ⟨_ | report?, w⟩
  · simp [hinit] at h
  -- The initialisation is heard first of all calls.
  · have hcalled : (P.overheard.solver.init P.overheard.setting (r.overheard calls).progress).exec
        ⟨(r.overheard calls).solver, (r.overheard calls).session⟩ =
          (.ok report?, w.overheard (calls ++ [.init w.session.host.interrupt])) :=
      Solver.overheard_init calls hinit
    simp only [hinit, hcalled, exec_onWatches] at h ⊢
    obtain ⟨hwatched, rfl⟩ := Prod.mk.inj h
    exact Prod.ext hwatched rfl

end Run

end Minimization
