import Minimization.Proofs.Method.Fuse
import Minimization.Proofs.Run.Finished

namespace Minimization

/-!
# The costs that a run evaluates

An operator can be made to write down the costs that it answers.  It answers as before, so the transcript
tells of any run which costs have been evaluated in it, nested runs included.

* `Operator.transcribed` — the operator that writes down its costs.
* `Session.transcribed`, `Run.transcribed` — states in which the operator has a transcript.
* `transcript`, `transcript_lockstep` — a run with a transcript beside the run itself.
* `Run.costs` — the costs that a run evaluates.
* `Operator.Vouches` — what an operator remembers tells that a cost has been answered;
  `Operator.transcribed_vouches` — a transcript does.
* `Run.goes_transcribed` — a run that returns makes the same iterations with a transcript, and then all
  of its costs are written down.
-/

variable {σ ω η α β : Type}

/-! ### Transcripts -/

/-- Carries out an evaluation and adds to the transcript what is to be noted of the answer. -/
def Action.transcribed (note : β → List α) (m : Action (Host ω) α β) :
    Action (Host (ω × List α)) α β := do
  let answer ← m.focus (fun h => ⟨h.memory.1, h.interrupt⟩)
    fun g h => ⟨(g.memory, h.memory.2), g.interrupt⟩
  modify fun h => { h with memory := (h.memory.1, h.memory.2 ++ note answer) }
  return answer

/-- The operator that writes down the costs it answers. -/
def Operator.transcribed (op : Operator ω α) : Operator (ω × List α) α where
  name := op.name
  cost? := some fun x => (op.cost x).transcribed fun c => [c]
  gradient? := some fun x => (op.gradient x).transcribed fun _ => []
  hessian? := some fun x => (op.hessian x).transcribed fun _ => []
  jacobian? := some fun x => (op.jacobian x).transcribed fun _ => []

/-- The setting with a transcript. -/
def Setting.transcribed (A : Setting ω α) : Setting (ω × List α) α :=
  ⟨A.operator.transcribed, A.debug⟩

/-- The session of an operator with a transcript. -/
def Session.transcribed (s : Session ω) (costs : List α) : Session (ω × List α) :=
  ⟨⟨(s.host.memory, costs), s.host.interrupt⟩, s.counts, s.logbook⟩

/-- The run of an operator with a transcript. -/
def Run.transcribed (r : Run σ ω η α) (costs : List α) : Run σ (ω × List α) η α :=
  ⟨r.progress, r.solver, r.session.transcribed costs, r.observers⟩

/-- An evaluation with a transcript: if it succeeds, its answer is noted. -/
theorem Action.exec_transcribed (note : β → List α) (m : Action (Host ω) α β)
    (h : Host (ω × List α)) : (m.transcribed note).exec h =
      match m.exec ⟨h.memory.1, h.interrupt⟩ with
      | (.ok b, g) => (.ok b, ⟨(g.memory, h.memory.2 ++ note b), g.interrupt⟩)
      | (.error e, g) => (.error e, ⟨(g.memory, h.memory.2), g.interrupt⟩) := by
  unfold transcribed
  rw [exec_bind, exec_focus]
  rcases m.exec ⟨h.memory.1, h.interrupt⟩ with ⟨_ | b, g⟩ <;> rfl

/-! ### Beside the run itself -/

/-- The same session, with a transcript on the second side. -/
def transcript (ω α : Type) : Coupling (Session ω) (Session (ω × List α)) where
  states s t := ∃ costs, t = s.transcribed costs
  failed s t := ∃ costs, t = s.transcribed costs
  failed_of_states := id

/-- **An evaluation** answers the same, and is written down. -/
theorem transcript_evaluate (k : Capability) (note : β → List α) (m : Action (Host ω) α β) :
    (transcript ω α).Related (Session.evaluate k m) (Session.evaluate k (m.transcribed note)) := by
  rintro s t ⟨costs, rfl⟩
  have hright : (Session.evaluate k (m.transcribed note)).exec (s.transcribed costs) =
      (((m.transcribed note).exec (s.transcribed costs).host).1,
        ⟨((m.transcribed note).exec (s.transcribed costs).host).2, s.counts.tick k, s.logbook⟩) := rfl
  have hleft : (Session.evaluate k m).exec s =
      ((m.exec s.host).1, ⟨(m.exec s.host).2, s.counts.tick k, s.logbook⟩) := rfl
  rw [hright, hleft, Action.exec_transcribed]
  -- Without its transcript the host is the one on the other side.
  have hhost : (⟨(s.transcribed costs).host.memory.1, (s.transcribed costs).host.interrupt⟩ :
      Host ω) = s.host := rfl
  rw [hhost]
  rcases m.exec s.host with ⟨e | b, host⟩
  · exact .error ⟨costs, rfl⟩
  · exact .ok ⟨costs ++ note b, rfl⟩

/-- What is written down is no part of log and counts. -/
theorem transcript_frame :
    Frame fun (s : Session ω) (t : Session (ω × List α)) => ∃ costs, t = s.transcribed costs where
  logbook := by
    rintro s t ⟨costs, rfl⟩
    rfl
  relog := by
    rintro s t ⟨costs, rfl⟩ b
    exact ⟨costs, rfl⟩
  interrupt := by
    rintro s t ⟨costs, rfl⟩
    rfl
  receive := by
    rintro s t ⟨costs, rfl⟩ i
    exact ⟨costs, rfl⟩

/-- Evaluations and log lines, with a transcript and without. -/
theorem transcript_lockstep (A : Setting ω α) : Lockstep (transcript ω α) A A.transcribed where
  debug := rfl
  cost x := transcript_evaluate .cost _ (A.operator.cost x)
  gradient x := transcript_evaluate .gradient _ (A.operator.gradient x)
  hessian x := transcript_evaluate .hessian _ (A.operator.hessian x)
  counts := by
    rintro s t ⟨costs, rfl⟩
    rfl
  states := transcript_frame
  failed := transcript_frame

/-- Neither is it of nested counts. -/
theorem transcript_nests : (transcript ω α).bond.Nests (transcript ω α).bond where
  enter := by
    rintro s t ⟨costs, rfl⟩
    exact ⟨costs, rfl⟩
  leave := by
    rintro s t u v ⟨-, rfl⟩ ⟨costs, rfl⟩
    exact ⟨costs, rfl⟩
  failed := by
    rintro s t u v ⟨-, rfl⟩ ⟨costs, rfl⟩
    exact ⟨costs, rfl⟩
  first h _ := h
  second h _ := h

/-! ### What has been answered -/

/-- `N c` holds of what the operator remembers if it has answered the cost `c`. -/
structure Operator.Vouches (op : Operator ω α) (N : α → ω → Prop) : Prop where
  keeps : ∀ c, op.Keeps fun host => N c host.memory
  cost : ∀ {x : Tensor α} {host after : Host ω} {c : α},
    (op.cost x).exec host = (.ok c, after) → N c after.memory

/-- What has been written down stays there. -/
theorem Action.mem_transcribed {c : α} {note : β → List α} {m : Action (Host ω) α β}
    {h : Host (ω × List α)} (hc : c ∈ h.memory.2) : c ∈ ((m.transcribed note).exec h).2.memory.2 := by
  rw [exec_transcribed]
  rcases m.exec ⟨h.memory.1, h.interrupt⟩ with ⟨e | b, g⟩
  · exact hc
  · exact List.mem_append_left _ hc

/-- A transcript vouches for the costs in it. -/
theorem Operator.transcribed_vouches (op : Operator ω α) :
    op.transcribed.Vouches fun c memory => c ∈ memory.2 where
  keeps c := ⟨fun _ _ => Action.mem_transcribed, fun _ _ => Action.mem_transcribed,
    fun _ _ => Action.mem_transcribed⟩
  cost := by
    intro x host after c h
    have hexec : ((op.cost x).transcribed fun c => [c]).exec host = (.ok c, after) := h
    rw [Action.exec_transcribed] at hexec
    rcases hcost : (op.cost x).exec ⟨host.memory.1, host.interrupt⟩ with ⟨e | b, g⟩
    · rw [hcost] at hexec
      cases hexec
    · rw [hcost] at hexec
      cases hexec
      exact List.mem_append_right _ (List.mem_singleton_self _)

variable [Scalar α]

/-- The methods of the library do the same on an operator that writes down what it answers. -/
theorem Method.transcript_follows (A : Setting ω α) :
    (Method.solver (ω := ω) (α := α)).Follows ((transcript ω α).keeping Method.BuiltIn) A
      A.transcribed Method.solver :=
  (Method.bonded (transcript_lockstep A).abreast transcript_nests (transcript_lockstep A).hosts).follows

namespace Run

/-- The costs that a run evaluates, in their order. -/
def costs (A : Setting ω α) (O : Observer η α) (c : RunConfig α) (r : Run (Method α) ω η α) : List α :=
  ((execute (plan A.transcribed O c)).exec (r.transcribed [])).2.session.host.memory.2

variable {A : Setting ω α} {O : Observer η α} {c : RunConfig α} {r final : Run (Method α) ω η α}

/-- So do whole runs. -/
theorem plan_transcribed (A : Setting ω α) (O : Observer η α) (c : RunConfig α) :
    Plan.Follows Method.BuiltIn (transcript ω α) (plan A O c) (plan A.transcribed O c) :=
  ⟨⟨transcript_lockstep A, (Method.transcript_follows A).toAttends, rfl, rfl⟩,
    (Method.transcript_follows A).step⟩

omit [Scalar α] in
/-- A run with a transcript, beside the run itself. -/
theorem transcribed_states (hm : r.solver.BuiltIn) :
    ((transcript ω α).run η α Method.BuiltIn).states r (r.transcribed []) :=
  ⟨⟨[], rfl⟩, hm, rfl⟩

/-- **A run that returns** makes the same iterations with a transcript, and the costs that it evaluates
    are those that are written down after the last one. -/
theorem goes_transcribed (hm : r.solver.BuiltIn)
    (h : (execute (plan A O c)).exec r = (.ok (), final)) :
    ∃ n, final.progress.iter = r.progress.iter + n ∧ Goes (plan A O c) r n ∧
      Goes (plan A.transcribed O c) (r.transcribed []) n ∧ costs A O c r =
        (stateAfter (plan A.transcribed O c) (r.transcribed []) n).session.host.memory.2 := by
  have hfollows := plan_transcribed A O c
  have hstates := transcribed_states hm
  obtain ⟨n, reason, hn, hprogress, -⟩ := goes_of_ok h
  have hiter : final.progress.iter = r.progress.iter + n := by
    rw [hprogress]
    exact hn.iter_eq
  -- Both runs return, after the same number of iterations.
  have hrun := execute_related hfollows hstates
  rw [h] at hrun
  obtain ⟨final', hrun', -, -, hfinal⟩ := hrun.ok_right
  obtain ⟨n', reason', hn', hprogress', -, -, -, hmemory⟩ := goes_of_ok hrun'
  have hiter' : final.progress.iter = r.progress.iter + n' := by
    have hsame : final'.progress = final.progress := by rw [hfinal]
    rw [← hsame, hprogress']
    exact hn'.iter_eq
  obtain rfl : n' = n := by omega
  refine ⟨n', hiter, hn, hn', ?_⟩
  unfold costs
  rw [hrun', hmemory]

end Run

end Minimization
