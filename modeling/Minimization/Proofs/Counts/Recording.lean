import Minimization.Proofs.Coupling.Run

namespace Minimization

/-!
# What an operator receives

An operator can be made to write down how often it is asked for what.  It answers as before, so the
record tells what the operator receives in any run; wrappers have no part in it.

* `Operator.recording` — the operator that writes down what it is asked for, failing calls included.
* `Session.recorded`, `Workspace.recorded`, `Run.recorded` — states in which the operator has a
  record.
* `ledger` — since a common start the wrapper has counted what the operator has received.
* `ledger_lockstep` — evaluations and log lines keep to it.
* `Solver.step_grows` — no counter goes down in a step beside which it can be kept.
-/

/-! ### Counts -/

namespace Counts

/-- Nothing comes before. -/
theorem zero_add (c : Counts) : zero + c = c := by
  ext <;> exact Nat.zero_add _

/-- Nothing comes after. -/
theorem add_zero (c : Counts) : c + zero = c := by
  ext <;> rfl

/-- Counts add up in any grouping. -/
theorem add_assoc (c d e : Counts) : c + d + e = c + (d + e) := by
  ext <;> exact Nat.add_assoc _ _ _

/-- One more evaluation may be counted on either part of a sum. -/
theorem tick_add (c d : Counts) (k : Capability) : (c + d).tick k = c + d.tick k := by
  cases k <;> rfl

/-- One more evaluation is one more of its kind. -/
theorem tick_eq_add (c : Counts) (k : Capability) : c.tick k = c + zero.tick k := by
  rw [← tick_add, add_zero]

/-- Counts are the same if they are of every kind. -/
theorem ext_get {c d : Counts} (h : ∀ k, c.get k = d.get k) : c = d :=
  Counts.ext (h .cost) (h .gradient) (h .hessian) (h .jacobian)

/-- Counts do not cancel. -/
theorem add_eq_zero_iff {c d : Counts} : c + d = zero ↔ c = zero ∧ d = zero := by
  constructor
  · intro h
    have hsum : ∀ k, c.get k + d.get k = 0 := by
      intro k
      rw [← get_add, h, get_zero]
    refine ⟨ext_get fun k => ?_, ext_get fun k => ?_⟩
    · have := hsum k
      rw [get_zero]
      omega
    · have := hsum k
      rw [get_zero]
      omega
  · rintro ⟨rfl, rfl⟩
    rfl

/-- No counter is below zero, so counters that grow never decrease. -/
theorem decreased?_add (c d : Counts) : decreased? c (c + d) = none := by
  unfold decreased?
  rw [List.find?_eq_none]
  intro k _
  simp

end Counts

/-! ### Records -/

variable {σ ω η α β : Type}

/-- Writes down a call, then answers. -/
def Action.recording (k : Capability) (m : Action (Host ω) α β) :
    Action (Host (ω × Counts)) α β := do
  modify fun h => { h with memory := (h.memory.1, h.memory.2.tick k) }
  m.focus (fun h => ⟨h.memory.1, h.interrupt⟩) fun g h => ⟨(g.memory, h.memory.2), g.interrupt⟩

/-- The operator that writes down what it is asked for.  A question that it cannot answer is a call
    all the same. -/
def Operator.recording (op : Operator ω α) : Operator (ω × Counts) α where
  name := op.name
  cost? := some fun x => (op.cost x).recording .cost
  gradient? := some fun x => (op.gradient x).recording .gradient
  hessian? := some fun x => (op.hessian x).recording .hessian
  jacobian? := some fun x => (op.jacobian x).recording .jacobian

/-- The setting with a recording operator. -/
def Setting.recording (A : Setting ω α) : Setting (ω × Counts) α := ⟨A.operator.recording, A.debug⟩

/-- The session of an operator with a record. -/
def Session.recorded (s : Session ω) (record : Counts) : Session (ω × Counts) :=
  ⟨⟨(s.host.memory, record), s.host.interrupt⟩, s.counts, s.logbook⟩

/-- The workspace of an operator with a record. -/
def Workspace.recorded (w : Workspace σ ω) (record : Counts) : Workspace σ (ω × Counts) :=
  ⟨w.solver, w.session.recorded record⟩

/-- The run of an operator with a record. -/
def Run.recorded (r : Run σ ω η α) (record : Counts) : Run σ (ω × Counts) η α :=
  ⟨r.progress, r.solver, r.session.recorded record, r.observers⟩

/-! ### The ledger -/

/-- Since the wrapper had counted `n` and the record was `c`, the wrapper has counted what the
    operator has received, and `lost` calls less. -/
def Short (n c lost : Counts) (s : Session ω) (t : Session (ω × Counts)) : Prop :=
  ∃ d, s.counts = n + d ∧ t = s.recorded (c + d + lost)

/-- The wrapper has counted what the operator has received. -/
def ledger (n c : Counts) : Coupling (Session ω) (Session (ω × Counts)) where
  states := Short n c .zero
  failed := Short n c .zero
  failed_of_states h := h

/-- A session and its record, at a common start. -/
theorem Short.start (s : Session ω) (c : Counts) : Short s.counts c .zero s (s.recorded c) := by
  refine ⟨.zero, ?_, ?_⟩
  · rw [Counts.add_zero]
  · rw [Counts.add_zero, Counts.add_zero]

/-- The wrapper counts a call, and the operator receives it. -/
theorem Short.evaluate {n c : Counts} {s : Session ω} {t : Session (ω × Counts)}
    (h : Short n c .zero s t) (k : Capability) (m : Action (Host ω) α β) :
    Agree (Short n c .zero) (Short n c .zero) ((Session.evaluate k m).exec s)
      ((Session.evaluate k (m.recording k)).exec t) := by
  obtain ⟨d, hcounts, rfl⟩ := h
  -- Both sessions ask the operator with the same memory and tick one counter, the one of the capability.
  have hleft : (Session.evaluate k m).exec s = ((m.exec s.host).1,
      ⟨(m.exec s.host).2, s.counts.tick k, s.logbook⟩) := rfl
  have hright : (Session.evaluate k (m.recording k)).exec (s.recorded (c + d + .zero)) =
      ((m.exec s.host).1, Session.recorded ⟨(m.exec s.host).2, s.counts.tick k, s.logbook⟩
        ((c + d + .zero).tick k)) := rfl
  rw [hleft, hright, hcounts, Counts.add_zero, Counts.tick_add, Counts.tick_add]
  have hshort : Short n c .zero
      (⟨(m.exec s.host).2, n + d.tick k, s.logbook⟩ : Session ω)
      (Session.recorded ⟨(m.exec s.host).2, n + d.tick k, s.logbook⟩ (c + d.tick k)) :=
    ⟨d.tick k, rfl, by rw [Counts.add_zero]⟩
  cases (m.exec s.host).1 with
  | ok b => exact .ok hshort
  | error e => exact .error hshort

/-- A record that is short by what has been dropped depends on host and counts alone. -/
theorem Short.frame (n c lost : Counts) : Frame (Short (ω := ω) n c lost) where
  logbook := by
    rintro s t ⟨d, hcounts, rfl⟩
    rfl
  relog := by
    rintro s t ⟨d, hcounts, rfl⟩ b
    exact ⟨d, hcounts, rfl⟩
  interrupt := by
    rintro s t ⟨d, hcounts, rfl⟩
    rfl
  receive := by
    rintro s t ⟨d, hcounts, rfl⟩ i
    exact ⟨d, hcounts, rfl⟩

/-- No counter goes down where the ledger is kept. -/
theorem Agree.grows {I : σ → Prop} {c : Counts} {w w' : Workspace σ ω} {b : β}
    {F : Workspace σ ω → Workspace σ (ω × Counts) → Prop}
    {y : Except (Failure α) β × Workspace σ (ω × Counts)}
    (h : Agree ((ledger w.session.counts c).keeping I).states F (.ok b, w') y) :
    I w'.solver ∧ ∃ d, w'.session.counts = w.session.counts + d := by
  obtain ⟨v, -, ⟨d, hd, -⟩, hI, -⟩ := h.ok_right
  exact ⟨hI, d, hd⟩

/-- **Whatever solvers do in a session, the wrapper counts what the operator receives.** -/
theorem ledger_lockstep (n c : Counts) (A : Setting ω α) :
    Lockstep (ledger n c) A A.recording where
  debug := rfl
  cost x := fun _ _ h => h.evaluate .cost (A.operator.cost x)
  gradient x := fun _ _ h => h.evaluate .gradient (A.operator.gradient x)
  hessian x := fun _ _ h => h.evaluate .hessian (A.operator.hessian x)
  counts := by
    rintro s t ⟨d, hcounts, rfl⟩
    rfl
  states := Short.frame n c .zero
  failed := Short.frame n c .zero

/-- No counter goes down in a step of a solver that runs no other one. -/
theorem Solver.step_grows [Scalar α] {A : Setting ω α} {S : Solver σ ω α}
    {S' : Solver σ (ω × Counts) α} (hS : ∀ n c, S.Follows ((ledger n c).workspace σ) A A.recording S')
    {p : Progress α} {w w' : Workspace σ ω} {report : Report α}
    (h : (S.step A p).exec w = (.ok report, w')) :
    ∃ d, w'.session.counts = w.session.counts + d := by
  have hagree := (hS w.session.counts .zero).step p (s := w)
    (t := ⟨w.solver, w.session.recorded .zero⟩) ⟨Short.start w.session .zero, trivial, rfl⟩
  rw [h] at hagree
  exact hagree.grows.2

end Minimization
