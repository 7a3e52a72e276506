import Minimization.Proofs.Coupling.Parting
import Mathlib.Data.Set.Basic

namespace Minimization

/-!
# Requests to stop that arrive during evaluations

The user may ask to stop while any evaluation is carried out.  A run that notes such requests down is
compared with the one that makes the same evaluations in peace.

* `Operator.Deaf` — evaluations touch the memory alone and are not what asks to stop.
* `Operator.signalled` — the user asks to stop during the evaluations with a number in some set.
* `Arrived` — a request has arrived between one evaluation and another.
* `signals` — a session in which nobody asks to stop, and one in which the requests are noted down.
* `signals_hosts`, `signals_nests` — evaluations and log lines keep to it, and so do nested
  computations.
* `Unheeded` — a computation that comes to the same whether or not the user asks to stop, and leaves
  the request where it is; `Unheeded.of_related` — one that keeps to `signals`.
-/

variable {σ ω α β : Type}

/-! ### Operators -/

/-- An evaluation touches the memory alone.  How requests to stop are received does not matter to it,
    and it does not end as if there had been one. -/
def Action.Deaf (m : Action (Host ω) α β) : Prop :=
  ∀ memory, ∃ y after, y ≠ .error .interrupted ∧ ∀ i, m.exec ⟨memory, i⟩ = (y, ⟨after, i⟩)

/-- All evaluations do. -/
structure Operator.Deaf (op : Operator ω α) : Prop where
  cost : ∀ x, (op.cost x).Deaf
  gradient : ∀ x, (op.gradient x).Deaf
  hessian : ∀ x, (op.hessian x).Deaf

/-- Counts an evaluation.  If its number is in `S`, the user asks to stop when it begins. -/
def Action.signalled (S : Set ℕ) [DecidablePred (· ∈ S)] (m : Action (Host ω) α β) :
    Action (Host (ω × ℕ)) α β := do
  let n := (← get).memory.2
  modify fun h => { h with memory := (h.memory.1, n + 1) }
  if n ∈ S then Host.deliver
  m.focus (fun h => ⟨h.memory.1, h.interrupt⟩) fun g h => ⟨(g.memory, h.memory.2), g.interrupt⟩

/-- The operator during whose evaluations with a number in `S` the user asks to stop.  With the empty
    set it only counts its evaluations. -/
def Operator.signalled (op : Operator ω α) (S : Set ℕ) [DecidablePred (· ∈ S)] :
    Operator (ω × ℕ) α where
  name := op.name
  cost? := some fun x => (op.cost x).signalled S
  gradient? := some fun x => (op.gradient x).signalled S
  hessian? := some fun x => (op.hessian x).signalled S
  jacobian? := some fun x => (op.jacobian x).signalled S

/-- A request has arrived from evaluation `k` on and before evaluation `n`. -/
def Arrived (S : Set ℕ) (k n : ℕ) : Prop := ∃ i ∈ S, k ≤ i ∧ i < n

/-- A request has arrived after an evaluation if it had before or arrives with that one. -/
theorem arrived_succ_iff {S : Set ℕ} {k n : ℕ} (h : k ≤ n) :
    Arrived S k (n + 1) ↔ Arrived S k n ∨ n ∈ S := by
  constructor
  · rintro ⟨i, hi, hki, hin⟩
    obtain hlt | rfl := Nat.lt_succ_iff_lt_or_eq.1 hin
    · exact .inl ⟨i, hi, hki, hlt⟩
    · exact .inr hi
  · rintro (⟨i, hi, hki, hin⟩ | hn)
    · exact ⟨i, hi, hki, by omega⟩
    · exact ⟨n, hn, h, Nat.lt_succ_self n⟩

/-- Without an evaluation none arrives. -/
theorem not_arrived_self (S : Set ℕ) (k : ℕ) : ¬ Arrived S k k := by
  rintro ⟨i, -, hki, hik⟩
  omega

/-- What the evaluation answers does not depend on the requests, which are noted down. -/
theorem Action.Deaf.exec_signalled {m : Action (Host ω) α β} (h : m.Deaf) (memory : ω) (n : ℕ) :
    ∃ y after, y ≠ .error .interrupted ∧ ∀ (S : Set ℕ) [DecidablePred (· ∈ S)] (i : Interrupt),
      (n ∈ S → i ≠ .unguarded) → (m.signalled S).exec ⟨(memory, n), i⟩ =
        (y, ⟨(after, n + 1), if n ∈ S then .guarded true else i⟩) := by
  obtain ⟨y, after, hy, hexec⟩ := h memory
  refine ⟨y, after, hy, fun S _ i hi => ?_⟩
  by_cases hn : n ∈ S
  · cases i with
    | unguarded => exact absurd rfl (hi hn)
    | guarded flag => simp [Action.signalled, Host.deliver, Action.exec_bind, hn, hexec]
  · simp [Action.signalled, Action.exec_bind, hn, hexec]

/-! ### Sessions -/

/-- The session in which requests are noted down, by `flag` so far. -/
def Session.noting (flag : Bool) (s : Session ω) : Session ω :=
  { s with host := { s.host with interrupt := .guarded flag } }

/-- The same session twice, except that on the right side a request has been noted down if there was
    one `before` evaluation `k`, or if one has arrived since. -/
structure Noted (S : Set ℕ) (k : ℕ) (before : Prop) (s t : Session (ω × ℕ)) : Prop where
  started : k ≤ s.host.memory.2
  peace : s.host.interrupt = .guarded false
  noted : ∃ flag, (flag = true ↔ before ∨ Arrived S k s.host.memory.2) ∧ t = s.noting flag

/-- A session in which nobody asks to stop, and one in which the requests are noted down.  Neither of
    them fails alone. -/
def signals (S : Set ℕ) (k : ℕ) (before : Prop) : Bond (Session (ω × ℕ)) (Session (ω × ℕ)) where
  states := Noted S k before
  failed := Noted S k before
  failed_of_states := id
  first _ := False
  second _ := False

namespace Noted

variable {S : Set ℕ} {k : ℕ} {before : Prop} {s t : Session (ω × ℕ)}

/-- The counts are those of the operator without signals. -/
theorem counts_eq (h : Noted S k before s t) : t.counts = s.counts := by
  obtain ⟨flag, -, rfl⟩ := h.noted
  rfl

/-- So are the log lines. -/
theorem logbook_eq (h : Noted S k before s t) : t.logbook = s.logbook := by
  obtain ⟨flag, -, rfl⟩ := h.noted
  rfl

/-- So is the memory, but for the number of evaluations. -/
theorem memory_eq (h : Noted S k before s t) : t.host.memory = s.host.memory := by
  obtain ⟨flag, -, rfl⟩ := h.noted
  rfl

/-- Counts may be changed on both sides. -/
theorem recount (h : Noted S k before s t) (c : Counts) :
    Noted S k before { s with counts := c } { t with counts := c } := by
  obtain ⟨flag, hflag, rfl⟩ := h.noted
  exact ⟨h.started, h.peace, flag, hflag, rfl⟩

/-- So may the log. -/
theorem relog (h : Noted S k before s t) (b : Logbook) :
    Noted S k before { s with logbook := b } { t with logbook := b } := by
  obtain ⟨flag, hflag, rfl⟩ := h.noted
  exact ⟨h.started, h.peace, flag, hflag, rfl⟩

/-- The run is asked to stop exactly if a request has arrived. -/
theorem raised_iff (h : Noted S k before s t) {c : RunConfig α} (hc : c.guarded = true) :
    Run.raised c t.host.interrupt = true ↔ before ∨ Arrived S k s.host.memory.2 := by
  obtain ⟨flag, hflag, rfl⟩ := h.noted
  rw [← hflag]
  cases flag <;> simp [Run.raised, hc, Session.noting]

end Noted

/-- Before anything has happened. -/
theorem Session.noted_start (S : Set ℕ) (before : Bool) (s : Session (ω × ℕ)) :
    Noted S s.host.memory.2 (before = true) (s.noting false) (s.noting before) :=
  ⟨le_rfl, rfl, before, by simp [not_arrived_self, Session.noting], rfl⟩

section
variable {S : Set ℕ} [DecidablePred (· ∈ S)] {k : ℕ} {before : Prop}

/-- **An evaluation** answers the same, and may note down a request. -/
theorem signals_evaluate (kind : Capability) {m : Action (Host ω) α β} (hm : m.Deaf) :
    (signals S k before).Related (Session.evaluate kind (m.signalled ∅))
      (Session.evaluate kind (m.signalled S)) := by
  rintro ⟨⟨⟨memory, n⟩, i⟩, counts, logbook⟩ t ⟨hk, hpeace, flag, hflag, rfl⟩
  obtain rfl : i = .guarded false := hpeace
  -- The operator takes no notice of interrupts, so its answer is the same on both sides.
  obtain ⟨y, after, -, hexec⟩ := hm.exec_signalled memory n
  have hleft : (Session.evaluate kind (m.signalled ∅)).exec
      ⟨⟨(memory, n), .guarded false⟩, counts, logbook⟩ =
        (y, ⟨⟨(after, n + 1), .guarded false⟩, counts.tick kind, logbook⟩) := by
    simp [Session.evaluate, Session.onHost, Action.exec_bind, hexec ∅]
  have hright : (Session.evaluate kind (m.signalled S)).exec
      (Session.noting flag ⟨⟨(memory, n), .guarded false⟩, counts, logbook⟩) =
        (y, ⟨⟨(after, n + 1), .guarded (flag || decide (n ∈ S))⟩, counts.tick kind, logbook⟩) := by
    -- On the right an interrupt is noted if this evaluation is among those signalled.
    by_cases hn : n ∈ S <;>
      simp [Session.evaluate, Session.onHost, Session.noting, Action.exec_bind, hexec S, hn]
  rw [hleft, hright]
  have hnoted : Noted S k before
      (⟨⟨(after, n + 1), .guarded false⟩, counts.tick kind, logbook⟩ : Session (ω × ℕ))
      ⟨⟨(after, n + 1), .guarded (flag || decide (n ∈ S))⟩, counts.tick kind, logbook⟩ := by
    refine ⟨Nat.le_succ_of_le hk, rfl, _, ?_, rfl⟩
    rw [Bool.or_eq_true, decide_eq_true_iff, hflag, arrived_succ_iff hk, or_assoc]
  cases y with
  | ok b => exact .ok hnoted
  | error e => exact .error hnoted

/-- Evaluations, log lines and debug mode. -/
theorem signals_hosts {op : Operator ω α} (hop : op.Deaf) (debug : Bool) :
    Hosts (signals S k before) ⟨op.signalled ∅, debug⟩ ⟨op.signalled S, debug⟩ where
  cost x := signals_evaluate .cost (hop.cost x)
  gradient x := signals_evaluate .gradient (hop.gradient x)
  hessian x := signals_evaluate .hessian (hop.hessian x)
  log level logger message := .modify fun s t h => by
    rw [h.logbook_eq]
    exact h.relog _
  check hst huv := .inl ⟨rfl, by rw [hst.counts_eq, huv.counts_eq]⟩
  failed_log {s t} h level message := by
    rw [h.logbook_eq]
    exact h.relog _
  first_relog h _ := h
  second_relog h _ := h

omit [DecidablePred (· ∈ S)] in
/-- Nested counts do not matter to the requests. -/
theorem signals_nests : (signals (ω := ω) S k before).Nests (signals S k before) where
  enter h := h.recount .zero
  leave {s t u v} hst huv := by
    rw [hst.counts_eq, huv.counts_eq]
    exact huv.recount (s.counts + u.counts)
  failed {s t u v} hst huv := by
    rw [hst.counts_eq]
    exact huv.recount s.counts
  first h _ := h
  second h _ := h

end

/-! ### Computations that do not heed them -/

/-- The computation `m` comes to what `m₀` comes to in peace.  It does not act on requests of the user,
    and leaves behind those that were there and those that have arrived meanwhile. -/
def Unheeded (S : Set ℕ) (m₀ m : Action (Workspace σ (ω × ℕ)) α β) : Prop :=
  ∀ (w : Workspace σ (ω × ℕ)) (flag : Bool) (y : Except (Failure α) β) (v : Workspace σ (ω × ℕ)),
    m₀.exec ⟨w.solver, w.session.noting false⟩ = (y, v) →
      ∃ flag', (flag' = true ↔ flag = true ∨
          Arrived S w.session.host.memory.2 v.session.host.memory.2) ∧
        m.exec ⟨w.solver, w.session.noting flag⟩ = (y, ⟨v.solver, v.session.noting flag'⟩)

/-- Whatever requests come, a computation in lockstep does not heed them. -/
theorem Unheeded.of_related {S : Set ℕ} {m₀ m : Action (Workspace σ (ω × ℕ)) α β}
    (h : ∀ k before, ((signals S k before).workspace σ).Related m₀ m) : Unheeded S m₀ m := by
  intro w flag y v hexec
  -- The flag that is up before is one that has been up since the start.
  have hrelated := h w.session.host.memory.2 (flag = true)
    (s := ⟨w.solver, w.session.noting false⟩) (t := ⟨w.solver, w.session.noting flag⟩)
    ⟨w.session.noted_start S flag, trivial, rfl⟩
  rw [hexec] at hrelated
  generalize m.exec ⟨w.solver, w.session.noting flag⟩ = x at hrelated
  cases hrelated with
  | ok hstates =>
    obtain ⟨⟨-, -, flag', hflag', hnoted⟩, -, hv⟩ := hstates
    exact ⟨flag', hflag', by rw [hv, hnoted]⟩
  | error hfailed =>
    obtain ⟨⟨-, -, flag', hflag', hnoted⟩, -, hv⟩ := hfailed
    exact ⟨flag', hflag', by rw [hv, hnoted]⟩
  | first h => exact h.elim
  | second h => exact h.elim

end Minimization
