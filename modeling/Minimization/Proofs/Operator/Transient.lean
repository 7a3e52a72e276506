import Minimization.Proofs.Counts.Recording
import Minimization.Proofs.Coupling.Alone
import Minimization.Proofs.Operator.Answers

namespace Minimization

/-!
# Failures that pass

The answers of an operator may depend on the point alone, and it may still fail once where it should
have answered: afterwards it answers as if nothing had happened.

* `Operator.Pointwise` — the answers are those of functions of the point.
* `Operator.Transient` — so they are, but one evaluation may fail; from then on the operator is spent.
* `Session.ends_evaluate_spent` — a spent operator yields what is known.
* `Operator.faltering` — the operator that fails at its evaluation of some number.
* `transience` — sessions of two such operators, the first of which does not fail.
* `transience_hosts`, `transience_nests` — evaluations keep to it, and so do nested runs.
-/

variable {ω ω' α β : Type}

/-! ### Operators -/

/-- The answers of the operator are those of functions of the point, which may be failures.  It does
    not ask the run to stop. -/
structure Operator.Pointwise (op : Operator ω α) (F : Tensor α → Except (Failure α) α)
    (G H : Tensor α → Except (Failure α) (Tensor α)) : Prop where
  cost : ∀ x host, ∃ m, (op.cost x).exec host = (F x, { host with memory := m })
  gradient : ∀ x host, ∃ m, (op.gradient x).exec host = (G x, { host with memory := m })
  hessian : ∀ x host, ∃ m, (op.hessian x).exec host = (H x, { host with memory := m })

/-- How an evaluation ends that should yield `y`: it does, or it fails, and the operator is spent from
    then on. -/
inductive Wanes (spent : ω → Prop) (host : Host ω) (y : Except (Failure α) β) :
    Except (Failure α) β × Host ω → Prop
  | answered {m : ω} (h : spent m ↔ spent host.memory) :
      Wanes spent host y (y, { host with memory := m })
  | failed {m : ω} (e : Failure α) (hbefore : ¬ spent host.memory) (h : spent m) :
      Wanes spent host y (.error e, { host with memory := m })

/-- The answers of the operator are those of functions of the point, but one evaluation may fail: which
    one does not matter, nor does how.  Whether that is past can be told from the memory. -/
structure Operator.Transient (op : Operator ω α) (spent : ω → Prop)
    (F : Tensor α → Except (Failure α) α) (G H : Tensor α → Except (Failure α) (Tensor α)) : Prop where
  cost : ∀ x host, Wanes spent host (F x) ((op.cost x).exec host)
  gradient : ∀ x host, Wanes spent host (G x) ((op.gradient x).exec host)
  hessian : ∀ x host, Wanes spent host (H x) ((op.hessian x).exec host)

variable {F : Tensor α → Except (Failure α) α} {G H : Tensor α → Except (Failure α) (Tensor α)}

/-- Once the operator is spent, it answers. -/
theorem Wanes.of_spent {spent : ω → Prop} {host : Host ω} {y : Except (Failure α) β}
    {x : Except (Failure α) β × Host ω} (h : Wanes spent host y x) (hspent : spent host.memory) :
    x.1 = y ∧ spent x.2.memory ∧ x.2.interrupt = host.interrupt := by
  cases h with
  | answered h => exact ⟨rfl, h.2 hspent, rfl⟩
  | failed e hbefore => exact absurd hspent hbefore

/-- A spent operator stays so and does not ask the run to stop. -/
theorem Operator.Transient.keeps {op : Operator ω α} {spent : ω → Prop} (h : op.Transient spent F G H)
    (i : Interrupt) : op.Keeps fun host => spent host.memory ∧ host.interrupt = i where
  cost x host hhost :=
    have hends := (h.cost x host).of_spent hhost.1
    ⟨hends.2.1, hends.2.2.trans hhost.2⟩
  gradient x host hhost :=
    have hends := (h.gradient x host).of_spent hhost.1
    ⟨hends.2.1, hends.2.2.trans hhost.2⟩
  hessian x host hhost :=
    have hends := (h.hessian x host).of_spent hhost.1
    ⟨hends.2.1, hends.2.2.trans hhost.2⟩

/-- A spent operator yields what is known. -/
theorem Session.ends_evaluate_spent {spent : ω → Prop} {k : Capability} {m : Action (Host ω) α β}
    {y : Except (Failure α) β} {b : β} {t : Session ω} (hm : Wanes spent t.host y (m.exec t.host))
    (hy : y = .ok b) (ht : spent t.host.memory) : (Session.evaluate k m).Ends t
      (fun c t' => c = b ∧ spent t'.host.memory) fun _ => False := by
  rw [Session.ends_evaluate]
  obtain ⟨houtcome, hspent, -⟩ := hm.of_spent ht
  unfold Action.Ends
  rcases hexec : m.exec t.host with ⟨_ | c, after⟩
  · rw [hexec, hy] at houtcome
    cases houtcome
  · rw [hexec, hy] at houtcome
    rw [hexec] at hspent
    exact ⟨Except.ok.inj houtcome, hspent⟩

namespace Operator.Transient

variable {op : Operator ω α} {spent : ω → Prop} {x : Tensor α} {t : Session ω}

/-- Once nothing fails any more, a cost that exists is evaluated. -/
theorem ends_cost_spent (h : op.Transient spent F G H) {c : α} (hc : F x = .ok c)
    (ht : spent t.host.memory) :
    (Session.cost op x).Ends t (fun c' t' => c' = c ∧ spent t'.host.memory) fun _ => False :=
  Session.ends_evaluate_spent (h.cost x t.host) hc ht

/-- So is a gradient. -/
theorem ends_gradient_spent (h : op.Transient spent F G H) {v : Tensor α} (hv : G x = .ok v)
    (ht : spent t.host.memory) :
    (Session.gradient op x).Ends t (fun v' t' => v' = v ∧ spent t'.host.memory) fun _ => False :=
  Session.ends_evaluate_spent (h.gradient x t.host) hv ht

/-- So is a Hessian. -/
theorem ends_hessian_spent (h : op.Transient spent F G H) {m : Tensor α} (hm : H x = .ok m)
    (ht : spent t.host.memory) :
    (Session.hessian op x).Ends t (fun m' t' => m' = m ∧ spent t'.host.memory) fun _ => False :=
  Session.ends_evaluate_spent (h.hessian x t.host) hm ht

end Operator.Transient

/-- Evaluations do not ask the run to stop. -/
theorem Operator.Pointwise.keeps {op : Operator ω α} (h : op.Pointwise F G H) (i : Interrupt) :
    op.Keeps fun host => host.interrupt = i where
  cost x host hhost := by
    obtain ⟨m, hexec⟩ := h.cost x host
    rw [hexec]
    exact hhost
  gradient x host hhost := by
    obtain ⟨m, hexec⟩ := h.gradient x host
    rw [hexec]
    exact hhost
  hessian x host hhost := by
    obtain ⟨m, hexec⟩ := h.hessian x host
    rw [hexec]
    exact hhost

/-- The answers may be had again. -/
theorem Operator.Pointwise.consistent {op : Operator ω α} (h : op.Pointwise F G H) :
    op.Consistent F G H where
  cost x host := by
    obtain ⟨m, hexec⟩ := h.cost x host
    rw [hexec]
  gradient x host := by
    obtain ⟨m, hexec⟩ := h.gradient x host
    rw [hexec]
  hessian x host := by
    obtain ⟨m, hexec⟩ := h.hessian x host
    rw [hexec]

/-- Counts an evaluation; the one of number `n` fails. -/
def Action.faltering (n : Nat) (e : Failure α) (m : Action (Host ω) α β) :
    Action (Host (ω × Nat)) α β :=
  .ofFun fun h =>
    if h.memory.2 = n then (.error e, { h with memory := (h.memory.1, n + 1) })
    else
      let (outcome, after) := m.exec ⟨h.memory.1, h.interrupt⟩
      (outcome, ⟨(after.memory, h.memory.2 + 1), after.interrupt⟩)

/-- The operator that fails with `e` at its evaluation of number `n`, whatever is asked then. -/
def Operator.faltering (op : Operator ω α) (n : Nat) (e : Failure α) : Operator (ω × Nat) α where
  name := op.name
  cost? := some fun x => (op.cost x).faltering n e
  gradient? := some fun x => (op.gradient x).faltering n e
  hessian? := some fun x => (op.hessian x).faltering n e
  jacobian? := some fun x => (op.jacobian x).faltering n e

/-- The failure happens at one evaluation and at none after it. -/
theorem Action.faltering_wanes {n : Nat} {e : Failure α} {m : Action (Host ω) α β}
    {y : Except (Failure α) β}
    (h : ∀ host, ∃ memory, m.exec host = (y, { host with memory := memory })) (host : Host (ω × Nat)) :
    Wanes (fun memory => n < memory.2) host y ((m.faltering n e).exec host) := by
  unfold faltering
  rw [exec_ofFun]
  dsimp only
  split
  · next hnow => exact .failed e (by omega) (Nat.lt_succ_self n)
  · next hnow =>
    obtain ⟨memory, hm⟩ := h ⟨host.memory.1, host.interrupt⟩
    rw [hm]
    exact .answered (by simp only; omega)

/-- An operator with a failure at one evaluation is spent after it. -/
theorem Operator.Pointwise.faltering {op : Operator ω α} (h : op.Pointwise F G H) (n : Nat)
    (e : Failure α) : (op.faltering n e).Transient (fun memory => n < memory.2) F G H where
  cost x := Action.faltering_wanes (h.cost x)
  gradient x := Action.faltering_wanes (h.gradient x)
  hessian x := Action.faltering_wanes (h.hessian x)

/-! ### Sessions -/

/-- Whether counts have gone back does not depend on what came before both. -/
theorem Counts.decreased?_add_left (c k l : Counts) : decreased? (c + k) (c + l) = decreased? k l := by
  unfold decreased?
  congr 1
  funext capability
  rw [get_add, get_add]
  exact decide_eq_decide.2 (Nat.add_lt_add_iff_left)

/-- Two sessions in which the same has been counted since `c` and `d`, and interrupts are received by
    `i` and `j`.  The operator of the second one is spent if `past` holds.  Only if it is not the
    second session can fail alone, and then it is; about the first one nothing is said. -/
def transience (spent : ω' → Prop) (past : Prop) (i j : Interrupt) (c d : Counts) :
    Bond (Session ω) (Session ω') where
  states s t := (spent t.host.memory ↔ past) ∧ s.host.interrupt = i ∧ t.host.interrupt = j ∧
    ∃ k, s.counts = c + k ∧ t.counts = d + k
  failed _ _ := True
  failed_of_states _ := trivial
  first _ := True
  second t := ¬ past ∧ spent t.host.memory

variable {spent : ω' → Prop} {past : Prop} {i j : Interrupt} {c d : Counts}

/-- **An evaluation** answers the same unless it still fails. -/
theorem transience_evaluate (k : Capability) {m : Action (Host ω) α β} {n : Action (Host ω') α β}
    {y : Except (Failure α) β}
    (hm : ∀ host, ∃ memory, m.exec host = (y, { host with memory := memory }))
    (hn : ∀ host, Wanes spent host y (n.exec host)) :
    (transience spent past i j c d).Related (Session.evaluate k m) (Session.evaluate k n) := by
  rintro s t ⟨hspent, hi, hj, l, hs, ht⟩
  obtain ⟨memory, hexec⟩ := hm s.host
  -- Both evaluations tick the same counter, whether they succeed or not.
  have hleft : (Session.evaluate k m).exec s = ((m.exec s.host).1,
      ⟨(m.exec s.host).2, s.counts.tick k, s.logbook⟩) := rfl
  have hright : (Session.evaluate k n).exec t = ((n.exec t.host).1,
      ⟨(n.exec t.host).2, t.counts.tick k, t.logbook⟩) := rfl
  have hwanes := hn t.host
  rw [hleft, hright, hexec]
  generalize n.exec t.host = x at hwanes
  -- Either the operator answers as it always does, or it fails once and is spent from then on.
  cases hwanes with
  | answered h =>
    cases y with
    | error e => exact .error trivial
    | ok b =>
      exact .ok ⟨h.trans hspent, hi, hj, l.tick k, by rw [hs, Counts.tick_add],
        by rw [ht, Counts.tick_add]⟩
  | failed e hbefore h => exact .second ⟨fun hpast => hbefore (hspent.2 hpast), h⟩

/-- Evaluations, log lines and debug mode. -/
theorem transience_hosts {op : Operator ω α} {op' : Operator ω' α} (hop : op.Pointwise F G H)
    (hop' : op'.Transient spent F G H) (debug : Bool) :
    Hosts (transience spent past i j c d) ⟨op, debug⟩ ⟨op', debug⟩ where
  cost x := transience_evaluate .cost (hop.cost x) (hop'.cost x)
  gradient x := transience_evaluate .gradient (hop.gradient x) (hop'.gradient x)
  hessian x := transience_evaluate .hessian (hop.hessian x) (hop'.hessian x)
  log _ _ _ := .modify fun _ _ h => h
  check := by
    rintro s t u v ⟨-, -, -, k, hs, ht⟩ ⟨-, -, -, l, hu, hv⟩
    refine .inl ⟨rfl, ?_⟩
    rw [hs, ht, hu, hv, Counts.decreased?_add_left, Counts.decreased?_add_left]
  failed_log _ _ _ := trivial
  first_relog _ _ := trivial
  second_relog h _ := h

/-- Nested counts do not matter to that. -/
theorem transience_nests : (transience (ω := ω) spent past i j c d).Nests
    (transience spent past i j .zero .zero) where
  enter h := ⟨h.1, h.2.1, h.2.2.1, .zero, rfl, rfl⟩
  leave := by
    rintro s t u v ⟨-, -, -, k, hs, ht⟩ ⟨hspent, hi, hj, l, hu, hv⟩
    refine ⟨hspent, hi, hj, k + l, ?_, ?_⟩
    · show s.counts + u.counts = c + (k + l)
      rw [hs, hu, Counts.zero_add, Counts.add_assoc]
    · show t.counts + v.counts = d + (k + l)
      rw [ht, hv, Counts.zero_add, Counts.add_assoc]
  failed _ _ := trivial
  first _ _ := trivial
  second h _ := h

end Minimization
