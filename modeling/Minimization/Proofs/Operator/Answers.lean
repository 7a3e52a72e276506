import Minimization.Proofs.Contract.Ends

namespace Minimization

/-!
# Operators whose answers depend on the point alone

An operator may remember what it was asked, deliver interrupts and fail; what it answers may still
be a function of the point.

* `Answers` — on some points, every answer is that of a function, and every failure is of some kind.
* `Session.ends_cost` and the lemmas beside it — counted evaluations.
* `Operator.Deterministic` — everywhere and for all three questions, whatever the failures are.
* `Operator.Consistent` — the failures depend on the point alone as well, so that an evaluation may be
  repeated.
-/

variable {ω α β : Type}

/-- Wherever a question is asked at a point of `D`, and whatever the operator remembers, the answer
    is that of `f`, or it fails with a failure for which `E` holds. -/
def Answers (question : Tensor α → Action (Host ω) α β) (D : Tensor α → Prop) (f : Tensor α → β)
    (E : Failure α → Prop) : Prop :=
  ∀ x host, D x → (question x).Ends host (fun b _ => b = f x) E

/-- An operator that answers by a function may still fail in any way. -/
theorem Answers.of_deterministic {question : Tensor α → Action (Host ω) α β} {f : Tensor α → β}
    (h : ∀ x host b host', (question x).exec host = (.ok b, host') → b = f x)
    (D : Tensor α → Prop) : Answers question D f fun _ => True :=
  fun x host _ => .intro (fun b host' hok => h x host b host' hok) fun _ _ _ => trivial

namespace Session

variable {s : Session ω} {E : Failure α → Prop}

/-- An evaluation is counted and carried out. -/
@[simp] theorem ends_evaluate (k : Capability) (m : Action (Host ω) α β)
    (Q : β → Session ω → Prop) : (evaluate k m).Ends s Q E ↔
      m.Ends s.host (fun b host => Q b ⟨host, s.counts.tick k, s.logbook⟩) E := by
  unfold evaluate onHost
  rw [Action.ends_bind, Action.ends_modify, Action.ends_focus]

variable {op : Operator ω α} {D : Tensor α → Prop} {x : Tensor α}

/-- A cost is answered by the function. -/
theorem ends_cost {f : Tensor α → α} (h : Answers op.cost D f E) (hx : D x) :
    (cost op x).Ends s (fun c _ => c = f x) E :=
  (ends_evaluate ..).2 (h x s.host hx)

/-- So is a gradient. -/
theorem ends_gradient {g : Tensor α → Tensor α} (h : Answers op.gradient D g E) (hx : D x) :
    (gradient op x).Ends s (fun v _ => v = g x) E :=
  (ends_evaluate ..).2 (h x s.host hx)

/-- So is a Hessian. -/
theorem ends_hessian {g : Tensor α → Tensor α} (h : Answers op.hessian D g E) (hx : D x) :
    (hessian op x).Ends s (fun v _ => v = g x) E :=
  (ends_evaluate ..).2 (h x s.host hx)

end Session

/-- Wherever the operator answers, the answer depends on the point alone. -/
structure Operator.Deterministic (op : Operator ω α) (f : Tensor α → α)
    (g h : Tensor α → Tensor α) : Prop where
  cost : ∀ x host c host', (op.cost x).exec host = (.ok c, host') → c = f x
  gradient : ∀ x host v host', (op.gradient x).exec host = (.ok v, host') → v = g x
  hessian : ∀ x host m host', (op.hessian x).exec host = (.ok m, host') → m = h x

namespace Operator.Deterministic

variable {op : Operator ω α} {f : Tensor α → α} {g h : Tensor α → Tensor α} {session : Session ω}

/-- Counted evaluations, if nothing is said about failures. -/
theorem ends_cost (hop : op.Deterministic f g h) (x : Tensor α) :
    (Session.cost op x).Ends session (fun c _ => c = f x) fun _ => True :=
  Session.ends_cost (.of_deterministic hop.cost fun _ => True) trivial

/-- So is a gradient of a deterministic operator. -/
theorem ends_gradient (hop : op.Deterministic f g h) (x : Tensor α) :
    (Session.gradient op x).Ends session (fun v _ => v = g x) fun _ => True :=
  Session.ends_gradient (.of_deterministic hop.gradient fun _ => True) trivial

/-- So is its Hessian. -/
theorem ends_hessian (hop : op.Deterministic f g h) (x : Tensor α) :
    (Session.hessian op x).Ends session (fun m _ => m = h x) fun _ => True :=
  Session.ends_hessian (.of_deterministic hop.hessian fun _ => True) trivial

end Operator.Deterministic

/-- Answers and failures of the operator are those of functions of the point, whatever else an
    evaluation does. -/
structure Operator.Consistent (op : Operator ω α) (F : Tensor α → Except (Failure α) α)
    (G H : Tensor α → Except (Failure α) (Tensor α)) : Prop where
  cost : ∀ x host, ((op.cost x).exec host).1 = F x
  gradient : ∀ x host, ((op.gradient x).exec host).1 = G x
  hessian : ∀ x host, ((op.hessian x).exec host).1 = H x

/-- An evaluation is counted, whatever its outcome. -/
theorem Session.ends_evaluate_consistent {k : Capability} {m : Action (Host ω) α β}
    {y : Except (Failure α) β} {s : Session ω} (hm : (m.exec s.host).1 = y) :
    (Session.evaluate k m).Ends s (fun b t => y = .ok b ∧ t.counts = s.counts.tick k)
      fun e => y = .error e := by
  rw [ends_evaluate]
  refine .intro (fun b host hok => ⟨?_, rfl⟩) fun e host herror => ?_
  · rw [← hm, hok]
  · rw [← hm, herror]

/-- An evaluation that is known to succeed. -/
theorem Session.ends_evaluate_known {k : Capability} {m : Action (Host ω) α β} {b : β}
    {s : Session ω} (hm : (m.exec s.host).1 = .ok b) :
    (Session.evaluate k m).Ends s (fun b' t => b' = b ∧ t.counts = s.counts.tick k)
      fun _ => False :=
  ((ends_evaluate_consistent hm).mono fun _ _ h => ⟨(Except.ok.inj h.1).symm, h.2⟩).expecting nofun

namespace Operator.Consistent

variable {op : Operator ω α} {F : Tensor α → Except (Failure α) α}
  {G H : Tensor α → Except (Failure α) (Tensor α)} {s : Session ω} {x : Tensor α}

/-- Counted evaluations, if nothing is said about failures. -/
theorem ends_cost (hop : op.Consistent F G H) (x : Tensor α) : (Session.cost op x).Ends s
    (fun c _ => F x = .ok c) fun _ => True :=
  ((Session.ends_evaluate_consistent (hop.cost x s.host)).mono fun _ _ h => h.1).expecting
    fun _ _ => trivial

/-- A gradient that is evaluated is the one that belongs to the point. -/
theorem ends_gradient (hop : op.Consistent F G H) (x : Tensor α) : (Session.gradient op x).Ends s
    (fun v _ => G x = .ok v) fun _ => True :=
  ((Session.ends_evaluate_consistent (hop.gradient x s.host)).mono fun _ _ h => h.1).expecting
    fun _ _ => trivial

/-- So is a Hessian. -/
theorem ends_hessian (hop : op.Consistent F G H) (x : Tensor α) : (Session.hessian op x).Ends s
    (fun m _ => H x = .ok m) fun _ => True :=
  ((Session.ends_evaluate_consistent (hop.hessian x s.host)).mono fun _ _ h => h.1).expecting
    fun _ _ => trivial

/-- Evaluations that are known to succeed. -/
theorem ends_cost_known (hop : op.Consistent F G H) {c : α} (hc : F x = .ok c) :
    (Session.cost op x).Ends s (fun c' t => c' = c ∧ t.counts = s.counts.tick .cost)
      fun _ => False :=
  Session.ends_evaluate_known ((hop.cost x s.host).trans hc)

/-- A gradient that exists is evaluated, and counted once. -/
theorem ends_gradient_known (hop : op.Consistent F G H) {v : Tensor α} (hv : G x = .ok v) :
    (Session.gradient op x).Ends s (fun v' t => v' = v ∧ t.counts = s.counts.tick .gradient)
      fun _ => False :=
  Session.ends_evaluate_known ((hop.gradient x s.host).trans hv)

/-- So is a Hessian. -/
theorem ends_hessian_known (hop : op.Consistent F G H) {m : Tensor α} (hm : H x = .ok m) :
    (Session.hessian op x).Ends s (fun m' t => m' = m ∧ t.counts = s.counts.tick .hessian)
      fun _ => False :=
  Session.ends_evaluate_known ((hop.hessian x s.host).trans hm)

end Operator.Consistent

end Minimization
