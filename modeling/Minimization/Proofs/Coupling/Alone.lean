import Minimization.Proofs.Contract.Leaves
import Minimization.Proofs.Coupling.Parting

namespace Minimization

/-!
# A computation beside itself

A computation keeps to a bond with itself in which both states are the same, so that what the rules
say of two computations says what a single one keeps, whether it succeeds or fails.

* `Operator.Keeps` — evaluations keep a property of the host.
* `Bond.solo` — the same session on both sides; its host has a property.
* `Bond.Related.kept` — what a computation that is related to itself keeps.
* `Method.step_kept`, `Method.init_kept` — the built-in methods keep what the evaluations keep.
* `SteepestDescent.blank_step`, `QuasiNewton.blank_step` — a step keeps the settings of its search.
* `QuasiNewton.prospect` — all of a step that can fail; `QuasiNewton.inverseHessian_of_step_failed` —
  so that a step that fails keeps the inverse Hessian.
-/

variable {σ ω ω' α β : Type}

/-- Evaluations keep a property of the host, whether they succeed or fail. -/
structure Operator.Keeps (op : Operator ω α) (K : Host ω → Prop) : Prop where
  cost : ∀ x host, K host → K ((op.cost x).exec host).2
  gradient : ∀ x host, K host → K ((op.gradient x).exec host).2
  hessian : ∀ x host, K host → K ((op.hessian x).exec host).2

/-- Where nothing is said of the host, nothing has to be kept. -/
theorem Operator.keeps_nothing (op : Operator ω α) : op.Keeps fun _ => True :=
  ⟨fun _ _ _ => trivial, fun _ _ _ => trivial, fun _ _ _ => trivial⟩

/-- The same session on both sides; its host has a property. -/
def Bond.solo (K : Host ω → Prop) : Bond (Session ω) (Session ω) where
  states s t := t = s ∧ K s.host
  failed s t := t = s ∧ K s.host
  failed_of_states := id
  first _ := False
  second _ := False

namespace Bond

variable {K : Host ω → Prop} {I : σ → Prop}

/-- What keeps the property of the host keeps to the bond with itself. -/
theorem solo_related {m : Action (Session ω) α β} (h : ∀ s, K s.host → K (m.exec s).2.host) :
    (solo K).Related m m := by
  rintro s t ⟨rfl, hK⟩
  have hafter := h t hK
  rcases hm : m.exec t with ⟨_ | _, u⟩
  · exact .error ⟨rfl, by rwa [hm] at hafter⟩
  · exact .ok ⟨rfl, by rwa [hm] at hafter⟩

/-- Counts are no part of the host. -/
theorem solo_nests (K : Host ω → Prop) : (solo K).Nests (solo K) where
  enter := by
    rintro s t ⟨rfl, hK⟩
    exact ⟨rfl, hK⟩
  leave := by
    rintro s t u v ⟨rfl, -⟩ ⟨rfl, hK⟩
    exact ⟨rfl, hK⟩
  failed := by
    rintro s t u v ⟨rfl, -⟩ ⟨rfl, hK⟩
    exact ⟨rfl, hK⟩
  first h _ := h
  second h _ := h

/-- **What a computation keeps** that is related to itself. -/
theorem Related.kept {m : Action (Workspace σ ω) α β} (h : ((solo K).keeping I).Related m m)
    {w : Workspace σ ω} (hK : K w.session.host) (hI : I w.solver) :
    K (m.exec w).2.session.host ∧ I (m.exec w).2.solver := by
  have hagree := h (s := w) (t := w) ⟨⟨rfl, hK⟩, hI, rfl⟩
  rcases hm : m.exec w with ⟨_ | _, v⟩
  · rw [hm] at hagree
    cases hagree with
    | error h => exact ⟨h.1.2, h.2.1⟩
    | first h => exact h.elim
    | second h => exact h.elim
  · rw [hm] at hagree
    obtain ⟨-, h⟩ := hagree.of_ok
    exact ⟨h.1.2, h.2.1⟩

end Bond

/-- Evaluations, log lines and debug mode, beside themselves. -/
theorem Operator.Keeps.hosts {A : Setting ω α} {K : Host ω → Prop} (h : A.operator.Keeps K) :
    Hosts (Bond.solo K) A A where
  cost x := Bond.solo_related fun s hK => h.cost x s.host hK
  gradient x := Bond.solo_related fun s hK => h.gradient x s.host hK
  hessian x := Bond.solo_related fun s hK => h.hessian x s.host hK
  log _ _ _ := Bond.solo_related fun _ hK => hK
  check := by
    rintro s t u v ⟨rfl, -⟩ ⟨rfl, -⟩
    exact .inl ⟨rfl, rfl⟩
  failed_log := by
    rintro s t ⟨rfl, hK⟩ level message
    exact ⟨rfl, hK⟩
  first_relog h _ := h
  second_relog h _ := h

variable [Scalar α] {A : Setting ω α} {K : Host ω → Prop}

/-! ### What methods keep -/

section
variable {w : Workspace (Method α) ω}

/-- The initialisation keeps what the evaluations keep, and the method stays one of the library. -/
theorem Method.init_kept (h : A.operator.Keeps K) (p : Progress α) (hK : K w.session.host)
    (hm : w.solver.BuiltIn) : K ((Method.solver.init A p).exec w).2.session.host ∧
      ((Method.solver.init A p).exec w).2.solver.BuiltIn :=
  ((Method.joined h.hosts.toAbreast).init p).kept hK hm

/-- So does a step, with the runs inside it. -/
theorem Method.step_kept (h : A.operator.Keeps K) (p : Progress α) (hK : K w.session.host)
    (hm : w.solver.BuiltIn) : K ((Method.solver.step A p).exec w).2.session.host ∧
      ((Method.solver.step A p).exec w).2.solver.BuiltIn :=
  ((Method.bonded h.hosts.toAbreast (Bond.solo_nests K) h.hosts).step p).kept hK hm

/-- A stopping rule leaves the workspace as it is. -/
theorem Method.terminate_frame (p : Progress α) (hm : w.solver.BuiltIn) :
    ((Method.solver.terminate p).exec w).2 = w := by
  obtain ⟨m, s⟩ := w
  have hexec : (Method.solver.terminate p).exec ⟨m, s⟩ =
      (Method.acting (fun S => S.terminate p) m).exec ⟨m, s⟩ :=
    Method.exec_dispatch (fun S => S.terminate p) ⟨m, s⟩
  rw [hexec]
  cases m with
  | lineSearch x => cases x <;> rfl
  | script x => exact hm.elim
  | _ => rfl

end

/-- **A step keeps the settings of its search**, whether it succeeds or fails. -/
theorem SteepestDescent.blank_step (A : Setting ω α) (p : Progress α)
    (w : Workspace (LineSearch α) ω) :
    ((SteepestDescent.solver.step A p).exec w).2.solver.blank = w.solver.blank :=
  have h := A.operator.keeps_nothing.hosts
  (((SteepestDescent.bonded_fixing h.toAbreast (Bond.solo_nests _) h w.solver.blank).step p).kept
    (w := w) trivial rfl).2

namespace QuasiNewton

/-- The same for the search of a quasi-Newton method. -/
theorem blank_step (A : Setting ω α) (p : Progress α) (w : Workspace (QuasiNewton α) ω) :
    ((QuasiNewton.solver.step A p).exec w).2.solver.search.blank = w.solver.search.blank :=
  have h := A.operator.keeps_nothing.hosts
  (((QuasiNewton.bonded_fixing h.toAbreast (Bond.solo_nests _) h w.solver.search.blank).step p).kept
    (w := w) trivial rfl).2

/-! ### The inverse Hessian -/

/-- What there is to report once a search has led to `found`, and the revised matrix. -/
def appraise (A : Setting ω α) (x oldGradient h : Tensor α) (found : Progress α) :
    Action (Workspace (QuasiNewton α) ω) α (Tensor α × Report α) := do
  let gradient ← Workspace.onSession (Session.gradient A.operator found.param)
  let update ← Action.ofExcept (revision h x oldGradient found.param gradient)
  let refined ← Workspace.onSession (refine h update)
  return (refined, { param := some found.param, cost := some found.cost, gradient := some gradient })

/-- All of a step that can fail: what there is to report, and the new inverse Hessian, which is not
    stored yet. -/
def prospect (A : Setting ω α) (p : Progress α) :
    Action (Workspace (QuasiNewton α) ω) α (Tensor α × Report α) := do
  let (oldGradient, h, direction) ← aim p
  let found ← Workspace.within (·.search) (fun search s => { s with search := search })
    (LineSearch.run A p.param (some direction) (some p.cost) (some oldGradient))
  appraise A p.param oldGradient h found

/-- A step stores the new inverse Hessian last. -/
theorem step_eq (A : Setting ω α) (p : Progress α) : step A p = (do
    let (refined, report) ← prospect A p
    Workspace.modifySolver fun m => { m with inverseHessian := refined }
    return report) := by
  rw [step_parts]
  unfold prospect appraise
  simp only [learn_parts, bind_assoc, pure_bind]

/-- The report and the revised matrix are evaluated and calculated. -/
theorem ordinary_appraise (I : QuasiNewton α → Prop) (x oldGradient h : Tensor α) (found : Progress α) :
    Ordinary I fun _ A => appraise A x oldGradient h found :=
  .bind (.onSession (.gradient _)) fun _ =>
    .calculating (uninterrupted_revision _ _ _ _ _) fun update _ =>
      .bind (.onSession (.refine h update)) fun _ => .pure _

/-- Until then the inverse Hessian stays. -/
theorem prospect_kept (A : Setting ω α) (p : Progress α) (w : Workspace (QuasiNewton α) ω) :
    ((prospect A p).exec w).2.solver.inverseHessian = w.solver.inverseHessian := by
  -- Whatever the search leaves, it is put back beside the matrix.
  have hrun (x : Tensor α) (d : Option (Tensor α)) (c : Option α) (g : Option (Tensor α)) :
      Workspace.Leaves (fun _ => True) (fun _ => True) (LineSearch.run A x d c g) :=
    fun _ _ => trivial
  have hprospect : Workspace.Leaves (fun s => s.inverseHessian = w.solver.inverseHessian)
      (fun s => s.inverseHessian = w.solver.inverseHessian) (prospect A p) := by
    refine .seq ((ordinary_aim _ p).leaves A) fun (oldGradient, h, direction) => ?_
    refine .seq ((hrun _ _ _ _).within (fun _ _ => trivial) fun _ _ _ hs => hs) fun found => ?_
    exact (ordinary_appraise _ p.param oldGradient h found).leaves A
  exact hprospect w rfl

/-- **A step that fails keeps the inverse Hessian.** -/
theorem inverseHessian_of_step_failed {p : Progress α} {e : Failure α}
    {w v : Workspace (QuasiNewton α) ω}
    (h : (QuasiNewton.solver.step A p).exec w = (.error e, v)) :
    v.solver.inverseHessian = w.solver.inverseHessian := by
  have hstep : (step A p).exec w = (.error e, v) := h
  rw [step_eq, Action.exec_bind_eq_error_iff] at hstep
  obtain hfail | ⟨⟨refined, report⟩, u, -, hstore⟩ := hstep
  · have hkept := prospect_kept A p w
    rwa [hfail] at hkept
  · have houtcome : (.ok report : Except (Failure α) (Report α)) = .error e :=
      congrArg Prod.fst hstore
    cases houtcome

end QuasiNewton

end Minimization
