import Minimization.Failure

namespace Minimization

/-!
# Computations that change a state and may fail

* `Action σ α β` — a computation on a state `σ` that yields a `β` or fails.  What it did to the
  state before it failed stays done.
* `Action.exec` — the outcome and the final state.
* `Action.attempt` — turns failure into a value.
* `Action.focus` — runs an action on a part of a larger state.
-/

/-- A computation on a state that may fail and keeps the state when it does. -/
abbrev Action (σ α β : Type) : Type := ExceptT (Failure α) (StateM σ) β

namespace Action

variable {σ τ α β γ : Type}

/-- The outcome of a computation, and the state it leaves. -/
def exec (m : Action σ α β) (s : σ) : Except (Failure α) β × σ := (ExceptT.run m).run s

/-- A computation given by its outcome and final state. -/
def ofFun (f : σ → Except (Failure α) β × σ) : Action σ α β :=
  ExceptT.mk (fun s => f s)

/-- A computation that does not look at the state. -/
def ofExcept (e : Except (Failure α) β) : Action σ α β := ofFun fun s => (e, s)

/-- Runs a computation and hands out its failure as a value. -/
def attempt (m : Action σ α β) : Action σ α (Except (Failure α) β) :=
  ofFun fun s => (.ok (exec m s).1, (exec m s).2)

/-- Runs a computation on a part of the state. -/
def focus (get : τ → σ) (set : σ → τ → τ) (m : Action σ α β) : Action τ α β :=
  ofFun fun t => ((exec m (get t)).1, set (exec m (get t)).2 t)

/-- A computation is carried out as it is given. -/
@[simp] theorem exec_ofFun (f : σ → Except (Failure α) β × σ) (s : σ) :
    exec (ofFun f) s = f s := rfl

/-- A value succeeds, and leaves the state alone. -/
@[simp] theorem exec_pure (b : β) (s : σ) : exec (pure b : Action σ α β) s = (.ok b, s) := rfl

/-- A failure leaves the state alone as well. -/
@[simp] theorem exec_throw (e : Failure α) (s : σ) :
    exec (throw e : Action σ α β) s = (.error e, s) := rfl

/-- In a sequence the rest is carried out only if the first part succeeds. -/
theorem exec_bind (m : Action σ α β) (f : β → Action σ α γ) (s : σ) :
    exec (m >>= f) s = match exec m s with
      | (.ok b, t) => exec (f b) t
      | (.error e, t) => (.error e, t) := by
  unfold exec
  rw [ExceptT.run_bind, StateT.run_bind]
  generalize StateT.run (ExceptT.run m) s = p
  rcases p with ⟨_ | _, t⟩ <;> rfl

/-- A sequence succeeds if both parts do. -/
theorem exec_bind_eq_ok_iff {m : Action σ α β} {f : β → Action σ α γ} {s u : σ} {c : γ} :
    (m >>= f).exec s = (.ok c, u) ↔
      ∃ b t, m.exec s = (.ok b, t) ∧ (f b).exec t = (.ok c, u) := by
  rw [exec_bind]
  rcases m.exec s with ⟨_ | b, t⟩
  · simp
  · constructor
    · intro h
      exact ⟨b, t, rfl, h⟩
    · rintro ⟨b', t', hm, h⟩
      cases hm
      exact h

/-- A sequence fails if its first part does, or if that succeeds and the rest fails. -/
theorem exec_bind_eq_error_iff {m : Action σ α β} {f : β → Action σ α γ} {s u : σ}
    {e : Failure α} : (m >>= f).exec s = (.error e, u) ↔
      m.exec s = (.error e, u) ∨
        ∃ b t, m.exec s = (.ok b, t) ∧ (f b).exec t = (.error e, u) := by
  rw [exec_bind]
  rcases m.exec s with ⟨_ | b, t⟩
  · simp
  · constructor
    · intro h
      exact .inr ⟨b, t, rfl, h⟩
    · rintro (hm | ⟨b', t', hm, h⟩)
      · simp at hm
      · cases hm
        exact h

/-- A computation whose result is not wanted. -/
theorem exec_discard (m : Action σ α β) (s : σ) :
    exec (discard m) s = ((exec m s).1.map fun _ => PUnit.unit, (exec m s).2) := by
  show exec (m >>= fun _ => pure PUnit.unit) s = _
  rw [exec_bind]
  rcases exec m s with ⟨_ | _, t⟩ <;> rfl

/-- The state is read. -/
@[simp] theorem exec_get (s : σ) : exec (get : Action σ α σ) s = (.ok s, s) := rfl

/-- The state is replaced. -/
@[simp] theorem exec_set (t s : σ) : exec (set t : Action σ α PUnit) s = (.ok ⟨⟩, t) := rfl

/-- The state is changed. -/
@[simp] theorem exec_modify (f : σ → σ) (s : σ) :
    exec (modify f : Action σ α PUnit) s = (.ok ⟨⟩, f s) := rfl

/-- An outcome that does not depend on the state leaves it alone. -/
@[simp] theorem exec_ofExcept (e : Except (Failure α) β) (s : σ) :
    exec (ofExcept e) s = (e, s) := rfl

/-- An attempt succeeds in any case. -/
@[simp] theorem exec_attempt (m : Action σ α β) (s : σ) :
    exec (attempt m) s = (.ok (exec m s).1, (exec m s).2) := rfl

/-- Only the part of the state can change. -/
@[simp] theorem exec_focus (get : τ → σ) (set : σ → τ → τ) (m : Action σ α β) (t : τ) :
    exec (focus get set m) t = ((exec m (get t)).1, set (exec m (get t)).2 t) := rfl

/-- A computation without a result that does not fail has only its final state to tell. -/
theorem exec_eq_of_isOk {m : Action σ α Unit} {s : σ} (h : (exec m s).1.isOk = true) :
    exec m s = (.ok (), (exec m s).2) := by
  rcases hm : exec m s with ⟨_ | _, t⟩
  · rw [hm] at h
    simp [Except.isOk, Except.toBool] at h
  · rfl

/-- A computation that fails has its failure and its final state to tell. -/
theorem exec_eq_of_not_isOk {m : Action σ α β} {s : σ} (h : (exec m s).1.isOk = false) :
    ∃ e, exec m s = (.error e, (exec m s).2) := by
  rcases hm : exec m s with ⟨e | _, t⟩
  · exact ⟨e, rfl⟩
  · rw [hm] at h
    simp [Except.isOk, Except.toBool] at h

end Action

end Minimization
