import Minimization.Session

namespace Minimization

/-!
# What a computation ends in

* `Action.Ends` — from a state, a computation succeeds with a result and a final state of some kind,
  or fails in some way.  With `fun _ => False` for the failures it does not fail at all; with
  `fun _ => True` nothing is said about a failure.
* `Action.Yields` — from some state, a computation succeeds with a result.
* `Action.ends_bind` and the rules beside it — one for each building block of a computation, as
  rewriting rules, so that the statement about a program turns into one about its parts.
* `Action.Ends.mono`, `Action.Ends.bind` — to go on from what is known of a part.
-/

variable {σ τ ω α β γ : Type}

namespace Action

/-- A computation is what it does from every state. -/
theorem ext {m n : Action σ α β} (h : ∀ s, m.exec s = n.exec s) : m = n := funext h

/-- From the state `s` the computation succeeds with a result and a state for which `Q` holds, or
    fails with a failure for which `E` holds. -/
def Ends (m : Action σ α β) (s : σ) (Q : β → σ → Prop) (E : Failure α → Prop) : Prop :=
  match m.exec s with
  | (.ok b, t) => Q b t
  | (.error e, _) => E e

variable {m : Action σ α β} {s : σ} {Q : β → σ → Prop} {E : Failure α → Prop}

namespace Ends

/-- What holds at the end holds of a result that is at hand. -/
theorem of_ok {b : β} {t : σ} (h : m.Ends s Q E) (hm : m.exec s = (.ok b, t)) : Q b t := by
  unfold Ends at h
  rw [hm] at h
  exact h

/-- What holds of the failures holds of one that is at hand. -/
theorem of_error {e : Failure α} {t : σ} (h : m.Ends s Q E) (hm : m.exec s = (.error e, t)) :
    E e := by
  unfold Ends at h
  rw [hm] at h
  exact h

/-- A computation that must not fail succeeds. -/
theorem exists_ok (h : m.Ends s Q fun _ => False) : ∃ b t, m.exec s = (.ok b, t) ∧ Q b t := by
  rcases hm : m.exec s with ⟨e | b, t⟩
  · exact (h.of_error hm).elim
  · exact ⟨b, t, rfl, h.of_ok hm⟩

/-- What is said of the end may be weakened. -/
theorem mono {Q' : β → σ → Prop} (h : m.Ends s Q E) (hQ : ∀ b t, Q b t → Q' b t) :
    m.Ends s Q' E := by
  unfold Ends at h ⊢
  split at h
  · exact hQ _ _ h
  · exact h

/-- Fewer failures than are expected. -/
theorem expecting {E' : Failure α → Prop} (h : m.Ends s Q E) (hE : ∀ e, E e → E' e) :
    m.Ends s Q E' := by
  unfold Ends at h ⊢
  split at h
  · exact h
  · exact hE _ h

/-- Outcome by outcome. -/
theorem intro (hQ : ∀ b t, m.exec s = (.ok b, t) → Q b t)
    (hE : ∀ e t, m.exec s = (.error e, t) → E e) : m.Ends s Q E := by
  unfold Ends
  split
  · next b t hm => exact hQ b t hm
  · next e t hm => exact hE e t hm

/-- With the execution that led to the result. -/
theorem executed (h : m.Ends s Q E) : m.Ends s (fun b t => m.exec s = (.ok b, t) ∧ Q b t) E :=
  .intro (fun _ _ hm => ⟨hm, h.of_ok hm⟩) fun _ _ hm => h.of_error hm

/-- Two things that are known of one computation. -/
theorem also {Q' : β → σ → Prop} (h : m.Ends s Q E) (h' : m.Ends s Q' fun _ => True) :
    m.Ends s (fun b t => Q b t ∧ Q' b t) E :=
  .intro (fun _ _ hm => ⟨h.of_ok hm, h'.of_ok hm⟩) fun _ _ hm => h.of_error hm

end Ends

/-- If nothing is said about failures, a failure is no obstacle. -/
theorem ends_anyhow (m : Action σ α β) (s : σ) : m.Ends s (fun _ _ => True) fun _ => True :=
  .intro (fun _ _ _ => trivial) fun _ _ _ => trivial

/-- From some state the computation succeeds with the result `b`. -/
def Yields (m : Action σ α β) (b : β) : Prop := ∃ s t, m.exec s = (.ok b, t)

/-- What holds of every result holds of one. -/
theorem Yields.of_ends {b : β} {P : β → Prop} (hb : m.Yields b)
    (h : ∀ s, m.Ends s (fun b _ => P b) E) : P b := by
  obtain ⟨s, t, hexec⟩ := hb
  exact (h s).of_ok hexec

/-- Whatever comes out can come out. -/
theorem ends_yields (m : Action σ α β) (s : σ) : m.Ends s (fun b _ => m.Yields b) fun _ => True :=
  .intro (fun _ _ hm => ⟨s, _, hm⟩) fun _ _ _ => trivial

/-! ### Building blocks -/

/-- Nothing is done. -/
@[simp] theorem ends_pure (b : β) : (pure b : Action σ α β).Ends s Q E ↔ Q b s := Iff.rfl

/-- A failure leaves nothing to say of the state. -/
@[simp] theorem ends_throw (e : Failure α) : (throw e : Action σ α β).Ends s Q E ↔ E e := Iff.rfl

/-- **One computation after another**: the second one ends from wherever the first one has. -/
@[simp] theorem ends_bind (m : Action σ α β) (f : β → Action σ α γ) (Q : γ → σ → Prop) :
    (m >>= f).Ends s Q E ↔ m.Ends s (fun b t => (f b).Ends t Q E) E := by
  unfold Ends
  rw [exec_bind]
  rcases m.exec s with ⟨_ | _, _⟩ <;> rfl

/-- A computation and what follows it. -/
theorem Ends.bind {f : β → Action σ α γ} {Q' : γ → σ → Prop} (h : m.Ends s Q E)
    (hf : ∀ b t, Q b t → (f b).Ends t Q' E) : (m >>= f).Ends s Q' E := by
  rw [ends_bind]
  exact h.mono hf

/-- A calculation that has a result. -/
@[simp] theorem ends_ofExcept_ok (b : β) :
    (ofExcept (.ok b) : Action σ α β).Ends s Q E ↔ Q b s := Iff.rfl

/-- What follows a calculation that has succeeded. -/
theorem ofExcept_ok_bind (b : β) (f : β → Action σ α γ) : (ofExcept (.ok b) >>= f) = f b := rfl

/-- A calculation in two parts. -/
theorem ofExcept_bind (x : Except (Failure α) β) (f : β → Except (Failure α) γ) :
    (ofExcept (x >>= f) : Action σ α γ) = ofExcept x >>= fun b => ofExcept (f b) := by
  cases x with
  | ok b => rfl
  | error e => rfl

/-- A result that is there or is not. -/
theorem ends_ofExcept {x : Except (Failure α) β} (hQ : ∀ b, x = .ok b → Q b s)
    (hE : ∀ e, x = .error e → E e) : (ofExcept x : Action σ α β).Ends s Q E := by
  cases x with
  | ok b => exact hQ b rfl
  | error e => exact hE e rfl

/-- A choice between two computations. -/
theorem ends_ite {c : Prop} [Decidable c] (m n : Action σ α β) :
    (if c then m else n).Ends s Q E ↔ if c then m.Ends s Q E else n.Ends s Q E := by
  split
  · rfl
  · rfl

/-- The state is looked at. -/
@[simp] theorem ends_get (Q : σ → σ → Prop) : (get : Action σ α σ).Ends s Q E ↔ Q s s := Iff.rfl

/-- The state is changed. -/
@[simp] theorem ends_modify (f : σ → σ) (Q : PUnit → σ → Prop) :
    (modify f : Action σ α PUnit).Ends s Q E ↔ Q ⟨⟩ (f s) := Iff.rfl

/-- A part of the state acts. -/
@[simp] theorem ends_focus (get : τ → σ) (set : σ → τ → τ) (m : Action σ α β) (t : τ)
    (Q : β → τ → Prop) : (m.focus get set).Ends t Q E ↔
      m.Ends (get t) (fun b s => Q b (set s t)) E := by
  unfold Ends
  rw [exec_focus]
  rcases m.exec (get t) with ⟨_ | _, _⟩ <;> rfl

end Action

/-! ### Workspaces -/

namespace Workspace

variable {w : Workspace σ ω} {E : Failure α → Prop}

/-- The session acts, and the memory of the solver stays. -/
@[simp] theorem ends_onSession (m : Action (Session ω) α β) (Q : β → Workspace σ ω → Prop) :
    (onSession m).Ends w Q E ↔ m.Ends w.session (fun b s => Q b ⟨w.solver, s⟩) E :=
  Action.ends_focus _ _ m w Q

/-- A result that is there or is not changes neither the memory nor the session. -/
theorem ends_ofExcept (x : Except (Failure α) β) (Q : β → Workspace σ ω → Prop) :
    (Action.ofExcept x : Action (Workspace σ ω) α β).Ends w Q E ↔
      (Action.ofExcept x : Action (Session ω) α β).Ends w.session (fun b s => Q b ⟨w.solver, s⟩) E := by
  cases x with
  | ok b => rfl
  | error e => rfl

/-- The memory is read. -/
@[simp] theorem ends_readSolver (Q : σ → Workspace σ ω → Prop) :
    (readSolver : Action (Workspace σ ω) α σ).Ends w Q E ↔ Q w.solver w := Iff.rfl

/-- The memory is changed. -/
@[simp] theorem ends_modifySolver (f : σ → σ) (Q : Unit → Workspace σ ω → Prop) :
    (modifySolver f : Action (Workspace σ ω) α Unit).Ends w Q E ↔
      Q () ⟨f w.solver, w.session⟩ := Iff.rfl

/-- A part of the memory acts. -/
@[simp] theorem ends_within (part : σ → τ) (put : τ → σ → σ) (m : Action (Workspace τ ω) α β)
    (Q : β → Workspace σ ω → Prop) : (within part put m).Ends w Q E ↔
      m.Ends ⟨part w.solver, w.session⟩ (fun b v => Q b ⟨put v.solver w.solver, v.session⟩) E :=
  Action.ends_focus _ _ m w Q

/-- A memory acts that takes the place of the whole. -/
@[simp] theorem ends_wrapping (wrap : τ → σ) (t : τ) (m : Action (Workspace τ ω) α β)
    (Q : β → Workspace σ ω → Prop) : (wrapping wrap t m).Ends w Q E ↔
      m.Ends ⟨t, w.session⟩ (fun b v => Q b ⟨wrap v.solver, v.session⟩) E :=
  Action.ends_focus _ _ m w Q

/-- A nested computation starts with counts of its own and ends with the sum. -/
@[simp] theorem ends_nested (m : Action (Workspace σ ω) α β) (Q : β → Workspace σ ω → Prop) :
    (nested m).Ends w Q E ↔ m.Ends (w.withCounts .zero)
      (fun b v => Q b (v.withCounts (w.session.counts + v.session.counts))) E := by
  unfold nested Action.Ends
  rw [Action.exec_ofFun]
  rcases m.exec (w.withCounts .zero) with ⟨_ | _, _⟩ <;> rfl

end Workspace

end Minimization
