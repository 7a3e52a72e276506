import Minimization.Session

namespace Minimization

/-!
# Computations side by side

Two computations that are the same text over different operators are compared step by step: from
states that belong together they come to the same outcome, in states that belong together.

* `Agree` — two computations have come to the same outcome.
* `Coupling` — which states belong together, while the computations run and after both have failed.
* `Coupling.Related` — two computations keep to a coupling.
* `Related.bind` and the rules beside it — one for each building block of a computation.
* `Coupling.keeping`, `Coupling.workspace` — a coupling of sessions, with the same memory of the
  solver on both sides.
-/

variable {σ τ ω ω' α β γ : Type}

/-- The same outcome, in states that belong together: by `S` if both computations have succeeded, by
    `F` if both have failed. -/
inductive Agree (S F : σ → τ → Prop) :
    Except (Failure α) β × σ → Except (Failure α) β × τ → Prop
  | ok {b : β} {s : σ} {t : τ} (h : S s t) : Agree S F (.ok b, s) (.ok b, t)
  | error {e : Failure α} {s : σ} {t : τ} (h : F s t) : Agree S F (.error e, s) (.error e, t)

/-- Either both have failed or both have succeeded, in the same way. -/
theorem Agree.both {S F : σ → τ → Prop} {x : Except (Failure α) β × σ}
    {y : Except (Failure α) β × τ} (h : Agree S F x y) :
    (∃ e s t, x = (.error e, s) ∧ y = (.error e, t) ∧ F s t) ∨
      ∃ b s t, x = (.ok b, s) ∧ y = (.ok b, t) ∧ S s t := by
  cases h with
  | @ok b s t h => exact .inr ⟨b, s, t, rfl, rfl, h⟩
  | @error e s t h => exact .inl ⟨e, s, t, rfl, rfl, h⟩

section
variable {T F : σ → τ → Prop} {x : Except (Failure α) β × σ} {y : Except (Failure α) β × τ}
  {s : σ} {t : τ}

/-- If the first side succeeds, so does the second one. -/
theorem Agree.ok_right {b : β} (h : Agree T F ((.ok b, s) : Except (Failure α) β × σ) y) :
    ∃ t, y = (.ok b, t) ∧ T s t := by
  cases h with
  | @ok _ _ t h => exact ⟨t, rfl, h⟩

/-- If the second side succeeds, so does the first one. -/
theorem Agree.ok_left {b : β} (h : Agree T F x ((.ok b, t) : Except (Failure α) β × τ)) :
    ∃ s, x = (.ok b, s) ∧ T s t := by
  cases h with
  | @ok _ s _ h => exact ⟨s, rfl, h⟩

/-- If the first side fails, so does the second one. -/
theorem Agree.error_right {e : Failure α}
    (h : Agree T F ((.error e, s) : Except (Failure α) β × σ) y) :
    ∃ t, y = (.error e, t) ∧ F s t := by
  cases h with
  | @error _ _ t h => exact ⟨t, rfl, h⟩

/-- If the second side fails, so does the first one. -/
theorem Agree.error_left {e : Failure α} (h : Agree T F x ((.error e, t) : Except (Failure α) β × τ)) :
    ∃ s, x = (.error e, s) ∧ F s t := by
  cases h with
  | @error _ s _ h => exact ⟨s, rfl, h⟩

end

/-- Which states belong together. -/
structure Coupling (σ τ : Type) where
  /-- While the computations run. -/
  states : σ → τ → Prop
  /-- After both have failed. -/
  failed : σ → τ → Prop
  /-- They may fail at any time. -/
  failed_of_states : ∀ {s : σ} {t : τ}, states s t → failed s t

namespace Coupling

/-- Both computations come to the same outcome and keep to the coupling. -/
def Related (C : Coupling σ τ) (m : Action σ α β) (n : Action τ α β) : Prop :=
  ∀ ⦃s : σ⦄ ⦃t : τ⦄, C.states s t → Agree C.states C.failed (m.exec s) (n.exec t)

variable {C : Coupling σ τ}

/-! ### Building blocks -/

/-- Nothing is done on either side. -/
theorem Related.pure (b : β) :
    C.Related (pure b : Action σ α β) (pure b : Action τ α β) := by
  intro s t h
  exact .ok h

/-- A calculation comes to the same on both sides. -/
theorem Related.ofExcept (e : Except (Failure α) β) :
    C.Related (Action.ofExcept e : Action σ α β) (Action.ofExcept e : Action τ α β) := by
  intro s t h
  rw [Action.exec_ofExcept, Action.exec_ofExcept]
  cases e with
  | ok b => exact .ok h
  | error e => exact .error (C.failed_of_states h)

/-- The states are changed in ways that belong together. -/
theorem Related.modify {f : σ → σ} {g : τ → τ} (h : ∀ s t, C.states s t → C.states (f s) (g t)) :
    C.Related (modify f : Action σ α PUnit) (modify g : Action τ α PUnit) := by
  intro s t hst
  exact .ok (h s t hst)

/-- **Sequences.**  What is related step by step is related. -/
theorem Related.bind {m : Action σ α β} {n : Action τ α β} {f : β → Action σ α γ}
    {g : β → Action τ α γ} (hm : C.Related m n) (hf : ∀ b, C.Related (f b) (g b)) :
    C.Related (m >>= f) (n >>= g) := by
  intro s t h
  rw [Action.exec_bind, Action.exec_bind]
  obtain ⟨e, s', t', hs, ht, h'⟩ | ⟨b, s', t', hs, ht, h'⟩ := (hm h).both
  · rw [hs, ht]
    exact .error h'
  · rw [hs, ht]
    exact hf b h'

/-- **Parts.**  Computations on parts of the states are related if the parts belong together, and if
    it does not matter to the rest what becomes of them. -/
theorem Related.focus {σ' τ' : Type} {D : Coupling σ' τ'} {get : σ → σ'} {set : σ' → σ → σ}
    {get' : τ → τ'} {set' : τ' → τ → τ} {m : Action σ' α β} {n : Action τ' α β}
    (h : D.Related m n) (henter : ∀ s t, C.states s t → D.states (get s) (get' t))
    (hleave : ∀ s t, C.states s t → ∀ u v, D.states u v → C.states (set u s) (set' v t))
    (hfail : ∀ s t, C.states s t → ∀ u v, D.failed u v → C.failed (set u s) (set' v t)) :
    C.Related (m.focus get set) (n.focus get' set') := by
  intro s t hst
  rw [Action.exec_focus, Action.exec_focus]
  obtain ⟨e, u, v, hu, hv, huv⟩ | ⟨b, u, v, hu, hv, huv⟩ := (h (henter s t hst)).both
  · rw [hu, hv]
    exact .error (hfail s t hst u v huv)
  · rw [hu, hv]
    exact .ok (hleave s t hst u v huv)

/-! ### Workspaces -/

/-- A coupling of sessions, with the same memory of the solver on both sides.  While the
    computations run, the memory has a property. -/
def keeping {σ : Type} (I : σ → Prop) (C : Coupling (Session ω) (Session ω')) :
    Coupling (Workspace σ ω) (Workspace σ ω') where
  states w v := C.states w.session v.session ∧ I w.solver ∧ v = ⟨w.solver, v.session⟩
  failed w v := C.failed w.session v.session ∧ v = ⟨w.solver, v.session⟩
  failed_of_states h := ⟨C.failed_of_states h.1, h.2.2⟩

/-- A coupling of sessions, with the same memory of the solver on both sides. -/
abbrev workspace (σ : Type) (C : Coupling (Session ω) (Session ω')) :
    Coupling (Workspace σ ω) (Workspace σ ω') :=
  C.keeping fun _ : σ => True

section
variable {σ τ : Type} {I : σ → Prop} {C : Coupling (Session ω) (Session ω')}

/-- The same memory is read. -/
theorem Related.readSolver :
    (C.keeping I).Related (Workspace.readSolver : Action (Workspace σ ω) α σ)
      Workspace.readSolver := by
  rintro w ⟨_, s⟩ ⟨h, hI, ⟨⟩⟩
  exact .ok ⟨h, hI, rfl⟩

/-- Work on a part of the memory.  What is put back may give the memory a property. -/
theorem Related.inside {part : σ → τ} {put : τ → σ → σ} (hput : ∀ y s, I (put y s))
    {m : Action (Workspace τ ω) α β} {n : Action (Workspace τ ω') α β}
    (h : (C.workspace τ).Related m n) :
    (C.keeping I).Related (Workspace.within part put m) (Workspace.within part put n) := by
  refine h.focus ?_ ?_ ?_
  · rintro w ⟨_, s⟩ ⟨hs, -, ⟨⟩⟩
    exact ⟨hs, trivial, rfl⟩
  · rintro w ⟨_, s⟩ ⟨-, -, ⟨⟩⟩ u ⟨_, t⟩ ⟨hut, -, ⟨⟩⟩
    exact ⟨hut, hput u.solver w.solver, rfl⟩
  · rintro w ⟨_, s⟩ ⟨-, -, ⟨⟩⟩ u ⟨_, t⟩ ⟨hut, ⟨⟩⟩
    exact ⟨hut, rfl⟩

/-- Work on a part of the memory, of which nothing is kept. -/
theorem Related.within {part : σ → τ} {put : τ → σ → σ} {m : Action (Workspace τ ω) α β}
    {n : Action (Workspace τ ω') α β} (h : (C.workspace τ).Related m n) :
    (C.workspace σ).Related (Workspace.within part put m) (Workspace.within part put n) :=
  h.inside fun _ _ => trivial

/-- The memory that is wrapped takes the place of the whole memory. -/
theorem Related.wrapping {wrap : τ → σ} (hwrap : ∀ y, I (wrap y)) (x : τ)
    {m : Action (Workspace τ ω) α β} {n : Action (Workspace τ ω') α β}
    (h : (C.workspace τ).Related m n) :
    (C.keeping I).Related (Workspace.wrapping wrap x m) (Workspace.wrapping wrap x n) := by
  have hinside : (C.keeping I).Related (Workspace.within (fun _ => x) (fun y _ => wrap y) m)
      (Workspace.within (fun _ => x) (fun y _ => wrap y) n) := h.inside fun y _ => hwrap y
  exact hinside

end

end Coupling

end Minimization
