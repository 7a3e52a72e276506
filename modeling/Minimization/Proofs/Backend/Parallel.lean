import Minimization.Proofs.Contract.Ends

namespace Minimization

/-!
# Computations whose failures are of one kind

Two computations are compared that work on different representations of the same data.  They come to
results that represent the same, or they fail, each in its own words, but with failures of one kind.

* `Kindred` — two outcomes represent the same.
* `Parallel` — so do two outcomes with the states that they leave.
* `Parallel.bind` and the rules beside it — one for each building block of a computation.
* `Parallel.onSession`, `Parallel.within`, `Parallel.wrapping`, `Parallel.nested` — the same on
  workspaces, where after a failure only the sessions count.
-/

variable {σ τ ω ω' α β γ δ ε : Type}

/-! ### Outcomes -/

/-- Both are results, and `V` holds of them, or both are failures of one kind. -/
inductive Kindred (V : β → γ → Prop) : Except (Failure α) β → Except (Failure α) γ → Prop
  | ok {b : β} {c : γ} (h : V b c) : Kindred V (.ok b) (.ok c)
  | error {e e' : Failure α} (hkind : e'.kind = e.kind) : Kindred V (.error e) (.error e')

namespace Kindred

variable {V : β → γ → Prop} {x : Except (Failure α) β} {y : Except (Failure α) γ}

/-- Data that belong together are calculations that do. -/
theorem pure {b : β} {c : γ} (h : V b c) :
    Kindred V (Pure.pure b : Except (Failure α) β) (Pure.pure c) := .ok h

/-- The same outcome. -/
theorem same (x : Except (Failure α) β) : Kindred (· = ·) x x := by
  cases x with
  | ok b => exact .ok rfl
  | error e => exact .error rfl

/-- The same failure. -/
theorem throw (e : Failure α) : Kindred V (MonadExcept.throw e) (MonadExcept.throw e) := .error rfl

/-- One computation after another. -/
theorem bind {U : δ → ε → Prop} {f : β → Except (Failure α) δ} {g : γ → Except (Failure α) ε}
    (h : Kindred V x y) (hf : ∀ b c, V b c → Kindred U (f b) (g c)) : Kindred U (x >>= f) (y >>= g) := by
  cases h with
  | ok h => exact hf _ _ h
  | error hkind => exact .error hkind

end Kindred

/-! ### Outcomes with states -/

/-- Both have succeeded, and `Q` holds of results and states, or both have failed in states with `F`,
    with failures of one kind. -/
inductive Parallel (Q : β → γ → σ → τ → Prop) (F : σ → τ → Prop) :
    Except (Failure α) β × σ → Except (Failure α) γ × τ → Prop
  | ok {b : β} {c : γ} {s : σ} {t : τ} (h : Q b c s t) : Parallel Q F (.ok b, s) (.ok c, t)
  | error {e e' : Failure α} {s : σ} {t : τ} (hkind : e'.kind = e.kind) (h : F s t) :
      Parallel Q F (.error e, s) (.error e', t)

namespace Parallel

variable {Q Q' : β → γ → σ → τ → Prop} {F F' : σ → τ → Prop} {s : σ} {t : τ}
  {m : Action σ α β} {n : Action τ α γ}

/-- What is said of the results may be weakened. -/
theorem mono {x : Except (Failure α) β × σ} {y : Except (Failure α) γ × τ} (h : Parallel Q F x y)
    (hQ : ∀ b c s t, Q b c s t → Q' b c s t) : Parallel Q' F x y := by
  cases h with
  | ok h => exact .ok (hQ _ _ _ _ h)
  | error hkind h => exact .error hkind h

/-- Either both have failed or both have succeeded. -/
theorem both {x : Except (Failure α) β × σ} {y : Except (Failure α) γ × τ} (h : Parallel Q F x y) :
    (∃ e e' s t, x = (.error e, s) ∧ y = (.error e', t) ∧ e'.kind = e.kind ∧ F s t) ∨
      ∃ b c s t, x = (.ok b, s) ∧ y = (.ok c, t) ∧ Q b c s t := by
  cases h with
  | @ok b c s t h => exact .inr ⟨b, c, s, t, rfl, rfl, h⟩
  | @error e e' s t hkind h => exact .inl ⟨e, e', s, t, rfl, rfl, hkind, h⟩

/-- One succeeds if the other does. -/
theorem isOk_eq {x : Except (Failure α) β × σ} {y : Except (Failure α) γ × τ} (h : Parallel Q F x y) :
    y.1.isOk = x.1.isOk := by
  cases h <;> rfl

/-- The states that they leave if they succeed. -/
theorem states {S : σ → τ → Prop} {x : Except (Failure α) β × σ} {y : Except (Failure α) γ × τ}
    (h : Parallel (fun _ _ => S) F x y) (hok : x.1.isOk = true) : S x.2 y.2 := by
  cases h with
  | ok h => exact h
  | error => cases hok

/-! ### Building blocks -/

/-- Nothing is done on either side. -/
theorem pure {b : β} {c : γ} (h : Q b c s t) : Parallel Q F
    ((Pure.pure b : Action σ α β).exec s) ((Pure.pure c : Action τ α γ).exec t) := .ok h

/-- Both sides fail alike. -/
theorem throw (e : Failure α) (h : F s t) : Parallel Q F
    ((MonadExcept.throw e : Action σ α β).exec s) ((MonadExcept.throw e : Action τ α γ).exec t) :=
  .error rfl h

/-- What would follow a failure does not matter. -/
theorem throw_bind (e : Failure α) {f : δ → Action σ α β} {g : ε → Action τ α γ} (h : F s t) :
    Parallel Q F ((MonadExcept.throw e >>= f : Action σ α β).exec s)
      ((MonadExcept.throw e >>= g : Action τ α γ).exec t) := .error rfl h

/-- **One computation after another.** -/
theorem bind {Q' : δ → ε → σ → τ → Prop} {f : β → Action σ α δ} {g : γ → Action τ α ε}
    (h : Parallel Q F (m.exec s) (n.exec t))
    (hf : ∀ b c s t, Q b c s t → Parallel Q' F ((f b).exec s) ((g c).exec t)) :
    Parallel Q' F ((m >>= f).exec s) ((n >>= g).exec t) := by
  rw [Action.exec_bind, Action.exec_bind]
  obtain ⟨e, e', s', t', hs, ht, hkind, hF⟩ | ⟨b, c, s', t', hs, ht, hQ⟩ := h.both
  · rw [hs, ht]
    exact .error hkind hF
  · rw [hs, ht]
    exact hf b c s' t' hQ

/-- A computation that does not look at the state. -/
theorem ofExcept {V : β → γ → Prop} {x : Except (Failure α) β} {y : Except (Failure α) γ}
    (h : Kindred V x y) (hQ : ∀ b c, V b c → Q b c s t) (hF : F s t) :
    Parallel Q F ((Action.ofExcept x).exec s) ((Action.ofExcept y).exec t) := by
  rw [Action.exec_ofExcept, Action.exec_ofExcept]
  cases h with
  | ok h => exact .ok (hQ _ _ h)
  | error hkind => exact .error hkind hF

/-- Such a computation and what follows it. -/
theorem ofExcept_bind {V : δ → ε → Prop} {x : Except (Failure α) δ} {y : Except (Failure α) ε}
    {f : δ → Action σ α β} {g : ε → Action τ α γ} (h : Kindred V x y) (hF : F s t)
    (hf : ∀ b c, V b c → Parallel Q F ((f b).exec s) ((g c).exec t)) :
    Parallel Q F ((Action.ofExcept x >>= f).exec s) ((Action.ofExcept y >>= g).exec t) :=
  .bind (.ofExcept (Q := fun b c s' t' => V b c ∧ s' = s ∧ t' = t) h
    (fun _ _ hV => ⟨hV, rfl, rfl⟩) hF) (by
      rintro b c _ _ ⟨hV, rfl, rfl⟩
      exact hf b c hV)

/-- A computation on a part of either state. -/
theorem focus {σ' τ' : Type} {get : σ → σ'} {set : σ' → σ → σ} {get' : τ → τ'} {set' : τ' → τ → τ}
    {Q' : β → γ → σ' → τ' → Prop} {m : Action σ' α β} {n : Action τ' α γ} {F' : σ' → τ' → Prop}
    (h : Parallel Q' F' (m.exec (get s)) (n.exec (get' t)))
    (hQ : ∀ b c u v, Q' b c u v → Q b c (set u s) (set' v t))
    (hF : ∀ u v, F' u v → F (set u s) (set' v t)) :
    Parallel Q F ((m.focus get set).exec s) ((n.focus get' set').exec t) := by
  rw [Action.exec_focus, Action.exec_focus]
  obtain ⟨e, e', u, v, hu, hv, hkind, huv⟩ | ⟨b, c, u, v, hu, hv, huv⟩ := h.both
  · rw [hu, hv]
    exact .error hkind (hF u v huv)
  · rw [hu, hv]
    exact .ok (hQ b c u v huv)

end Parallel

/-! ### Workspaces -/

/-- After a failure the sessions count, and the memory of the solver does not. -/
def Workspace.onSessions (R : Session ω → Session ω' → Prop) (w : Workspace σ ω) (v : Workspace τ ω') :
    Prop :=
  R w.session v.session

namespace Parallel

variable {σ' τ' : Type} {R : Session ω → Session ω' → Prop}
  {Q : β → γ → Workspace σ ω → Workspace τ ω' → Prop} {w : Workspace σ ω} {v : Workspace τ ω'}

open Workspace

/-- The memory is read. -/
theorem reading {F : Workspace σ ω → Workspace τ ω' → Prop} {f : σ → Action (Workspace σ ω) α β}
    {g : τ → Action (Workspace τ ω') α γ}
    (h : Parallel Q F ((f w.solver).exec w) ((g v.solver).exec v)) :
    Parallel Q F ((readSolver >>= f).exec w) ((readSolver >>= g).exec v) := h

/-- The memory is changed. -/
theorem modifying {F : Workspace σ ω → Workspace τ ω' → Prop} {φ : σ → σ} {ψ : τ → τ}
    {f : Unit → Action (Workspace σ ω) α β} {g : Unit → Action (Workspace τ ω') α γ}
    (h : Parallel Q F ((f ()).exec ⟨φ w.solver, w.session⟩) ((g ()).exec ⟨ψ v.solver, v.session⟩)) :
    Parallel Q F ((modifySolver φ >>= f).exec w) ((modifySolver ψ >>= g).exec v) := h

/-- The sessions act. -/
theorem onSession {V : β → γ → Prop} {m : Action (Session ω) α β} {n : Action (Session ω') α γ}
    (h : Parallel (fun b c s t => V b c ∧ R s t) R (m.exec w.session) (n.exec v.session))
    (hQ : ∀ b c s t, V b c → R s t → Q b c ⟨w.solver, s⟩ ⟨v.solver, t⟩) :
    Parallel Q (onSessions R) ((Workspace.onSession m).exec w) ((Workspace.onSession n).exec v) :=
  h.focus (fun b c s t hst => hQ b c s t hst.1 hst.2) fun _ _ hst => hst

/-- The sessions act, and the computation goes on. -/
theorem onSession_bind {V : δ → ε → Prop} {m : Action (Session ω) α δ} {n : Action (Session ω') α ε}
    {f : δ → Action (Workspace σ ω) α β} {g : ε → Action (Workspace τ ω') α γ}
    (h : Parallel (fun b c s t => V b c ∧ R s t) R (m.exec w.session) (n.exec v.session))
    (hf : ∀ b c s t, V b c → R s t →
      Parallel Q (onSessions R) ((f b).exec ⟨w.solver, s⟩) ((g c).exec ⟨v.solver, t⟩)) :
    Parallel Q (onSessions R) ((Workspace.onSession m >>= f).exec w)
      ((Workspace.onSession n >>= g).exec v) :=
  .bind (.onSession (Q := fun b c w' v' => V b c ∧ R w'.session v'.session ∧
    w'.solver = w.solver ∧ v'.solver = v.solver) h fun _ _ _ _ hV hR => ⟨hV, hR, rfl, rfl⟩) (by
      rintro b c ⟨_, s⟩ ⟨_, t⟩ ⟨hV, hR, rfl, rfl⟩
      exact hf b c s t hV hR)

/-- A part of the memory acts. -/
theorem within {part : σ → σ'} {put : σ' → σ → σ} {part' : τ → τ'} {put' : τ' → τ → τ}
    {Q' : β → γ → Workspace σ' ω → Workspace τ' ω' → Prop} {m : Action (Workspace σ' ω) α β}
    {n : Action (Workspace τ' ω') α γ}
    (h : Parallel Q' (onSessions R) (m.exec ⟨part w.solver, w.session⟩)
      (n.exec ⟨part' v.solver, v.session⟩))
    (hQ : ∀ b c w' v', Q' b c w' v' →
      Q b c ⟨put w'.solver w.solver, w'.session⟩ ⟨put' v'.solver v.solver, v'.session⟩) :
    Parallel Q (onSessions R) ((Workspace.within part put m).exec w)
      ((Workspace.within part' put' n).exec v) := by
  unfold Workspace.within
  rw [Action.exec_focus, Action.exec_focus]
  obtain ⟨e, e', w', v', hw, hv, hkind, hR⟩ | ⟨b, c, w', v', hw, hv, hwv⟩ := h.both
  · rw [hw, hv]
    exact .error hkind hR
  · rw [hw, hv]
    exact .ok (hQ b c w' v' hwv)

/-- What is wrapped acts. -/
theorem wrapping {wrap : σ' → σ} {wrap' : τ' → τ} {x : σ'} {y : τ'}
    {Q' : β → γ → Workspace σ' ω → Workspace τ' ω' → Prop} {m : Action (Workspace σ' ω) α β}
    {n : Action (Workspace τ' ω') α γ}
    (h : Parallel Q' (onSessions R) (m.exec ⟨x, w.session⟩) (n.exec ⟨y, v.session⟩))
    (hQ : ∀ b c w' v', Q' b c w' v' →
      Q b c ⟨wrap w'.solver, w'.session⟩ ⟨wrap' v'.solver, v'.session⟩) :
    Parallel Q (onSessions R) ((Workspace.wrapping wrap x m).exec w)
      ((Workspace.wrapping wrap' y n).exec v) := by
  unfold Workspace.wrapping
  rw [Action.exec_focus, Action.exec_focus]
  obtain ⟨e, e', w', v', hw, hv, hkind, hR⟩ | ⟨b, c, w', v', hw, hv, hwv⟩ := h.both
  · rw [hw, hv]
    exact .error hkind hR
  · rw [hw, hv]
    exact .ok (hQ b c w' v' hwv)

/-- A computation with counts of its own. -/
theorem nested {Q' : β → γ → Workspace σ ω → Workspace τ ω' → Prop} {m : Action (Workspace σ ω) α β}
    {n : Action (Workspace τ ω') α γ}
    (h : Parallel Q' (onSessions R) (m.exec (w.withCounts .zero)) (n.exec (v.withCounts .zero)))
    (hQ : ∀ b c w' v', Q' b c w' v' → Q b c (w'.withCounts (w.session.counts + w'.session.counts))
      (v'.withCounts (v.session.counts + v'.session.counts)))
    (hR : ∀ s t, R s t →
      R { s with counts := w.session.counts } { t with counts := v.session.counts }) :
    Parallel Q (onSessions R) ((Workspace.nested m).exec w) ((Workspace.nested n).exec v) := by
  unfold Workspace.nested
  rw [Action.exec_ofFun, Action.exec_ofFun]
  obtain ⟨e, e', w', v', hw, hv, hkind, hwv⟩ | ⟨b, c, w', v', hw, hv, hwv⟩ := h.both
  · rw [hw, hv]
    exact .error hkind (hR _ _ hwv)
  · rw [hw, hv]
    exact .ok (hQ b c w' v' hwv)

end Parallel

end Minimization
