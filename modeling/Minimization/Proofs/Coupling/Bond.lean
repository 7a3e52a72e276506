import Minimization.Proofs.Coupling.Basic

namespace Minimization

/-!
# Computations that may part

Two computations are compared that do the same as long as both succeed.  Either of them may fail where
the other one goes on: an operator may have a failure that another one does not have, or debug mode
may find fault with one of them.  What is said of a state in which one has failed alone is kept to the
end, because nothing that follows is carried out.

* `Accord` — two computations have come to the same outcome, or one of them has failed alone.
* `Action.resume`, `Accord.resume` — what follows an outcome is carried out only after a success.
* `Bond` — a coupling, together with the states in which either computation may fail alone.
* `Bond.Related` and the rules beside it — one for each building block of a computation.
* `Bond.keeping`, `Bond.fixing`, `Bond.workspace` — a bond of sessions, with the same memory of the
  solver on both sides.
* `Nests`, `Related.nested` — computations with counts of their own.
* `Coupling.bond`, `Bond.related_bond_iff` — a coupling is a bond in which neither side fails alone.
-/

variable {σ τ ω ω' α β γ κ : Type}

/-- The same outcome, in states that belong together as they do in `Agree`, or a failure of one side
    alone: of the first in a state with `L`, of the second in one with `R`. -/
inductive Accord (S F : σ → τ → Prop) (L : σ → Prop) (R : τ → Prop) :
    Except (Failure α) β × σ → Except (Failure α) β × τ → Prop
  | ok {b : β} {s : σ} {t : τ} (h : S s t) : Accord S F L R (.ok b, s) (.ok b, t)
  | error {e : Failure α} {s : σ} {t : τ} (h : F s t) : Accord S F L R (.error e, s) (.error e, t)
  | first {e : Failure α} {s : σ} {y : Except (Failure α) β × τ} (h : L s) :
      Accord S F L R (.error e, s) y
  | second {x : Except (Failure α) β × σ} {e : Failure α} {t : τ} (h : R t) :
      Accord S F L R x (.error e, t)

namespace Accord

variable {S F S' F' : σ → τ → Prop} {L L' : σ → Prop} {R R' : τ → Prop}
  {x : Except (Failure α) β × σ} {y : Except (Failure α) β × τ}

/-- What is said of the four ways to end may be weakened. -/
theorem mono (h : Accord S F L R x y) (hS : ∀ s t, S s t → S' s t) (hF : ∀ s t, F s t → F' s t)
    (hL : ∀ s, L s → L' s) (hR : ∀ t, R t → R' t) : Accord S' F' L' R' x y := by
  cases h with
  | ok h => exact .ok (hS _ _ h)
  | error h => exact .error (hF _ _ h)
  | first h => exact .first (hL _ h)
  | second h => exact .second (hR _ h)

/-- If both sides succeed, they yield the same. -/
theorem of_ok {b c : β} {s : σ} {t : τ}
    (h : Accord S F L R ((.ok b, s) : Except (Failure α) β × σ) (.ok c, t)) : b = c ∧ S s t := by
  cases h with
  | ok h => exact ⟨rfl, h⟩

/-- If the first side succeeds and the second one cannot fail alone, it succeeds as well. -/
theorem ok_of_ok {b : β} {s : σ} (h : Accord S F L R ((.ok b, s) : Except (Failure α) β × σ) y)
    (hR : ∀ t, ¬ R t) : ∃ t, y = (.ok b, t) ∧ S s t := by
  cases h with
  | @ok _ _ t h => exact ⟨t, rfl, h⟩
  | second h => exact absurd h (hR _)

/-- If the first side succeeds and the second one fails, the second one has failed alone. -/
theorem second_of_ok {b : β} {s : σ} {e : Failure α} {t : τ}
    (h : Accord S F L R ((.ok b, s) : Except (Failure α) β × σ) (.error e, t)) : R t := by
  cases h with
  | second h => exact h

/-- Without failures of one side alone, the outcomes are the same. -/
theorem agree (h : Accord S F L R x y) (hL : ∀ s, ¬ L s) (hR : ∀ t, ¬ R t) : Agree S F x y := by
  cases h with
  | ok h => exact .ok h
  | error h => exact .error h
  | first h => exact absurd h (hL _)
  | second h => exact absurd h (hR _)

end Accord

/-- What follows an outcome: after a success the computation goes on, after a failure it leaves a
    state. -/
def Action.resume (x : Except (Failure α) β × σ) (go : β → σ → Except (Failure α) γ × τ)
    (leave : σ → τ) : Except (Failure α) γ × τ :=
  match x with
  | (.ok b, s) => go b s
  | (.error e, s) => (.error e, leave s)

/-- What follows a computation follows its outcome. -/
theorem Action.exec_bind_eq_resume (m : Action σ α β) (f : β → Action σ α γ) (s : σ) :
    (m >>= f).exec s = resume (m.exec s) (fun b t => (f b).exec t) id := by
  rw [exec_bind]
  rcases m.exec s with ⟨_ | _, _⟩ <;> rfl

/-- A computation on a part puts the part back, also after a failure. -/
theorem Action.exec_focus_eq_resume (get : τ → σ) (set : σ → τ → τ) (m : Action σ α β) (t : τ) :
    (m.focus get set).exec t = resume (m.exec (get t)) (fun b s => (.ok b, set s t)) (set · t) := by
  rw [exec_focus]
  rcases m.exec (get t) with ⟨_ | _, _⟩ <;> rfl

/-- **What follows** is carried out only if both sides have succeeded. -/
theorem Accord.resume {σ' τ' : Type} {S F : σ → τ → Prop} {L : σ → Prop} {R : τ → Prop}
    {S' F' : σ' → τ' → Prop} {L' : σ' → Prop} {R' : τ' → Prop} {x : Except (Failure α) β × σ}
    {y : Except (Failure α) β × τ} {go : β → σ → Except (Failure α) γ × σ'}
    {go' : β → τ → Except (Failure α) γ × τ'} {leave : σ → σ'} {leave' : τ → τ'}
    (h : Accord S F L R x y)
    (hgo : ∀ b s t, S s t → Accord S' F' L' R' (go b s) (go' b t))
    (herror : ∀ s t, F s t → F' (leave s) (leave' t)) (hfirst : ∀ s, L s → L' (leave s))
    (hsecond : ∀ t, R t → R' (leave' t)) :
    Accord S' F' L' R' (Action.resume x go leave) (Action.resume y go' leave') := by
  cases h with
  | ok h => exact hgo _ _ _ h
  | error h => exact .error (herror _ _ h)
  | first h => exact .first (hfirst _ h)
  | second h => exact .second (hsecond _ h)

/-- Two computations that agree never fail alone. -/
theorem Agree.accord {S F : σ → τ → Prop} {L : σ → Prop} {R : τ → Prop}
    {x : Except (Failure α) β × σ} {y : Except (Failure α) β × τ} (h : Agree S F x y) :
    Accord S F L R x y := by
  cases h with
  | ok h => exact .ok h
  | error h => exact .error h

/-- A coupling, together with the states in which either computation may fail alone. -/
structure Bond (σ τ : Type) extends Coupling σ τ where
  /-- The first computation may fail alone, in such a state. -/
  first : σ → Prop
  /-- The second computation may fail alone, in such a state. -/
  second : τ → Prop

namespace Bond

/-- Both computations come to the same outcome and keep to the bond, unless one of them fails
    alone. -/
def Related (B : Bond σ τ) (m : Action σ α β) (n : Action τ α β) : Prop :=
  ∀ ⦃s : σ⦄ ⦃t : τ⦄, B.states s t →
    Accord B.states B.failed B.first B.second (m.exec s) (n.exec t)

variable {B : Bond σ τ}

/-! ### Building blocks -/

/-- Nothing is done on either side. -/
theorem Related.pure (b : β) :
    B.Related (pure b : Action σ α β) (pure b : Action τ α β) := by
  intro s t h
  exact .ok h

/-- Both sides fail alike. -/
theorem Related.throw (e : Failure α) :
    B.Related (throw e : Action σ α β) (throw e : Action τ α β) := by
  intro s t h
  exact .error (B.failed_of_states h)

/-- A calculation comes to the same on both sides. -/
theorem Related.ofExcept (e : Except (Failure α) β) :
    B.Related (Action.ofExcept e : Action σ α β) (Action.ofExcept e : Action τ α β) := by
  intro s t h
  rw [Action.exec_ofExcept, Action.exec_ofExcept]
  cases e with
  | ok b => exact .ok h
  | error e => exact .error (B.failed_of_states h)

/-- The states are changed in ways that belong together. -/
theorem Related.modify {f : σ → σ} {g : τ → τ} (h : ∀ s t, B.states s t → B.states (f s) (g t)) :
    B.Related (modify f : Action σ α PUnit) (modify g : Action τ α PUnit) := by
  intro s t hst
  exact .ok (h s t hst)

/-- **Sequences.**  What is related step by step is related. -/
theorem Related.bind {m : Action σ α β} {n : Action τ α β} {f : β → Action σ α γ}
    {g : β → Action τ α γ} (hm : B.Related m n) (hf : ∀ b, B.Related (f b) (g b)) :
    B.Related (m >>= f) (n >>= g) := by
  intro s t h
  rw [Action.exec_bind_eq_resume, Action.exec_bind_eq_resume]
  exact (hm h).resume (fun b _ _ h' => hf b h') (fun _ _ => id) (fun _ => id) fun _ => id

/-- What the outcome of a calculation is known to be. -/
theorem Related.trying {e : Except (Failure α) β} {f : β → Action σ α γ} {g : β → Action τ α γ}
    (h : ∀ b, e = .ok b → B.Related (f b) (g b)) :
    B.Related (Action.ofExcept e >>= f) (Action.ofExcept e >>= g) := by
  intro s t hst
  rw [Action.exec_bind, Action.exec_bind, Action.exec_ofExcept, Action.exec_ofExcept]
  cases e with
  | ok b => exact h b rfl hst
  | error e => exact .error (B.failed_of_states hst)

/-- **Parts.**  Computations on parts of the states are related if the parts belong together, and if
    it does not matter to the rest what becomes of them. -/
theorem Related.focus {σ' τ' : Type} {D : Bond σ' τ'} {get : σ → σ'} {set : σ' → σ → σ}
    {get' : τ → τ'} {set' : τ' → τ → τ} {m : Action σ' α β} {n : Action τ' α β}
    (h : D.Related m n) (henter : ∀ s t, B.states s t → D.states (get s) (get' t))
    (hleave : ∀ s t, B.states s t → ∀ u v, D.states u v → B.states (set u s) (set' v t))
    (hfail : ∀ s t, B.states s t → ∀ u v, D.failed u v → B.failed (set u s) (set' v t))
    (hfirst : ∀ s u, D.first u → B.first (set u s))
    (hsecond : ∀ t v, D.second v → B.second (set' v t)) :
    B.Related (m.focus get set) (n.focus get' set') := by
  intro s t hst
  rw [Action.exec_focus_eq_resume, Action.exec_focus_eq_resume]
  exact (h (henter s t hst)).resume (fun _ u v huv => .ok (hleave s t hst u v huv))
    (hfail s t hst) (hfirst s) (hsecond t)

/-! ### Workspaces -/

/-- A bond of sessions, with the same memory of the solver on both sides.  While the computations
    run, and after both have failed, the memory has a property. -/
def keeping {σ : Type} (I : σ → Prop) (B : Bond (Session ω) (Session ω')) :
    Bond (Workspace σ ω) (Workspace σ ω') where
  states w v := B.states w.session v.session ∧ I w.solver ∧ v = ⟨w.solver, v.session⟩
  failed w v := B.failed w.session v.session ∧ I w.solver ∧ v = ⟨w.solver, v.session⟩
  failed_of_states h := ⟨B.failed_of_states h.1, h.2⟩
  first w := B.first w.session
  second v := B.second v.session

/-- A bond of sessions, with the same memory of the solver on both sides, of which a part stays. -/
abbrev fixing {σ : Type} (view : σ → κ) (k : κ) (B : Bond (Session ω) (Session ω')) :
    Bond (Workspace σ ω) (Workspace σ ω') :=
  B.keeping fun s => view s = k

/-- A bond of sessions, with the same memory of the solver on both sides. -/
abbrev workspace (σ : Type) (B : Bond (Session ω) (Session ω')) :
    Bond (Workspace σ ω) (Workspace σ ω') :=
  B.keeping fun _ : σ => True

section
variable {σ τ : Type} {I : σ → Prop} {J : τ → Prop} {B : Bond (Session ω) (Session ω')}

/-- What the memory is known to be when it is read. -/
theorem Related.reading {f : σ → Action (Workspace σ ω) α β} {g : σ → Action (Workspace σ ω') α β}
    (h : ∀ s, I s → (B.keeping I).Related (f s) (g s)) :
    (B.keeping I).Related (Workspace.readSolver >>= f) (Workspace.readSolver >>= g) := by
  rintro w ⟨_, s⟩ ⟨hs, hI, ⟨⟩⟩
  exact h w.solver hI ⟨hs, hI, rfl⟩

/-- The same memory is read. -/
theorem Related.readSolver :
    (B.keeping I).Related (Workspace.readSolver : Action (Workspace σ ω) α σ)
      Workspace.readSolver := by
  rintro w ⟨_, s⟩ ⟨h, hI, ⟨⟩⟩
  exact .ok ⟨h, hI, rfl⟩

/-- The same change keeps the memory the same. -/
theorem Related.modifySolver {f : σ → σ} (hf : ∀ s, I s → I (f s)) :
    (B.keeping I).Related (Workspace.modifySolver f : Action (Workspace σ ω) α Unit)
      (Workspace.modifySolver f) := by
  rintro w ⟨_, s⟩ ⟨h, hI, ⟨⟩⟩
  exact .ok ⟨h, hf _ hI, rfl⟩

/-- The sessions act, and the memory stays. -/
theorem Related.onSession {m : Action (Session ω) α β} {n : Action (Session ω') α β}
    (h : B.Related m n) :
    (B.keeping I).Related (Workspace.onSession m) (Workspace.onSession n) := by
  refine h.focus (fun _ _ hw => hw.1) ?_ ?_ (fun _ _ => id) fun _ _ => id
  · rintro w ⟨_, s⟩ ⟨-, hI, ⟨⟩⟩ u v huv
    exact ⟨huv, hI, rfl⟩
  · rintro w ⟨_, s⟩ ⟨-, hI, ⟨⟩⟩ u v huv
    exact ⟨huv, hI, rfl⟩

/-- Work on a part of the memory. -/
theorem Related.within {part : σ → τ} {put : τ → σ → σ} (hpart : ∀ s, I s → J (part s))
    (hput : ∀ y s, I s → J y → I (put y s)) {m : Action (Workspace τ ω) α β}
    {n : Action (Workspace τ ω') α β} (h : (B.keeping J).Related m n) :
    (B.keeping I).Related (Workspace.within part put m) (Workspace.within part put n) := by
  refine h.focus ?_ ?_ ?_ (fun _ _ => id) fun _ _ => id
  · rintro w ⟨_, s⟩ ⟨hs, hI, ⟨⟩⟩
    exact ⟨hs, hpart _ hI, rfl⟩
  · rintro w ⟨_, s⟩ ⟨-, hI, ⟨⟩⟩ u ⟨_, t⟩ ⟨hut, hJ, ⟨⟩⟩
    exact ⟨hut, hput _ _ hI hJ, rfl⟩
  · rintro w ⟨_, s⟩ ⟨-, hI, ⟨⟩⟩ u ⟨_, t⟩ ⟨hut, hJ, ⟨⟩⟩
    exact ⟨hut, hput _ _ hI hJ, rfl⟩

/-- The memory that is wrapped takes the place of the whole memory. -/
theorem Related.wrapping {wrap : τ → σ} (x : τ) (hx : J x) (hwrap : ∀ y, J y → I (wrap y))
    {m : Action (Workspace τ ω) α β} {n : Action (Workspace τ ω') α β}
    (h : (B.keeping J).Related m n) :
    (B.keeping I).Related (Workspace.wrapping wrap x m) (Workspace.wrapping wrap x n) := by
  have hinside : (B.keeping I).Related (Workspace.within (fun _ => x) (fun y _ => wrap y) m)
      (Workspace.within (fun _ => x) (fun y _ => wrap y) n) :=
    h.within (fun _ _ => hx) fun y _ _ hJ => hwrap y hJ
  exact hinside

/-- The same where nothing is known of the memory that is wrapped. -/
theorem Related.wrapped {wrap : τ → σ} (hwrap : ∀ y, I (wrap y)) (x : τ)
    {m : Action (Workspace τ ω) α β} {n : Action (Workspace τ ω') α β}
    (h : (B.workspace τ).Related m n) :
    (B.keeping I).Related (Workspace.wrapping wrap x m) (Workspace.wrapping wrap x n) :=
  h.wrapping x trivial fun y _ => hwrap y

/-- What is kept need not be told. -/
theorem Related.forget {view : σ → κ} {m : Action (Workspace σ ω) α β}
    {n : Action (Workspace σ ω') α β} (h : ∀ k, (B.fixing view k).Related m n) :
    (B.workspace σ).Related m n := by
  intro w v hwv
  refine (h (view w.solver) ⟨hwv.1, rfl, hwv.2.2⟩).mono ?_ ?_ (fun _ => id) fun _ => id
  · exact fun _ _ h => ⟨h.1, trivial, h.2.2⟩
  · exact fun _ _ h => ⟨h.1, trivial, h.2.2⟩

/-- More may be known of the memory, if the computation keeps it. -/
theorem Related.narrow {I' : σ → Prop} {m : Action (Workspace σ ω) α β}
    {n : Action (Workspace σ ω') α β} (h : (B.keeping I).Related m n) (hI : ∀ s, I' s → I s)
    (hkept : ∀ w : Workspace σ ω, I' w.solver → I' (m.exec w).2.solver) :
    (B.keeping I').Related m n := by
  rintro w v ⟨hs, hw, hv⟩
  have hafter := hkept w hw
  have haccord := h (s := w) (t := v) ⟨hs, hI _ hw, hv⟩
  generalize m.exec w = x at haccord hafter
  generalize n.exec v = y at haccord
  cases haccord with
  | ok hok => exact .ok ⟨hok.1, hafter, hok.2.2⟩
  | error herror => exact .error ⟨herror.1, hafter, herror.2.2⟩
  | first hfirst => exact .first hfirst
  | second hsecond => exact .second hsecond

end

/-! ### Nested computations -/

/-- The sessions of nested computations keep to `D`, those around them to `B`. -/
structure Nests (B D : Bond (Session ω) (Session ω')) : Prop where
  enter : ∀ {s t}, B.states s t →
    D.states { s with counts := .zero } { t with counts := .zero }
  leave : ∀ {s t u v}, B.states s t → D.states u v →
    B.states { u with counts := s.counts + u.counts } { v with counts := t.counts + v.counts }
  failed : ∀ {s t u v}, B.states s t → D.failed u v →
    B.failed { u with counts := s.counts } { v with counts := t.counts }
  first : ∀ {u}, D.first u → ∀ c : Counts, B.first { u with counts := c }
  second : ∀ {v}, D.second v → ∀ c : Counts, B.second { v with counts := c }

/-- **A nested computation** starts counting at zero, and its counts are dropped if it fails. -/
theorem exec_nested (m : Action (Workspace σ ω) α β) (w : Workspace σ ω) :
    (Workspace.nested m).exec w = Action.resume (m.exec (w.withCounts .zero))
      (fun b v => (.ok b, v.withCounts (w.session.counts + v.session.counts)))
      (·.withCounts w.session.counts) := by
  unfold Workspace.nested
  rw [Action.exec_ofFun]
  rcases m.exec (w.withCounts .zero) with ⟨_ | _, _⟩ <;> rfl

/-- **Nested computations.**  The counts are kept apart until both have come to their end. -/
theorem Related.nested {B D : Bond (Session ω) (Session ω')} {I : σ → Prop} (h : B.Nests D)
    {m : Action (Workspace σ ω) α β} {n : Action (Workspace σ ω') α β}
    (hmn : (D.keeping I).Related m n) :
    (B.keeping I).Related (Workspace.nested m) (Workspace.nested n) := by
  rintro w ⟨_, s⟩ ⟨hs, hI, ⟨⟩⟩
  -- Both enter their nested run with counts set to zero.
  have hinner := hmn (s := w.withCounts .zero) (t := Workspace.withCounts ⟨w.solver, s⟩ .zero)
    ⟨h.enter hs, hI, rfl⟩
  rw [exec_nested, exec_nested]
  refine hinner.resume (fun b u v huv => ?_) (fun u v huv => ?_) (fun u hu => h.first hu _)
    fun v hv => h.second hv _
  · obtain ⟨_, v⟩ := v
    obtain ⟨huv, hI', ⟨⟩⟩ := huv
    exact .ok ⟨h.leave hs huv, hI', rfl⟩
  · obtain ⟨_, v⟩ := v
    obtain ⟨huv, hI', ⟨⟩⟩ := huv
    exact ⟨h.failed hs huv, hI', rfl⟩

end Bond

/-! ### Couplings as bonds -/

/-- Neither side fails alone. -/
def Coupling.bond (C : Coupling σ τ) : Bond σ τ where
  toCoupling := C
  first _ := False
  second _ := False

/-- So that to keep to the bond is to keep to the coupling. -/
theorem Bond.related_bond_iff {C : Coupling σ τ} {m : Action σ α β} {n : Action τ α β} :
    C.bond.Related m n ↔ C.Related m n :=
  ⟨fun h _ _ hst => (h hst).agree (fun _ => id) fun _ => id, fun h _ _ hst => (h hst).accord⟩

/-- The same for workspaces, where the coupling does not say what a failure leaves in the memory. -/
theorem Bond.Related.coupled {C : Coupling (Session ω) (Session ω')} {I : σ → Prop}
    {m : Action (Workspace σ ω) α β} {n : Action (Workspace σ ω') α β}
    (h : (C.bond.keeping I).Related m n) : (C.keeping I).Related m n := by
  intro w v hwv
  refine Accord.agree (S := (C.keeping I).states) ?_ (fun _ => id) fun _ => id
  exact (h hwv).mono (fun _ _ => id) (fun _ _ hfail => ⟨hfail.1, hfail.2.2⟩) (fun _ => id) fun _ => id

/-- Conversely nothing has to be kept of the memory. -/
theorem Coupling.Related.bonded {C : Coupling (Session ω) (Session ω')}
    {m : Action (Workspace σ ω) α β} {n : Action (Workspace σ ω') α β}
    (h : (C.workspace σ).Related m n) : (C.bond.workspace σ).Related m n :=
  fun _ _ hwv => (h hwv).accord.mono (fun _ _ => id)
    (fun _ _ hfail => ⟨hfail.1, trivial, hfail.2⟩) (fun _ => id) fun _ => id

end Minimization
