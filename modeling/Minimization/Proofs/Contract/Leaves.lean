import Minimization.Proofs.Contract.Ordinary
import Minimization.Proofs.Run.Iteration

namespace Minimization

/-!
# What a computation leaves, however it ends

A computation that fails has often changed the memory before, and whoever goes on from there has to
know what it left.

* `Workspace.Leaves` — from a memory of one kind a computation leaves a memory of another kind, whether
  it succeeds or fails; one rule for each building block.
* `Ordinary.leaves` — ordinary computations leave what they have found.
* `Run.leaves_opening`, `Run.leaves_iterate` — what the start of a run and an iteration leave.
-/

variable {σ τ ω η α β γ : Type}

/-- From a memory for which `I` holds the computation leaves one for which `J` holds, whether it
    succeeds or fails. -/
def Workspace.Leaves (I J : σ → Prop) (m : Action (Workspace σ ω) α β) : Prop :=
  ∀ w, I w.solver → J (m.exec w).2.solver

namespace Workspace.Leaves

variable {I J K : σ → Prop} {m : Action (Workspace σ ω) α β} {f : β → Action (Workspace σ ω) α γ}

/-- If the first part fails, then what it leaves is left. -/
theorem bind (hm : Leaves I K m) (hKJ : ∀ s, K s → J s) (hf : ∀ b, Leaves K J (f b)) :
    Leaves I J (m >>= f) := by
  intro w hw
  have hleft := hm w hw
  rw [Action.exec_bind]
  rcases hexec : m.exec w with ⟨e | b, v⟩
  · rw [hexec] at hleft
    exact hKJ _ hleft
  · rw [hexec] at hleft
    exact hf b v hleft

/-- More may be asked of the memory before, and less be said of it afterwards. -/
theorem mono {I' J' : σ → Prop} (h : Leaves I J m) (hI : ∀ s, I' s → I s) (hJ : ∀ s, J s → J' s) :
    Leaves I' J' m :=
  fun w hw => hJ _ (h w (hI _ hw))

/-- What leaves `J` may be followed by what keeps it. -/
theorem seq (hm : Leaves I J m) (hf : ∀ b, Leaves J J (f b)) : Leaves I J (m >>= f) :=
  hm.bind (fun _ hs => hs) hf

/-- What does not touch the memory leaves it as it is. -/
theorem of_untouched (h : ∀ w, (m.exec w).2.solver = w.solver) : Leaves I I m := by
  intro w hw
  rw [h w]
  exact hw

/-- Nothing is done. -/
theorem pure (b : β) : Leaves I I (Pure.pure b : Action (Workspace σ ω) α β) :=
  of_untouched fun _ => rfl

/-- A failure on its own leaves the memory alone. -/
theorem throw (e : Failure α) : Leaves I I (MonadExcept.throw e : Action (Workspace σ ω) α β) :=
  of_untouched fun _ => rfl

/-- So does a calculation. -/
theorem ofExcept (x : Except (Failure α) β) :
    Leaves I I (Action.ofExcept x : Action (Workspace σ ω) α β) :=
  of_untouched fun w => by cases x <;> rfl

/-- So does the session. -/
theorem onSession (n : Action (Session ω) α β) :
    Leaves I I (Workspace.onSession n : Action (Workspace σ ω) α β) :=
  of_untouched fun w => by
    unfold Workspace.onSession
    rw [Action.exec_focus]

/-- So does who reads it. -/
theorem readSolver : Leaves I I (Workspace.readSolver : Action (Workspace σ ω) α σ) :=
  of_untouched fun _ => rfl

/-- What is read is the memory itself. -/
theorem reading {f : σ → Action (Workspace σ ω) α γ} (h : ∀ s, I s → Leaves (· = s) J (f s)) :
    Leaves I J (Workspace.readSolver >>= f) :=
  fun w hw => h w.solver hw w rfl

/-- A change leaves what it makes of the memory. -/
theorem modifySolver {g : σ → σ} (h : ∀ s, I s → J (g s)) :
    Leaves I J (Workspace.modifySolver g : Action (Workspace σ ω) α Unit) :=
  fun w hw => h w.solver hw

/-- Work on a part leaves the part as it does, and the rest as it was. -/
theorem within {part : σ → τ} {put : τ → σ → σ} {I' J' : τ → Prop} {n : Action (Workspace τ ω) α β}
    (h : Leaves I' J' n) (hpart : ∀ s, I s → I' (part s)) (hput : ∀ x s, J' x → I s → J (put x s)) :
    Leaves I J (Workspace.within part put n) := by
  intro w hw
  unfold Workspace.within
  rw [Action.exec_focus]
  exact hput _ _ (h ⟨part w.solver, w.session⟩ (hpart _ hw)) hw

/-- A memory that takes the place of the whole. -/
theorem wrapping {wrap : τ → σ} {x : τ} {I' J' : τ → Prop} {n : Action (Workspace τ ω) α β}
    (h : Leaves I' J' n) (hx : I' x) (hwrap : ∀ y, J' y → J (wrap y)) :
    Leaves I J (Workspace.wrapping wrap x n) := by
  have hinside : Leaves I J (Workspace.within (fun _ => x) (fun y _ => wrap y) n) :=
    h.within (fun _ _ => hx) fun y _ hy _ => hwrap y hy
  exact hinside

/-- What follows a calculation is carried out only if that has a result. -/
theorem calculating {x : Except (Failure α) β} (hIJ : ∀ s, I s → J s)
    (h : ∀ b, x = .ok b → Leaves I J (f b)) : Leaves I J (Action.ofExcept x >>= f) := by
  intro w hw
  rw [Action.exec_bind, Action.exec_ofExcept]
  cases x with
  | error e => exact hIJ _ hw
  | ok b => exact h b rfl w hw

end Workspace.Leaves

/-- **Ordinary computations** leave what they have found, however they end. -/
theorem Ordinary.leaves {I : σ → Prop} {m : Uniform α (Workspace σ) β} (hm : Ordinary I m)
    (A : Setting ω α) : Workspace.Leaves I I (m ω A) := by
  induction hm with
  | pure b => exact .pure b
  | throw he => exact .throw _
  | bind _ _ hm hf => exact .seq hm hf
  | calculating _ _ hf => exact .calculating (fun _ hs => hs) hf
  | reading _ hf => exact fun w hw => hf w.solver hw w hw
  | modifying hf => exact .modifySolver hf
  | onSession hm => exact .onSession _
  | within hpart hput _ hm => exact hm.within hpart fun y s hy hs => hput y s hs hy
  | wrapping hx hwrap _ hm => exact hm.wrapping hx hwrap

namespace Run

variable [Scalar α] {P : Plan σ ω η α} {r : Run σ ω η α} {I J : σ → Prop}

/-- What the start of a run leaves in the memory of its solver. -/
theorem leaves_opening (hinit : Workspace.Leaves I J (P.solver.init P.setting r.progress))
    (hr : I r.solver) : J ((opening P).exec r).2.solver := by
  have hleft := hinit ⟨r.solver, r.session⟩ hr
  rw [exec_opening]
  rcases hexec : (P.solver.init P.setting r.progress).exec ⟨r.solver, r.session⟩ with
    ⟨_ | report?, w⟩
  · rw [hexec] at hleft
    exact hleft
  · rw [hexec] at hleft
    dsimp only
    rw [exec_onWatches]
    exact hleft

/-- What an iteration leaves there. -/
theorem leaves_iterate (hstep : Workspace.Leaves I J (P.solver.step P.setting r.progress))
    (hterminate : ∀ p, Workspace.Leaves J J (P.solver.terminate p))
    (hrun : r.progress.reason = .notTerminated) (hr : I r.solver) :
    J ((iterate P).exec r).2.solver := by
  have hleft := hstep ⟨r.solver, r.session⟩ hr
  rw [exec_iterate P hrun]
  -- Step, display, question whether to stop: only the first and the last of them touch the memory, and
  -- each may end the iteration.
  rcases hexec : (P.solver.step P.setting r.progress).exec ⟨r.solver, r.session⟩ with
    ⟨_ | report, w⟩
  · rw [hexec] at hleft
    exact hleft
  · rw [hexec] at hleft
    dsimp only
    rcases hshow : (display P r.session.counts report.notes (r.progress.update report).2).exec
      (counted r report w) with ⟨_ | _, shown⟩
    · rw [(display_frame hshow).solver]
      exact hleft
    · have hshown : J shown.solver := by
        rw [(display_frame hshow).solver]
        exact hleft
      have hasked := hterminate shown.progress ⟨shown.solver, shown.session⟩ hshown
      dsimp only
      rcases hown : (P.solver.terminate shown.progress).exec ⟨shown.solver, shown.session⟩ with
        ⟨_ | own, v⟩
      · rw [hown] at hasked
        exact hasked
      · rw [hown] at hasked
        exact hasked

end Run

end Minimization
