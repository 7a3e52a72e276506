import Mathlib.Data.List.Basic
import Minimization.Proofs.Observer.Diary

namespace Minimization

/-!
# In which order observers are told

Showing something to the observers of a run is telling it to one of them after another, in the order in
which they were added.  What one of them writes to the loggers is there when the next one is told.

* `Watches.tell` — tells something to the observer at a position, and to nobody else.
* `Watches.listeners` — the positions of the observers whose mode is among those that listen, in order.
* `Watches.callEach_eq_tell` — the calls, one after another; `init_eq_tell`, `iteration_eq_tell` — the
  start of a run and an iteration.
* `ObserverMode.picks` — which iterations a mode selects, and `ObserverMode.shown_eq_picks`.
-/

variable {σ ω η α : Type}

/-- What an observer does with what it is told. -/
def Observer.hear (O : Observer η α) : Page α → Action (Notebook η) α Unit
  | .start name notes => O.init name notes
  | .iteration p notes => O.iteration p notes

namespace Watches

/-- Tells something to the observer at a position.  Its memory and the loggers may change. -/
def tell (O : Observer η α) (page : Page α) (i : ℕ) : Action (Watches η) α Unit :=
  .ofFun fun ws =>
    match ws.list[i]? with
    | none => (.ok (), ws)
    | some w =>
      let (outcome, v) := (O.hear page).exec ⟨w.memory, ws.logbook⟩
      (outcome, ⟨ws.list.set i { w with memory := v.memory }, v.logbook⟩)

/-- The positions of the observers whose mode listens, in the order in which they were added. -/
def listeners (listens : ObserverMode → Bool) (l : List (Watch η)) : List ℕ :=
  l.findIdxs fun w => listens w.mode

/-- The observer behind `before` is told, and the others keep their memory. -/
theorem exec_tell (O : Observer η α) (page : Page α) (before : List (Watch η)) (w : Watch η)
    (l : List (Watch η)) (b : Logbook) : (tell O page before.length).exec ⟨before ++ w :: l, b⟩ =
      (((O.hear page).exec ⟨w.memory, b⟩).1,
        ⟨before ++ { w with memory := ((O.hear page).exec ⟨w.memory, b⟩).2.memory } :: l,
          ((O.hear page).exec ⟨w.memory, b⟩).2.logbook⟩) := by
  unfold tell
  simp

/-- The observers behind some others are told one after another. -/
theorem forM_tell_append (O : Observer η α) (page : Page α) (listens : ObserverMode → Bool)
    (before l : List (Watch η)) (b : Logbook) :
    ((l.findIdxs (fun w => listens w.mode) before.length).forM (tell O page)).exec ⟨before ++ l, b⟩ =
      ((callEach (O.hear page) (l.zip (l.map fun w => listens w.mode)) b).1,
        ⟨before ++ (callEach (O.hear page) (l.zip (l.map fun w => listens w.mode)) b).2.list,
          (callEach (O.hear page) (l.zip (l.map fun w => listens w.mode)) b).2.logbook⟩) := by
  -- Those in front of `l` have been told already, so their number moves the positions.
  induction l generalizing before b with
  | nil => simp [callEach]
  | cons w l ih =>
    have hnext (w : Watch η) (b : Logbook) := ih (before ++ [w]) b
    simp only [List.length_append, List.length_singleton, List.append_assoc,
      List.singleton_append] at hnext
    rw [List.findIdxs_cons]
    cases hw : listens w.mode with
    | false =>
      rw [if_neg (by simp), hnext]
      simp [hw, callEach]
    | true =>
      rw [if_pos rfl, List.forM_eq_forM, List.forM_cons, Action.exec_bind, exec_tell]
      simp only [List.map_cons, List.zip_cons_cons, hw, callEach]
      rcases (O.hear page).exec ⟨w.memory, b⟩ with ⟨e | _, v⟩
      · have hrest : (l.zip (l.map fun w => listens w.mode)).map (·.1) = l :=
          List.map_fst_zip (by simp)
        simp only [hrest]
      · simp only [← List.forM_eq_forM, hnext]

/-- **Those who listen are called one after another**, in the order in which they were added. -/
theorem callEach_eq_tell (O : Observer η α) (page : Page α) (listens : ObserverMode → Bool)
    (ws : Watches η) :
    callEach (O.hear page) (ws.list.zip (ws.list.map fun w => listens w.mode)) ws.logbook =
      ((listeners listens ws.list).forM (tell O page)).exec ws :=
  (forM_tell_append O page listens [] ws.list ws.logbook).symm

/-- The start of a run is shown to one after another. -/
theorem init_eq_tell (O : Observer η α) (name : String) (notes : Notes α) (ws : Watches η) :
    (init O name notes).exec ws =
      ((listeners ObserverMode.introduced ws.list).forM (tell O (.start name notes))).exec ws :=
  callEach_eq_tell O (.start name notes) ObserverMode.introduced ws

/-- If the observers are shown an iteration at all, then one after another. -/
theorem iteration_eq_tell {O : Observer η α} {p : Progress α} {notes : Notes α} {isNewBest : Bool}
    {ws after : Watches η} (h : (iteration O p notes isNewBest).exec ws = (.ok (), after)) :
    ((listeners (fun mode => mode.shown α p.iter isNewBest) ws.list).forM
      (tell O (.iteration p notes))).exec ws = (.ok (), after) := by
  unfold iteration at h
  -- The choice comes first, and is made for every observer before any of them is called.
  simp only [Action.exec_bind, Action.exec_get, Action.exec_ofExcept] at h
  cases hchosen : ws.list.mapM
      fun w => (w.mode.selects p.iter isNewBest : Except (Failure α) Bool) with
  | error e =>
    rw [hchosen] at h
    cases (Prod.mk.inj h).1
  | ok chosen =>
    rw [hchosen] at h
    obtain rfl := chosen_of_mapM hchosen
    rw [← callEach_eq_tell O (.iteration p notes)]
    exact h

end Watches

/-! ### Which iterations a mode selects -/

/-- An iteration of this number is one of those that the mode is about; `isRecord` says whether it has
    found a new best. -/
def ObserverMode.picks (mode : ObserverMode) (iteration : ℕ) (isRecord : Bool) : Bool :=
  match mode.selection with
  | .always => true
  | .every => decide (mode.interval ∣ (iteration : ℤ))
  | .newBest => isRecord
  | .never => false
  | .unknown _ => false

/-- An iteration that has been counted is shown to those modes which it is about. -/
theorem ObserverMode.shown_eq_picks (mode : ObserverMode) (k : ℕ) (isNewBest : Bool) :
    mode.shown α ((k + 1 : ℕ) : ℤ) isNewBest = mode.picks (k + 1) isNewBest := by
  unfold shown selects picks
  -- Every rule but the one with an interval picks alike by computation.
  cases mode.selection with
  | always => rfl
  | never => rfl
  | newBest => rfl
  | unknown name => rfl
  | every =>
    -- No positive number is a multiple of zero; otherwise the remainder decides whether it is one of the
    -- interval.
    by_cases hzero : mode.interval = 0
    · have hnot : ¬ mode.interval ∣ ((k + 1 : ℕ) : ℤ) := by
        rw [hzero, Int.zero_dvd]
        omega
      simp only [if_pos hzero, hnot, decide_false]
    · have hmod : Int.fmod ((k + 1 : ℕ) : ℤ) mode.interval = 0 ↔ mode.interval ∣ ((k + 1 : ℕ) : ℤ) :=
        Int.dvd_iff_fmod_eq_zero.symm
      simp only [if_neg hzero, beq_eq_decide, hmod]

end Minimization
