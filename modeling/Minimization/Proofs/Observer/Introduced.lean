import Minimization.Observer.Kinds
import Minimization.Proofs.Contract.Observers

namespace Minimization

/-!
# Observers that may be introduced again

Every call of a run introduces the observers.  An observer to which this has been done once without a
failure can be expected to put up with it once more.

* `Observer.Faithful` — what an introduction leaves is kept, and lets another one succeed.
* `Watcher.observer_faithful` — the observers of the library are so.
* `Watches.Introduced` — all observers that are not switched off have been introduced.
* `Observer.Faithful.ends_init_again` — then they may be introduced again.
* `Run.introduced_of_reached` — in every state that a run reaches they have been.
-/

variable {σ ω η α : Type}

/-- An observer that has been introduced has a memory with the property `Q`, keeps it, and may then be
    introduced again. -/
structure Observer.Faithful (O : Observer η α) (Q : η → Prop) : Prop where
  introduced : ∀ name notes page,
    (O.init name notes).Ends page (fun _ after => Q after.memory) fun _ => True
  iteration : ∀ p notes page, Q page.memory →
    (O.iteration p notes).Ends page (fun _ after => Q after.memory) fun _ => True
  again : ∀ name notes page, Q page.memory →
    (O.init name notes).Ends page (fun _ _ => True) fun _ => False

/-- Lines that an observer of the library writes have a level. -/
def Watcher.Writes : Watcher α → Prop
  | .lines _ level => level.isSome
  | _ => True

/-- Whoever could write a line has a level; who could not has none. -/
theorem Watcher.ends_writeLine_anyhow (level : Option Int) (logger message : String)
    {page : Notebook (Watcher α)} {name : String} (hmemory : page.memory = .lines name level) :
    (writeLine level logger message).Ends page (fun _ after => after.memory.Writes)
      fun _ => ¬ page.memory.Writes := by
  -- A writer without a level raises; with one it writes, and keeps its level.
  cases level with
  | none =>
    show ¬ page.memory.Writes
    rw [hmemory]
    exact Bool.false_ne_true
  | some level =>
    show page.memory.Writes
    rw [hmemory]
    exact rfl

/-- The observers of the library may be introduced again. -/
theorem Watcher.observer_faithful [Scalar α] : (observer (α := α)).Faithful Writes where
  introduced name notes page := by
    obtain ⟨w, b⟩ := page
    unfold observer
    rw [Action.ends_bind, Action.ends_get]
    -- Only the writer of lines can raise in its introduction, where no level has been set.
    cases w with
    | recorder seen => trivial
    | counter seen => trivial
    | lines logger level => exact (ends_writeLine_anyhow _ _ _ rfl).expecting fun _ _ => trivial
    | files stem format saved => trivial
  iteration p notes page h := by
    obtain ⟨w, b⟩ := page
    unfold observer
    rw [Action.ends_bind, Action.ends_get]
    cases w with
    | recorder seen => trivial
    | counter seen => trivial
    | lines logger level => exact (ends_writeLine_anyhow _ _ _ rfl).expecting fun _ _ => trivial
    | files stem format saved =>
      dsimp only
      rw [Action.ends_bind]
      refine Action.ends_ofExcept (fun place _ => ?_) fun _ _ => trivial
      cases place with
      | inside name => trivial
      | outside => trivial
  again name notes page h := by
    obtain ⟨w, b⟩ := page
    unfold observer
    rw [Action.ends_bind, Action.ends_get]
    cases w with
    | recorder seen => trivial
    | counter seen => trivial
    | lines logger level =>
      exact ((ends_writeLine_anyhow _ _ _ rfl).mono fun _ _ _ => trivial).expecting
        fun _ hno => hno h
    | files stem format saved => trivial

namespace Watches

/-- The observers that are not switched off have been introduced. -/
def Introduced (Q : η → Prop) (l : List (Watch η)) : Prop :=
  ∀ w ∈ l, w.mode.selection ≠ .never → Q w.memory

/-- An introduction reaches those who are not switched off. -/
theorem selection_of_mem_zip {l : List (Watch η)} {w : Watch η} {chosen : Bool}
    (h : (w, chosen) ∈ l.zip (l.map fun w => w.mode.selection != .never)) :
    w ∈ l ∧ chosen = (w.mode.selection != .never) := by
  -- Every observer stands beside its own choice, since both lists are made from the one.
  have hzip : l.zip (l.map fun w => w.mode.selection != .never) =
      l.map fun w => (w, w.mode.selection != .never) := by
    simpa using List.zip_map' (f := id) (g := fun w : Watch η => w.mode.selection != .never) (l := l)
  rw [hzip, List.mem_map] at h
  obtain ⟨v, hv, heq⟩ := h
  obtain ⟨rfl, rfl⟩ := Prod.mk.inj heq
  exact ⟨hv, rfl⟩

end Watches

namespace Observer.Faithful

open Watches

variable {Q : η → Prop} {O : Observer η α} {ws : Watches η}

/-- Who has been introduced has the property, even if others could not be. -/
theorem ends_init (hO : O.Faithful Q) (name : String) (notes : Notes α) :
    (Watches.init O name notes).Ends ws (fun _ after => Introduced Q after.list)
      fun _ => True := by
  rw [ends_init_iff]
  refine ends_callChosen_each (fun w hw hon => ?_) fun w b _ => ?_
  · have hoff := (selection_of_mem_zip hw).2
    simp [hon] at hoff
  · exact (hO.introduced name notes _).mono fun _ _ hafter _ => hafter

/-- **Those who have been introduced may be introduced again.** -/
theorem ends_init_again (hO : O.Faithful Q) (name : String) (notes : Notes α)
    (h : Introduced Q ws.list) : (Watches.init O name notes).Ends ws
      (fun _ after => Introduced Q after.list) fun _ => False := by
  have hagain : (Watches.init O name notes).Ends ws (fun _ _ => True) fun _ => False := by
    rw [ends_init_iff]
    refine (ends_callChosen_each (S := fun _ => True) (fun _ _ => trivial)
      fun w b hw => ?_).mono fun _ _ _ => trivial
    obtain ⟨hmem, hon⟩ := selection_of_mem_zip hw
    exact hO.again name notes ⟨w.memory, b⟩ (h w hmem (by simpa using hon.symm))
  exact (hagain.also (hO.ends_init name notes)).mono fun _ _ hboth => hboth.2

/-- An iteration does not undo it, whether it can be shown or not. -/
theorem ends_iteration (hO : O.Faithful Q) (p : Progress α) (notes : Notes α) (isNewBest : Bool)
    (h : Introduced Q ws.list) : (Watches.iteration O p notes isNewBest).Ends ws
      (fun _ after => Introduced Q after.list) fun _ => True := by
  refine Watches.ends_iteration (fun chosen _ => ?_) fun _ _ => trivial
  refine ends_callChosen_each (fun w hw => h w (List.of_mem_zip hw).1) fun w b hw => ?_
  -- An observer that is never chosen is not called.
  by_cases hon : w.mode.selection = .never
  · exact (Action.ends_anyhow _ _).mono fun _ _ _ hoff => absurd hon hoff
  · exact (hO.iteration p notes _ (h w (List.of_mem_zip hw).1 hon)).mono fun _ _ hafter _ => hafter

end Observer.Faithful

/-- **In every state that a run reaches** its observers have been introduced. -/
theorem Run.introduced_of_reached [Scalar α] {P : Plan σ ω η α} {Q : η → Prop}
    (hO : P.observer.Faithful Q) {r t : Run σ ω η α} (ht : Reached P r t) :
    Watches.Introduced Q t.observers := by
  -- The opening introduces everybody, and no iteration forgets it.
  induction ht with
  | opened hopen =>
    rw [exec_opening] at hopen
    rcases hinit : (P.solver.init P.setting (begun P r).progress).exec
      ⟨(begun P r).solver, (begun P r).session⟩ with ⟨_ | report?, w⟩
    · simp [hinit] at hopen
    · simp only [hinit, exec_onWatches] at hopen
      obtain ⟨hok, rfl⟩ := Prod.mk.inj hopen
      exact (hO.ends_init _ _).of_ok (Prod.ext hok rfl)
  | iterated _ hgo _ hit ih =>
    obtain ⟨report, w, shown, own, v, -, hshow, -, rfl⟩ := (iterate_ok_iff P hgo).1 hit
    rw [exec_display] at hshow
    split at hshow
    · cases hshow
    · rw [exec_onWatches] at hshow
      obtain ⟨hok, rfl⟩ := Prod.mk.inj hshow
      exact (hO.ends_iteration _ _ _ ih).of_ok (Prod.ext hok rfl)

end Minimization
