import Minimization.Observer.Kinds
import Minimization.Proofs.Contract.Observers

namespace Minimization

/-!
# Observers that do not fail

* `Observer.Quiet` — the calls of an observer succeed if its memory has a property, and it keeps it.
* `Watcher.Sure`, `Watcher.observer_quiet` — the observers of the library, if they can write what they
  are to write.
* `Watches.Attentive` — observers with that property, none of which counts in steps of zero.
* `Observer.Quiet.ends_init`, `Observer.Quiet.ends_iteration` — then nothing that is shown to observers
  ends a run.
-/

variable {η α : Type}

/-- The calls of an observer whose memory has the property `Q` succeed, and its memory keeps it. -/
structure Observer.Quiet (O : Observer η α) (Q : η → Prop) : Prop where
  init : ∀ name notes page, Q page.memory →
    (O.init name notes).Ends page (fun _ after => Q after.memory) fun _ => False
  iteration : ∀ p notes page, Q page.memory →
    (O.iteration p notes).Ends page (fun _ after => Q after.memory) fun _ => False

/-- What an observer of the library has to write can be written: lines have a level, and files a
    place. -/
def Watcher.Sure : Watcher α → Prop
  | .recorder _ => True
  | .counter _ => True
  | .lines _ level => level.isSome
  | .files stem format _ =>
    ∀ iter, ∃ place, (Place.ofName (fileName stem iter format) : Except (Failure α) Place) = .ok place

/-- A line with a level can be written. -/
theorem Watcher.ends_writeLine {level : Option Int} {logger message : String}
    {page : Notebook (Watcher α)} (hlevel : level.isSome) (h : page.memory.Sure) :
    (writeLine level logger message).Ends page (fun _ after => after.memory.Sure) fun _ => False := by
  cases level with
  | none => cases hlevel
  | some level => exact h

/-- The observers of the library do not fail then. -/
theorem Watcher.observer_quiet [Scalar α] : (observer (α := α)).Quiet Sure where
  init name notes page h := by
    obtain ⟨w, b⟩ := page
    unfold observer
    rw [Action.ends_bind, Action.ends_get]
    -- Lines need a level and files a place; both are given by the hypothesis.
    cases w with
    | recorder seen => trivial
    | counter seen => trivial
    | lines logger level => exact ends_writeLine h h
    | files stem format saved => exact h
  iteration p notes page h := by
    obtain ⟨w, b⟩ := page
    unfold observer
    rw [Action.ends_bind, Action.ends_get]
    cases w with
    | recorder seen => trivial
    | counter seen => trivial
    | lines logger level => exact ends_writeLine h h
    | files stem format saved =>
      obtain ⟨place, hplace⟩ := h p.iter
      dsimp only
      rw [Action.ends_bind, hplace, Action.ends_ofExcept_ok]
      cases place with
      | inside name => exact h
      | outside => exact h

namespace Watches

/-- Observers whose memory has the property `Q`.  None of them counts iterations in steps of zero. -/
structure Attentive (Q : η → Prop) (l : List (Watch η)) : Prop where
  memory : ∀ w ∈ l, Q w.memory
  interval : ∀ w ∈ l, w.mode.selection = .every → w.mode.interval ≠ 0

variable {Q : η → Prop} {w : Watch η} {l : List (Watch η)}

/-- An observer that has been called is among them still. -/
theorem Attentive.cons (h : Attentive Q (w :: l)) {memory : η} (hmemory : Q memory)
    {l' : List (Watch η)} (hl : Attentive Q l') : Attentive Q ({ w with memory := memory } :: l') where
  memory := List.forall_mem_cons.2 ⟨hmemory, hl.memory⟩
  interval := List.forall_mem_cons.2 ⟨h.interval w List.mem_cons_self, hl.interval⟩

/-- So are those behind it. -/
theorem Attentive.tail (h : Attentive Q (w :: l)) : Attentive Q l :=
  ⟨(List.forall_mem_cons.1 h.memory).2, (List.forall_mem_cons.1 h.interval).2⟩

/-- All that are called succeed. -/
theorem callEach_quiet {call : Action (Notebook η) α Unit}
    (hcall : ∀ page, Q page.memory → call.Ends page (fun _ after => Q after.memory) fun _ => False)
    (ws : List (Watch η × Bool)) (h : Attentive Q (ws.map (·.1))) (b : Logbook) :
    ∃ after, callEach call ws b = (.ok (), after) ∧ Attentive Q after.list := by
  induction ws generalizing b with
  | nil => exact ⟨⟨[], b⟩, rfl, h⟩
  | cons w ws ih =>
    obtain ⟨w, chosen⟩ := w
    have hw : Q w.memory := h.memory w List.mem_cons_self
    cases chosen with
    | false =>
      obtain ⟨after, hafter, hattentive⟩ := ih h.tail b
      exact ⟨⟨w :: after.list, after.logbook⟩, by simp only [callEach, hafter],
        h.cons hw hattentive⟩
    | true =>
      obtain ⟨⟨⟩, page, hexec, hpage⟩ := (hcall ⟨w.memory, b⟩ hw).exists_ok
      obtain ⟨after, hafter, hattentive⟩ := ih h.tail page.logbook
      exact ⟨⟨{ w with memory := page.memory } :: after.list, after.logbook⟩,
        by simp only [callEach, hexec, hafter], h.cons hpage hattentive⟩

/-- So do all that are chosen from a list of theirs. -/
theorem ends_callChosen_quiet {call : Action (Notebook η) α Unit}
    (hcall : ∀ page, Q page.memory → call.Ends page (fun _ after => Q after.memory) fun _ => False)
    (chosen : List Bool) {ws : Watches η} (h : Attentive Q ws.list)
    (hlength : chosen.length = ws.list.length) :
    (callChosen chosen call).Ends ws (fun _ after => Attentive Q after.list) fun _ => False := by
  have hzip : (ws.list.zip chosen).map (·.1) = ws.list := List.map_fst_zip (by omega)
  obtain ⟨after, hafter, hattentive⟩ := callEach_quiet hcall (ws.list.zip chosen)
    (by rw [hzip]; exact h) ws.logbook
  unfold callChosen Action.Ends
  rw [Action.exec_ofFun, hafter]
  exact hattentive

/-- A mode whose interval is not zero selects. -/
theorem exists_selects {mode : ObserverMode} (h : mode.selection = .every → mode.interval ≠ 0)
    (iteration : Int) (isNewBest : Bool) :
    ∃ chosen, (mode.selects iteration isNewBest : Except (Failure α) Bool) = .ok chosen := by
  unfold ObserverMode.selects
  split
  · exact ⟨_, rfl⟩
  · next hevery =>
    rw [if_neg (h hevery)]
    exact ⟨_, rfl⟩
  · exact ⟨_, rfl⟩
  · exact ⟨_, rfl⟩
  · exact ⟨_, rfl⟩

/-- So do all modes of such observers. -/
theorem exists_mapM_selects (h : Attentive Q l) (iteration : Int) (isNewBest : Bool) :
    ∃ chosen, (l.mapM fun w => w.mode.selects iteration isNewBest : Except (Failure α) _) =
      .ok chosen ∧ chosen.length = l.length := by
  induction l with
  | nil => exact ⟨[], rfl, rfl⟩
  | cons w l ih =>
    obtain ⟨first, hfirst⟩ := exists_selects (α := α) (h.interval w List.mem_cons_self) iteration
      isNewBest
    obtain ⟨rest, hrest, hlength⟩ := ih h.tail
    refine ⟨first :: rest, ?_, congrArg Nat.succ hlength⟩
    rw [List.mapM_cons, hfirst, hrest]
    rfl

end Watches

namespace Observer.Quiet

variable {O : Observer η α} {Q : η → Prop} {ws : Watches η}

/-- The start of a run is shown to all of them. -/
theorem ends_init (hO : O.Quiet Q) (name : String) (notes : Notes α)
    (h : Watches.Attentive Q ws.list) :
    (Watches.init O name notes).Ends ws (fun _ after => Watches.Attentive Q after.list)
      fun _ => False := by
  rw [Watches.ends_init_iff]
  exact Watches.ends_callChosen_quiet (hO.init name notes) _ h (List.length_map _)

/-- So is an iteration, to those that are selected. -/
theorem ends_iteration (hO : O.Quiet Q) (p : Progress α) (notes : Notes α) (isNewBest : Bool)
    (h : Watches.Attentive Q ws.list) :
    (Watches.iteration O p notes isNewBest).Ends ws (fun _ after => Watches.Attentive Q after.list)
      fun _ => False := by
  obtain ⟨chosen, hchosen, hlength⟩ :=
    Watches.exists_mapM_selects (α := α) h (p.iter : Int) isNewBest
  refine Watches.ends_iteration (fun selected hselected => ?_) fun e he => ?_
  · obtain rfl := Except.ok.inj (hselected.symm.trans hchosen)
    exact Watches.ends_callChosen_quiet (hO.iteration p notes) selected h hlength
  · cases hchosen.symm.trans he

end Observer.Quiet

end Minimization
