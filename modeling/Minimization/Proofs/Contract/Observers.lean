import Minimization.Proofs.Contract.Run

namespace Minimization

/-!
# How observers may fail

* `Watches.ends_init_iff`, `Watches.ends_iteration` — what it takes to show a run to its observers.
* `Observer.FailsWith` — an observer fails only in an expected way.
* `Observer.FailsWith.ends_init`, `Observer.FailsWith.ends_iteration` — then so do all observers of
  a run, whatever their modes.
* `Run.Findings` — what debug mode finds is expected.
* `Run.Contract.anyhow` — a contract that says nothing about failures.
-/

variable {σ ω η α : Type} {E : Failure α → Prop}

/-- The calls of an observer fail only with `E`, and so does a mode that counts in steps of zero. -/
structure Observer.FailsWith (O : Observer η α) (E : Failure α → Prop) : Prop where
  init : ∀ name notes page, (O.init name notes).Ends page (fun _ _ => True) E
  iteration : ∀ p notes page, (O.iteration p notes).Ends page (fun _ _ => True) E
  interval : E .divisionByZero

/-- A mode refuses to select only if its interval is zero. -/
theorem ObserverMode.divisionByZero_of_selects {mode : ObserverMode} {iteration : Int}
    {isNewBest : Bool} {e : Failure α} (h : mode.selects iteration isNewBest = .error e) :
    e = .divisionByZero := by
  unfold selects at h
  split at h
  · cases h
  · split at h
    · exact (Except.error.inj h).symm
    · cases h
  · cases h
  · cases h
  · cases h

namespace Watches

/-- What holds of every observer after its call, and of those that are not called, holds of all. -/
theorem ends_callChosen_each {call : Action (Notebook η) α Unit} {S : Watch η → Prop}
    {chosen : List Bool} {ws : Watches η}
    (hskipped : ∀ w, (w, false) ∈ ws.list.zip chosen → S w)
    (hcalled : ∀ w b, (w, true) ∈ ws.list.zip chosen →
      call.Ends ⟨w.memory, b⟩ (fun _ page => S { w with memory := page.memory }) E) :
    (callChosen chosen call).Ends ws (fun _ after => ∀ w ∈ after.list, S w) E := by
  -- The induction is on the pairs of observers and choices, with any loggers.
  suffices h : ∀ (l : List (Watch η × Bool)) b, (∀ w, (w, false) ∈ l → S w) →
      (∀ w b, (w, true) ∈ l →
        call.Ends ⟨w.memory, b⟩ (fun _ page => S { w with memory := page.memory }) E) →
      (Action.ofFun fun _ : Watches η => callEach call l b).Ends ws
        (fun _ after => ∀ w ∈ after.list, S w) E from h _ _ hskipped hcalled
  intro l b hskipped hcalled
  unfold Action.Ends
  rw [Action.exec_ofFun]
  induction l generalizing b with
  | nil => exact fun w hw => absurd hw List.not_mem_nil
  | cons first l ih =>
    obtain ⟨w, chosen⟩ := first
    have hrest (b : Logbook) := ih b (fun v hv => hskipped v (List.mem_cons_of_mem _ hv))
      fun v b hv => hcalled v b (List.mem_cons_of_mem _ hv)
    cases chosen with
    -- One that is skipped keeps its memory.
    | false =>
      have hafter := hrest b
      rcases hexec : callEach call l b with ⟨_ | _, after⟩
      · simpa only [callEach, hexec] using hafter
      · simp only [callEach, hexec] at hafter ⊢
        exact List.forall_mem_cons.2 ⟨hskipped w List.mem_cons_self, hafter⟩
    | true =>
      have hw := hcalled w b List.mem_cons_self
      rcases hcall : call.exec ⟨w.memory, b⟩ with ⟨e | _, page⟩
      · simp only [callEach, hcall]
        exact hw.of_error hcall
      have hafter := hrest page.logbook
      rcases hexec : callEach call l page.logbook with ⟨_ | _, after⟩
      · simpa only [callEach, hcall, hexec] using hafter
      · simp only [callEach, hcall, hexec] at hafter ⊢
        exact List.forall_mem_cons.2 ⟨hw.of_ok hcall, hafter⟩

/-- Calls of observers fail as one of them does. -/
theorem ends_callChosen {call : Action (Notebook η) α Unit} {ws : Watches η}
    (hcall : ∀ page, call.Ends page (fun _ _ => True) E) (chosen : List Bool) :
    (callChosen chosen call).Ends ws (fun _ _ => True) E :=
  (ends_callChosen_each (S := fun _ => True) (fun _ _ => trivial) fun _ _ _ => hcall _).mono
    fun _ _ _ => trivial

/-- The modes refuse to select only if an interval is zero. -/
theorem divisionByZero_of_mapM {ws : List (Watch η)} {iteration : Int} {isNewBest : Bool}
    {e : Failure α} (h : ws.mapM (fun w => w.mode.selects iteration isNewBest) = .error e) :
    e = .divisionByZero := by
  induction ws with
  | nil => cases h
  | cons w ws ih =>
    rw [List.mapM_cons] at h
    cases hw : (w.mode.selects iteration isNewBest : Except (Failure α) Bool) with
    | error e' =>
      rw [hw] at h
      obtain rfl := Except.error.inj h
      exact ObserverMode.divisionByZero_of_selects hw
    -- The first one selects, so it is one behind it that does not.
    | ok chosen =>
      rw [hw] at h
      cases hrest : ws.mapM fun w =>
          (w.mode.selects iteration isNewBest : Except (Failure α) Bool) with
      | error e' =>
        rw [hrest] at h
        obtain rfl := Except.error.inj h
        exact ih hrest
      | ok rest =>
        rw [hrest] at h
        cases h

/-- To introduce a run is to call those who are not switched off. -/
theorem ends_init_iff {O : Observer η α} {name : String} {notes : Notes α} {ws : Watches η}
    {Q : Unit → Watches η → Prop} : (init O name notes).Ends ws Q E ↔
      (callChosen (ws.list.map fun w => w.mode.selection != .never) (O.init name notes)).Ends ws
        Q E := by
  unfold init
  rw [Action.ends_bind, Action.ends_get]

/-- To show an iteration is to call those who are selected, if every mode says whether it is. -/
theorem ends_iteration {O : Observer η α} {p : Progress α} {notes : Notes α} {isNewBest : Bool}
    {ws : Watches η} {Q : Unit → Watches η → Prop}
    (hselected : ∀ chosen : List Bool,
      ws.list.mapM (fun w => (w.mode.selects (p.iter : Int) isNewBest : Except (Failure α) Bool)) =
        .ok chosen → (callChosen chosen (O.iteration p notes)).Ends ws Q E)
    (hrefused : ∀ e : Failure α,
      ws.list.mapM (fun w => w.mode.selects (p.iter : Int) isNewBest) = .error e → E e) :
    (iteration O p notes isNewBest).Ends ws Q E := by
  unfold iteration
  rw [Action.ends_bind, Action.ends_get, Action.ends_bind]
  exact Action.ends_ofExcept hselected hrefused

end Watches

namespace Observer.FailsWith

variable {O : Observer η α}

/-- The introduction fails as an observer does. -/
theorem ends_init (h : O.FailsWith E) (name : String) (notes : Notes α) (ws : Watches η) :
    (Watches.init O name notes).Ends ws (fun _ _ => True) E :=
  Watches.ends_init_iff.2 (Watches.ends_callChosen (h.init name notes) _)

/-- So does what they are shown after an iteration. -/
theorem ends_iteration (h : O.FailsWith E) (p : Progress α) (notes : Notes α) (isNewBest : Bool)
    (ws : Watches η) : (Watches.iteration O p notes isNewBest).Ends ws (fun _ _ => True) E := by
  refine Watches.ends_iteration
    (fun chosen _ => Watches.ends_callChosen (h.iteration p notes) chosen) fun e he => ?_
  rw [Watches.divisionByZero_of_mapM he]
  exact h.interval

end Observer.FailsWith

/-- Of failures of any kind nothing has to be shown. -/
theorem Observer.failsAnyhow (O : Observer η α) : O.FailsWith fun _ => True :=
  ⟨fun _ _ _ => Action.ends_anyhow _ _, fun _ _ _ => Action.ends_anyhow _ _, trivial⟩

namespace Run

/-- What debug mode may find is a failure of the expected kind. -/
structure Findings (E : Failure α → Prop) : Prop where
  undefined : ∀ name iter, E (.numerical (.undefinedCost name iter))
  decreased : ∀ k, E (.impossible (.counterDecreased k))

/-- What debug mode finds fault with is one of its two findings. -/
theorem Findings.inspection [Scalar α] (hE : Findings E) {P : Plan σ ω η α} {before : Counts}
    {r : Run σ ω η α} {e : Failure α} (h : Run.inspection P before r = .error e) : E e := by
  unfold Run.inspection finding at h
  split at h
  · split at h
    · obtain rfl := Except.error.inj h
      exact hE.undefined _ _
    · split at h
      · obtain rfl := Except.error.inj h
        exact hE.decreased _
      · cases h
  · cases h

/-- A contract that says nothing about failures is one between the parts of the solver. -/
theorem Contract.anyhow [Scalar α] {S : Solver σ ω α} {O : Observer η α} {A : Setting ω α}
    {c : RunConfig α} {J K : Progress α → σ → Prop}
    (stopped : ∀ {p s} reason, K p s → K { p with reason := reason } s)
    (step : ∀ {p s} (session : Session ω), K p s → p.reason = .notTerminated →
      (S.step A p).Ends ⟨s, session⟩
        (fun report w => J (p.update report).1.increment w.solver) fun _ => True)
    (terminate : ∀ {p s} (session : Session ω), J p s →
      (S.terminate p).Ends ⟨s, session⟩
        (fun own w => K { p with reason := ruling c p own } w.solver) fun _ => True) :
    Contract ⟨S, O, A, c⟩ J K fun _ => True where
  stopped _ h := stopped _ h
  step := step
  inspected _ _ _ _ := trivial
  terminate := terminate
  introduced := O.failsAnyhow.ends_init
  watched := O.failsAnyhow.ends_iteration

end Run

end Minimization
