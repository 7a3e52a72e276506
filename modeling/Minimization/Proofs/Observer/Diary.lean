import Minimization.Proofs.Run.Ending

namespace Minimization

/-!
# What observers are told

Observers can be given diaries, in which they write down what they are told before they act on it.
Nothing else about the run changes, so the diaries tell which calls an observer gets in any run.

* `Page` — what an observer can be told.
* `Observer.diarised`, `Run.diarised` — observers with diaries; those of one mode have the same one.
* `Watches.init_diarised`, `Watches.iteration_diarised` — observers get a page if their mode selects it.
* `Run.startPages`, `Run.iterationPages`, `Run.diary` — what the start of a run and its iterations add.
* `Run.Goes.diarised` — the diaries of a run that makes so many iterations.
* `Run.aborted_diarised` — what comes after a failure adds nothing.
-/

variable {σ ω η α : Type}

/-- What an observer can be told. -/
inductive Page (α : Type) where
  /-- A solver has been initialised. -/
  | start (solver : String) (notes : Notes α)
  /-- An iteration is complete. -/
  | iteration (progress : Progress α) (notes : Notes α)

/-! ### Observers with diaries -/

/-- Writes down what it is told before it acts. -/
def Observer.writing (page : Page α) (m : Action (Notebook η) α Unit) :
    Action (Notebook (η × List (Page α))) α Unit := do
  modify fun b => { b with memory := (b.memory.1, b.memory.2 ++ [page]) }
  m.focus (fun b => ⟨b.memory.1, b.logbook⟩) fun a b => ⟨(a.memory, b.memory.2), a.logbook⟩

/-- The observer with a diary. -/
def Observer.diarised (O : Observer η α) : Observer (η × List (Page α)) α where
  init name notes := writing (.start name notes) (O.init name notes)
  iteration p notes := writing (.iteration p notes) (O.iteration p notes)

/-- The observer of a run with the diary of its mode. -/
def Watch.diarised (D : ObserverMode → List (Page α)) (w : Watch η) : Watch (η × List (Page α)) :=
  ⟨w.mode, (w.memory, D w.mode)⟩

/-- The observers of a run with the diaries of their modes. -/
def Watches.diarised (ws : Watches η) (D : ObserverMode → List (Page α)) :
    Watches (η × List (Page α)) :=
  ⟨ws.list.map (Watch.diarised D), ws.logbook⟩

/-- The plan with observers that have diaries. -/
def Plan.diarised (P : Plan σ ω η α) : Plan σ ω (η × List (Page α)) α :=
  ⟨P.solver, P.observer.diarised, P.setting, P.config⟩

/-- The run with observers that have diaries. -/
def Run.diarised (r : Run σ ω η α) (D : ObserverMode → List (Page α)) :
    Run σ ω (η × List (Page α)) α :=
  ⟨r.progress, r.solver, r.session, r.observers.map (Watch.diarised D)⟩

/-! ### One call -/

/-- The start of a run is shown to observers of this mode. -/
def ObserverMode.introduced (mode : ObserverMode) : Bool := mode.selection != .never

/-- An iteration is shown to observers of this mode; one that fails to select shows nothing. -/
def ObserverMode.shown (α : Type) (mode : ObserverMode) (iteration : Int) (isNewBest : Bool) : Bool :=
  match (mode.selects iteration isNewBest : Except (Failure α) Bool) with
  | .ok chosen => chosen
  | .error _ => false

namespace Watches

/-- The observers that are called get a page. -/
theorem callEach_diarised {call : Action (Notebook η) α Unit} (page : Page α)
    (chosen : ObserverMode → Bool) (D : ObserverMode → List (Page α)) (l : List (Watch η))
    (b : Logbook) {after : Watches η}
    (h : callEach call (l.zip (l.map fun w => chosen w.mode)) b = (.ok (), after)) :
    callEach (Observer.writing page call)
        ((l.map (Watch.diarised D)).zip ((l.map (Watch.diarised D)).map fun w => chosen w.mode)) b =
      (.ok (), after.diarised fun mode => D mode ++ if chosen mode then [page] else []) := by
  -- The induction is on the observers, which are called in their order: the logbook runs through them,
  -- and each diary stays with its observer.
  induction l generalizing b after with
  | nil =>
    obtain ⟨-, rfl⟩ := Prod.mk.inj h
    rfl
  | cons w l ih =>
    have hmode : (w.diarised D).mode = w.mode := rfl
    simp only [List.map_cons, List.zip_cons_cons, hmode] at h ⊢
    cases hw : chosen w.mode with
    | false =>
      rcases hrest : callEach call (l.zip (l.map fun w => chosen w.mode)) b with ⟨outcome, rest⟩
      simp only [hw, callEach, hrest] at h
      obtain ⟨rfl, rfl⟩ := Prod.mk.inj h
      simp only [callEach, ih b hrest]
      simp [diarised, Watch.diarised, hw]
    | true =>
      rcases hexec : call.exec ⟨w.memory, b⟩ with ⟨e | _, v⟩
      · simp [hw, callEach, hexec] at h
      rcases hrest : callEach call (l.zip (l.map fun w => chosen w.mode)) v.logbook with
        ⟨outcome, rest⟩
      simp only [hw, callEach, hexec, hrest] at h
      obtain ⟨rfl, rfl⟩ := Prod.mk.inj h
      have hwriting : (Observer.writing page call).exec ⟨(w.diarised D).memory, b⟩ =
          (.ok (), ⟨(v.memory, D w.mode ++ [page]), v.logbook⟩) := by
        unfold Observer.writing
        simp only [Action.exec_bind, Action.exec_modify, Action.exec_focus, Watch.diarised, hexec]
      simp only [callEach, hwriting, ih v.logbook hrest]
      simp [diarised, Watch.diarised, hw]

/-- An introduction is written down by all who are introduced. -/
theorem init_diarised {O : Observer η α} {name : String} {notes : Notes α} {ws ws' : Watches η}
    (D : ObserverMode → List (Page α)) (h : (init O name notes).exec ws = (.ok (), ws')) :
    (init O.diarised name notes).exec (ws.diarised D) = (.ok (), ws'.diarised fun mode =>
      D mode ++ if mode.introduced then [.start name notes] else []) :=
  callEach_diarised (.start name notes) ObserverMode.introduced D ws.list ws.logbook h

/-- If all modes are able to select, the choice is that of the modes. -/
theorem chosen_of_mapM {l : List (Watch η)} {iteration : Int} {isNewBest : Bool} {chosen : List Bool}
    (h : l.mapM (fun w => (w.mode.selects iteration isNewBest : Except (Failure α) Bool)) =
      .ok chosen) : chosen = l.map fun w => w.mode.shown α iteration isNewBest := by
  induction l generalizing chosen with
  | nil => exact (Except.ok.inj h).symm
  | cons w l ih =>
    rw [List.mapM_cons] at h
    cases hw : (w.mode.selects iteration isNewBest : Except (Failure α) Bool) with
    | error e =>
      rw [hw] at h
      cases h
    | ok first =>
      rw [hw] at h
      cases hrest : l.mapM fun w =>
          (w.mode.selects iteration isNewBest : Except (Failure α) Bool) with
      | error e =>
        rw [hrest] at h
        cases h
      | ok rest =>
        rw [hrest] at h
        obtain rfl := (Except.ok.inj h).symm
        rw [List.map_cons, ← ih hrest, ObserverMode.shown, hw]

/-- An iteration is written down by all to whom it is shown. -/
theorem iteration_diarised {O : Observer η α} {p : Progress α} {notes : Notes α} {isNewBest : Bool}
    {ws ws' : Watches η} (D : ObserverMode → List (Page α))
    (h : (iteration O p notes isNewBest).exec ws = (.ok (), ws')) :
    (iteration O.diarised p notes isNewBest).exec (ws.diarised D) = (.ok (), ws'.diarised fun mode =>
      D mode ++ if mode.shown α p.iter isNewBest then [.iteration p notes] else []) := by
  unfold iteration at h ⊢
  simp only [Action.exec_bind, Action.exec_get, Action.exec_ofExcept] at h ⊢
  -- A diary is no part of the mode, so the same observers are chosen.
  have hselects : (ws.diarised D).list.mapM
      (fun w => (w.mode.selects p.iter isNewBest : Except (Failure α) Bool)) =
        ws.list.mapM fun w => w.mode.selects p.iter isNewBest := by
    unfold diarised
    rw [List.mapM_map]
    rfl
  rw [hselects]
  cases hchosen : ws.list.mapM
      fun w => (w.mode.selects p.iter isNewBest : Except (Failure α) Bool) with
  | error e =>
    rw [hchosen] at h
    cases (Prod.mk.inj h).1
  | ok chosen =>
    rw [hchosen] at h
    obtain rfl := chosen_of_mapM hchosen
    have hcalls := callEach_diarised (.iteration p notes) (fun mode => mode.shown α p.iter isNewBest)
      D ws.list ws.logbook h
    rw [List.map_map] at hcalls
    exact hcalls

end Watches

/-! ### Whole runs -/

namespace Run

variable [Scalar α] {P : Plan σ ω η α} {r r' : Run σ ω η α} {n : ℕ}

/-- What the start of a run adds to the diary of a mode. -/
def startPages (P : Plan σ ω η α) (r : Run σ ω η α) (mode : ObserverMode) : List (Page α) :=
  match (P.solver.init P.setting r.progress).exec ⟨r.solver, r.session⟩ with
  | (.ok report?, w) =>
    if mode.introduced then [.start (P.solver.name w.solver) ((report?.map (·.notes)).getD [])] else []
  | (.error _, _) => []

/-- What an iteration adds to the diary of a mode: the progress that it leads to, if the mode selects
    it. -/
def iterationPages (P : Plan σ ω η α) (r : Run σ ω η α) (mode : ObserverMode) : List (Page α) :=
  match (P.solver.step P.setting r.progress).exec ⟨r.solver, r.session⟩ with
  | (.ok report, _) =>
    let (p, isNewBest) := r.progress.update report
    if mode.shown α p.increment.iter isNewBest then [.iteration p.increment report.notes] else []
  | (.error _, _) => []

/-- The diary of a mode after the start of a run and `n` iterations. -/
def diary (P : Plan σ ω η α) (r : Run σ ω η α) (n : ℕ) (mode : ObserverMode) : List (Page α) :=
  startPages P (begun P r) mode ++
    (List.range n).flatMap fun i => iterationPages P (stateAfter P r i) mode

/-- An iteration adds its pages. -/
theorem diary_succ (P : Plan σ ω η α) (r : Run σ ω η α) (n : ℕ) (mode : ObserverMode) :
    diary P r (n + 1) mode = diary P r n mode ++ iterationPages P (stateAfter P r n) mode := by
  simp [diary, List.range_succ]

/-- The start of a run. -/
theorem opening_diarised (D : ObserverMode → List (Page α))
    (h : (opening P).exec r = (.ok (), r')) :
    (opening P.diarised).exec (r.diarised D) =
      (.ok (), r'.diarised fun mode => D mode ++ startPages P r mode) := by
  -- The solver initialises alike; only what the observers write down is new.
  rw [exec_opening] at h ⊢
  have hinit : (P.diarised.solver.init P.diarised.setting (r.diarised D).progress).exec
      ⟨(r.diarised D).solver, (r.diarised D).session⟩ =
        (P.solver.init P.setting r.progress).exec ⟨r.solver, r.session⟩ := rfl
  rw [hinit]
  unfold startPages
  generalize (P.solver.init P.setting r.progress).exec ⟨r.solver, r.session⟩ = x at h ⊢
  obtain ⟨_ | report?, w⟩ := x
  · cases (Prod.mk.inj h).1
  · dsimp only at h ⊢
    rw [exec_onWatches] at h ⊢
    obtain ⟨hok, rfl⟩ := Prod.mk.inj h
    have hshown := Watches.init_diarised D (Prod.ext hok rfl)
    have hshown : (Watches.init P.diarised.observer (P.diarised.solver.name w.solver)
        ((report?.map (·.notes)).getD [])).exec
          ⟨(opened (r.diarised D) report? w).observers,
            (opened (r.diarised D) report? w).session.logbook⟩ = _ := hshown
    rw [hshown]
    rfl

/-- The checks, the line in the logs and the observers. -/
theorem display_diarised {before : Counts} {notes : Notes α} {isNewBest : Bool}
    (D : ObserverMode → List (Page α))
    (h : (display P before notes isNewBest).exec r = (.ok (), r')) :
    (display P.diarised before notes isNewBest).exec (r.diarised D) =
      (.ok (), r'.diarised fun mode => D mode ++
        if mode.shown α r.progress.iter isNewBest then [.iteration r.progress notes] else []) := by
  rw [exec_display] at h ⊢
  -- Neither the checks nor the log line look at the diaries.
  have hsame : inspection P.diarised before (r.diarised D) = inspection P before r := rfl
  rw [hsame]
  cases hf : inspection P before r with
  | error e =>
    rw [hf] at h
    cases (Prod.mk.inj h).1
  | ok _ =>
    rw [hf] at h
    dsimp only at h ⊢
    rw [exec_onWatches] at h ⊢
    obtain ⟨hok, rfl⟩ := Prod.mk.inj h
    have hshown := Watches.iteration_diarised D (Prod.ext hok rfl)
    have hshown : (Watches.iteration P.diarised.observer (r.diarised D).progress notes isNewBest).exec
        ⟨(logged debugLevel (fun _ => iterationLine (P.diarised.solver.name (r.diarised D).solver)
            (r.diarised D).progress) (r.diarised D)).observers,
          (logged debugLevel (fun _ => iterationLine (P.diarised.solver.name (r.diarised D).solver)
            (r.diarised D).progress) (r.diarised D)).session.logbook⟩ = _ := hshown
    rw [hshown]
    rfl

/-- An iteration. -/
theorem iterate_diarised (D : ObserverMode → List (Page α))
    (hr : r.progress.reason = .notTerminated) (h : (iterate P).exec r = (.ok (), r')) :
    (iterate P.diarised).exec (r.diarised D) =
      (.ok (), r'.diarised fun mode => D mode ++ iterationPages P r mode) := by
  obtain ⟨report, w, shown, own, v, hstep, hshow, hown, rfl⟩ := (iterate_ok_iff P hr).1 h
  have hpages : iterationPages P r = fun mode =>
      if mode.shown α (r.progress.update report).1.increment.iter (r.progress.update report).2 then
        [.iteration (r.progress.update report).1.increment report.notes] else [] := by
    funext mode
    unfold iterationPages
    rw [hstep]
  rw [hpages]
  exact (iterate_ok_iff P.diarised hr).2
    ⟨report, w, _, own, v, hstep, display_diarised D hshow, hown, rfl⟩

omit [Scalar α] in
/-- Diaries have nothing to do with interrupts. -/
theorem begun_diarised (P : Plan σ ω η α) (r : Run σ ω η α) (D : ObserverMode → List (Page α)) :
    begun P.diarised (r.diarised D) = (begun P r).diarised D := by
  unfold begun
  have hguarded : P.diarised.config.guarded = P.config.guarded := rfl
  rw [hguarded]
  split <;> rfl

/-- **The diaries of a run** that makes `n` iterations. -/
theorem Goes.diarised (h : Goes P r n) : Goes P.diarised (r.diarised fun _ => []) n ∧
    stateAfter P.diarised (r.diarised fun _ => []) n =
      (stateAfter P r n).diarised (diary P r n) := by
  -- An iteration adds its pages to the diary of each mode.
  induction n with
  | zero =>
    have hopening := opening_diarised (fun _ => []) h.opening_eq
    rw [← begun_diarised] at hopening
    refine ⟨⟨by rw [hopening]; rfl, fun _ h => absurd h (Nat.not_lt_zero _),
      fun _ h => absurd h (Nat.not_lt_zero _), fun _ h => absurd h (Nat.not_lt_zero _)⟩, ?_⟩
    have hdiary : diary P r 0 = fun mode => [] ++ startPages P (begun P r) mode := by
      funext mode
      simp [diary]
    rw [hdiary]
    exact congrArg Prod.snd hopening
  | succ n ih =>
    have hlast := Nat.lt_succ_self n
    obtain ⟨hgoes, hstate⟩ := ih (h.mono (Nat.le_succ n))
    have hiterate := iterate_diarised (diary P r n) (h.running n hlast) (h.iterate_eq hlast)
    rw [← hstate] at hiterate
    refine ⟨hgoes.next ?_ ?_ (by rw [hiterate]; rfl), ?_⟩
    · rw [hstate]
      exact h.running n hlast
    · rw [hstate]
      exact h.undisturbed n hlast
    · have hdiary : diary P r (n + 1) =
          fun mode => diary P r n mode ++ iterationPages P (stateAfter P r n) mode :=
        funext fun mode => diary_succ P r n mode
      rw [hdiary]
      exact congrArg Prod.snd hiterate

/-- What comes after a failure adds nothing. -/
theorem aborted_diarised (P : Plan σ ω η α) (r t : Run σ ω η α) (e : Failure α)
    (D D' : ObserverMode → List (Page α)) :
    aborted P.diarised (r.diarised D) e (t.diarised D') = (aborted P r e t).diarised D' := by
  have hreleased : released P.diarised (r.diarised D) (t.diarised D') =
      (released P r t).diarised D' := by
    unfold released
    have hguarded : P.diarised.config.guarded = P.config.guarded := rfl
    rw [hguarded]
    split <;> rfl
  unfold aborted
  rw [hreleased]
  split <;> rfl

end Run

end Minimization
