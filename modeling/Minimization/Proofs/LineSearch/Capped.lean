import Minimization.Proofs.Contract.Leaves
import Minimization.Proofs.LineSearch.Bounded
import Minimization.Proofs.Method.Ordinary

namespace Minimization

/-!
# No search makes more trials than it may

Whatever the operator does, and wherever it fails, a search never counts more trials than its cap
allows.

* `Line.Capped`, `Line.Spare` — a line whose trials are within the cap, and one with a trial left.
* `Backtracking.leaves_trial`, `StrongWolfe.leaves_trial` and the lemmas beside them — what the parts of
  a search leave, however they end.
* `LineSearch.leaves_run` — the same for a whole search inside a step.
-/

variable {ω α β : Type}

/-- The line may have `cap` trials, and has not had more. -/
def Line.Capped (cap : ℕ) (l : Line α) : Prop := l.maxTrials = cap ∧ l.trials ≤ cap

/-- It may have another one. -/
def Line.Spare (cap : ℕ) (l : Line α) : Prop := l.maxTrials = cap ∧ l.trials < cap

/-- With a trial left the cap is kept. -/
theorem Line.Spare.capped {cap : ℕ} {l : Line α} (h : l.Spare cap) : l.Capped cap :=
  ⟨h.1, h.2.le⟩

/-- It is kept as well when that trial is counted. -/
theorem Line.Spare.countTrial {cap : ℕ} {l : Line α} (h : l.Spare cap) : l.countTrial.Capped cap := h

variable [Scalar α] {A : Setting ω α} {p : Progress α} {cap : ℕ}

/-- To begin and to end a search does not use up a trial. -/
theorem Line.lasting_capped {α : Type} (cap : ℕ) : Line.Lasting (Line.Capped (α := α) cap) :=
  ⟨fun _ h => ⟨h.1, Nat.zero_le cap⟩, fun _ h => h⟩

namespace Backtracking

/-- A trial that has been made was counted, whether it was accepted or not. -/
theorem capped_tried {s : Backtracking α} (h : s.line.Spare cap) (start : LineStart α)
    (c : α) : (s.tried start c).line.Capped cap := by
  unfold tried
  split
  · exact h.countTrial
  · exact h.countTrial

/-- One trial. -/
theorem leaves_trial : Workspace.Leaves (fun s : Backtracking α => s.line.Spare cap)
    (fun s => s.line.Capped cap) (trial A) := by
  rw [trial_eq]
  refine .reading fun s hs => ?_
  have hcapped : ∀ s', s' = s → s'.line.Capped cap := by
    rintro _ rfl
    exact hs.capped
  split
  · exact .mono (.pure _) (fun _ h => h) hcapped
  · refine .calculating hcapped fun x _ => .calculating hcapped fun start _ => ?_
    refine .bind (.onSession _) hcapped fun c => ?_
    exact .seq (.modifySolver fun _ _ => capped_tried hs start c) fun _ => .pure _

/-- The start of a search, whose counter is set back. -/
theorem leaves_init : Workspace.Leaves (fun s : Backtracking α => s.line.Capped cap)
    (fun s => s.line.Capped cap) (solver.init A p) :=
  (ordinary_init (Line.lasting_capped cap) (fun _ hs => hs) (fun _ _ _ _ hl => hl) p).leaves A

end Backtracking

namespace StrongWolfe

/-- The cap does not depend on the bracket. -/
abbrev Within (cap : ℕ) (s : StrongWolfe α) : Prop := s.line.Capped cap

/-- One trial, which is counted before it is made. -/
theorem leaves_trial : Workspace.Leaves (fun s : StrongWolfe α => s.line.Spare cap) (Within cap)
    (trial A) := by
  have hreport : Workspace.Leaves (Within cap) (Within cap)
      ((Workspace.readSolver : Action (Workspace (StrongWolfe α) ω) α _) >>= fun s =>
        Action.ofExcept s.report) :=
    .seq .readSolver fun _ => .ofExcept _
  rw [trial_eq]
  refine .bind .readSolver (fun _ hs => hs.capped) fun s => ?_
  split
  · refine .seq (.modifySolver fun s hs => hs.countTrial) fun _ => .seq .readSolver fun s =>
      .seq (.ofExcept _) fun k => ?_
    refine .seq ((ordinary_judge (Within cap) k).leaves A) fun verdict => ?_
    exact .seq (.modifySolver fun _ hs => hs) fun _ => hreport
  · exact hreport.mono (fun _ hs => hs.capped) fun _ hs => hs

/-- The start of such a search. -/
theorem leaves_init : Workspace.Leaves (Within cap) (Within cap) (solver.init A p) :=
  (ordinary_init (Line.lasting_capped cap) (fun _ hs => hs) (fun _ _ _ _ hl => hl) p).leaves A

end StrongWolfe

namespace LineSearch

/-- The search may make `cap` trials, and has not made more. -/
def Capped {α : Type} (cap : ℕ) (m : LineSearch α) : Prop := ∃ l, m.line? = some l ∧ l.Capped cap

/-- It may make another one. -/
def Spare {α : Type} (cap : ℕ) (m : LineSearch α) : Prop := ∃ l, m.line? = some l ∧ l.Spare cap

omit [Scalar α] in
/-- What it says of the counter. -/
theorem Capped.trials_le {m : LineSearch α} (h : m.Capped cap) : m.trials ≤ cap := by
  obtain ⟨l, hl, hcap⟩ := h
  rw [trials_eq hl]
  exact hcap.2

omit [Scalar α] in
/-- With a trial left the cap of the search is kept. -/
theorem Spare.capped {m : LineSearch α} (h : m.Spare cap) : m.Capped cap := by
  obtain ⟨l, hl, hspare⟩ := h
  exact ⟨l, hl, hspare.capped⟩

omit [Scalar α] in
/-- What both searches leave in their lines. -/
theorem leaves_dispatch {I J : Line α → Prop} {onBacktracking : Action (Workspace (Backtracking α) ω) α β}
    {onStrongWolfe : Action (Workspace (StrongWolfe α) ω) α β}
    (hbacktracking : Workspace.Leaves (fun s => I s.line) (fun s => J s.line) onBacktracking)
    (hstrongWolfe : Workspace.Leaves (fun s => I s.line) (fun s => J s.line) onStrongWolfe) :
    Workspace.Leaves (fun m => ∃ l, m.line? = some l ∧ I l) (fun m => ∃ l, m.line? = some l ∧ J l)
      (dispatch onBacktracking onStrongWolfe) := by
  rintro ⟨m, t⟩ ⟨l, hl, hI⟩
  cases m with
  | backtracking s =>
    obtain rfl := Option.some.inj hl
    exact ⟨_, rfl, hbacktracking ⟨s, t⟩ hI⟩
  | strongWolfe s =>
    obtain rfl := Option.some.inj hl
    exact ⟨_, rfl, hstrongWolfe ⟨s, t⟩ hI⟩
  | unsuited text => cases hl

/-- The start of either search. -/
theorem leaves_init : Workspace.Leaves (Capped cap) (Capped cap) (solver.init A p) :=
  leaves_dispatch Backtracking.leaves_init StrongWolfe.leaves_init

/-- A step of either search. -/
theorem leaves_step : Workspace.Leaves (Spare cap) (Capped cap) (solver.step A p) :=
  leaves_dispatch Backtracking.leaves_trial StrongWolfe.leaves_trial

/-- The question whether to stop changes nothing. -/
theorem leaves_terminate : Workspace.Leaves (Capped cap) (Capped cap)
    ((solver (ω := ω) (α := α)).terminate p) :=
  leaves_dispatch (.seq .readSolver fun _ => .pure _) (.seq .readSolver fun _ => .pure _)

/-- **After any number of trials** no more have been made than may be, and there is another one to make
    if the search goes on. -/
theorem Ready.capped {C : α → Prop} {E : Failure α → Prop} {strong still : Bool} {n : ℕ}
    {r : Run (LineSearch α) ω Empty α} (hcap : 1 ≤ cap) (hquiet : A.debug = false ∨ ∀ e, E e)
    (hn : Run.Goes (Run.nestedPlan solver A) r n)
    (h : Ready A C E strong cap still (Run.stateAfter (Run.nestedPlan solver A) r 0).progress
      (Run.stateAfter (Run.nestedPlan solver A) r 0).solver) :
    (Run.stateAfter (Run.nestedPlan solver A) r n).solver.Capped cap ∧
      ((Run.stateAfter (Run.nestedPlan solver A) r n).progress.reason = .notTerminated →
        (Run.stateAfter (Run.nestedPlan solver A) r n).solver.Spare cap) := by
  unfold Ready at h
  split at h
  · -- Along no direction no trial is made at all.
    obtain ⟨l, hl, -, -, hmax, hnone⟩ := h.exists_line
    have hspare : (Run.stateAfter (Run.nestedPlan solver A) r 0).solver.Spare cap :=
      ⟨l, hl, hmax, by omega⟩
    obtain rfl | ⟨rfl, -, hreason, hsame⟩ := h.goes hquiet hn
    · exact ⟨hspare.capped, fun _ => hspare⟩
    · rw [hreason, hsame]
      exact ⟨hspare.capped, nofun⟩
  · obtain hgo | ⟨-, hend⟩ := h.goes hquiet hn
    · obtain ⟨l, hl, -, -, hmax, hbelow, -⟩ := hgo.exists_line
      have hspare : (Run.stateAfter (Run.nestedPlan solver A) r n).solver.Spare cap :=
        ⟨l, hl, hmax, hbelow⟩
      exact ⟨hspare.capped, fun _ => hspare⟩
    · obtain ⟨l, hl, hmax, hle, -⟩ := hend.exists_line
      exact ⟨⟨l, hl, hmax, hle⟩, fun hgo => absurd hgo hend.stopped⟩

/-- **No search makes more trials than it may**, whatever the operator does and wherever it fails. -/
theorem leaves_run (A : Setting ω α) (hcap : 1 ≤ cap) (x way : Tensor α) (cost? : Option α)
    (gradient? : Option (Tensor α)) : Workspace.Leaves (Capped cap) (Capped cap)
      (run A x (some way) cost? gradient?) := by
  rintro ⟨m, t⟩ ⟨l, hl, hcapped⟩
  have hm : m.line?.isSome = true := by rw [hl]; rfl
  let P := Run.nestedPlan (solver (ω := ω) (α := α)) A
  let r := launched A m x way cost? gradient? t
  obtain ⟨-, -, -, -, hmax, -⟩ := launched_progress A m x way cost? gradient? t
  have hbegun : (Run.begun P r).solver.Capped cap := by
    rw [(Run.begun_course P r).2.1]
    refine ⟨{ l with direction := some way }, ?_, hcapped⟩
    show (m.aimed way).line? = _
    rw [line?_aimed, hl]
    rfl
  -- As long as the search goes on there is a trial left, by what is known of successful iterations.
  have hgoes {n : ℕ} (hn : Run.Goes P r n) : (Run.stateAfter P r n).solver.Capped cap ∧
      ((Run.stateAfter P r n).progress.reason = .notTerminated →
        (Run.stateAfter P r n).solver.Spare cap) := by
    have hopened : (Run.opening P).Ends (Run.begun P r) _ fun _ => True := ends_launched_ready
      (C := fun _ => True) (E := fun _ => True) hl (by rw [hcapped.1]; exact hcap) (.anyhow A _ way)
      (fun _ _ _ _ => trivial) (fun l' start _ _ _ => .anyhow A l') fun _ => trivial
    obtain ⟨-, length, -, hready⟩ := hopened.of_ok hn.opening_eq
    rw [hcapped.1] at hready
    exact hready.capped hcap (.inr fun _ => trivial) hn
  -- Where the run ends in a failure, the memory is what the part that failed has left.
  have hend : ((Run.execute P).exec r).2.solver.Capped cap := by
    have hfate := Run.body_fate P r
    rw [Run.exec_execute]
    generalize (Run.body P).exec (Run.begun P r) = outcome at hfate
    cases hfate with
    | @unopened e u hopen =>
      have hleft := Run.leaves_opening (P := P) (r := Run.begun P r) leaves_init hbegun
      rw [hopen] at hleft
      show (Run.aborted P r e u).solver.Capped cap
      rw [(Run.aborted_course P r e u).1]
      exact hleft
    | barred _ hzero =>
      rw [hmax] at hzero
      exact absurd hzero (by decide)
    | halted hn _ hx =>
      obtain ⟨hmade, hnext⟩ := hgoes hn
      cases hx with
      | stopped => exact hmade
      | interrupted => exact hmade
      | @failed e u hgo _ hit =>
        have hleft := Run.leaves_iterate (P := P) leaves_step (fun p => leaves_terminate) hgo
          (hnext hgo)
        rw [hit] at hleft
        show (Run.aborted P r e u).solver.Capped cap
        rw [(Run.aborted_course P r e u).1]
        exact hleft
  rw [exec_run_launched A hm]
  rcases hexec : (Run.execute P).exec r with ⟨_ | _, u⟩
  · rw [hexec] at hend
    exact hend
  · rw [hexec] at hend
    exact hend

end LineSearch

end Minimization
