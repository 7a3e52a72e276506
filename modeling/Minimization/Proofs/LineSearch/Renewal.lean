import Minimization.Proofs.Coupling.View
import Minimization.Proofs.Run.Ending

namespace Minimization

/-!
# Searches that start anew

A line search that has been used, or was aborted, leaves in its memory what it had come to.  The next
run of it overwrites all of that before it looks at it, so that neither the search nor a step of
steepest descent or of the quasi-Newton method depends on it.

* `Renews` — if a computation succeeds, its outcome and all that it leaves depend on the memory through
  a view only; `Sees.renews` — so it is if the memory is the same afterwards.
* `LineSearch.poised` — the settings of a search and its direction; `LineSearch.solver_sees` — all that
  its initialisation looks at.
* `LineSearch.run_sees` — a search inside a step looks at its settings alone.
* `SteepestDescent.step_sees`, `QuasiNewton.step_sees` — the steps that search.
-/

variable {σ ω α β κ : Type}

/-- If the computation succeeds, then it does so from all memories with the same view, and with the
    same result. -/
def Renews (view : σ → κ) (m : Action (Workspace σ ω) α β) : Prop :=
  ∀ ⦃s s' : σ⦄, view s' = view s → ∀ ⦃t : Session ω⦄ ⦃b : β⦄ ⦃v : Workspace σ ω⦄,
    m.exec ⟨s, t⟩ = (.ok b, v) → m.exec ⟨s', t⟩ = (.ok b, v)

/-- What is the same afterwards has been renewed. -/
theorem Sees.renews {view : σ → κ} {m : Action (Workspace σ ω) α β} (h : Sees view id m) :
    Renews view m := by
  intro s s' hs t b v hm
  have hagree := h (w := ⟨s, t⟩) (v := ⟨s', t⟩) ⟨rfl, hs⟩
  rw [hm] at hagree
  obtain ⟨⟨s₁, t₁⟩, hexec, hsession, hsolver⟩ := hagree.ok_right
  obtain rfl : t₁ = v.session := hsession
  obtain rfl : s₁ = v.solver := hsolver
  exact hexec

/-! ### Line searches -/

/-- The settings of a line and its direction. -/
def Line.poised (l : Line α) : Line α := { l with trials := 0, done := none, start := none }

/-- The settings of a search by backtracking and its direction. -/
def Backtracking.poised (s : Backtracking α) : Backtracking α :=
  { s with line := s.line.poised, step := s.line.initialStep }

/-- The settings of a search for the strong Wolfe conditions and its direction. -/
def StrongWolfe.poised (s : StrongWolfe α) : StrongWolfe α :=
  { s with line := s.line.poised, bracket := none }

/-- The settings of a line search and its direction. -/
def LineSearch.poised : LineSearch α → LineSearch α
  | .backtracking s => .backtracking s.poised
  | .strongWolfe s => .strongWolfe s.poised
  | .unsuited text => .unsuited text

variable [Scalar α] {A : Setting ω α}

/-- To keep the start of a line is to overwrite the last one. -/
theorem Line.settle_sees (x direction : Tensor α) (cost : α) (gradient : Tensor α) :
    Sees Line.poised id (Line.settle (ω := ω) x direction cost gradient) := by
  refine .bind (.ofExcept _) fun slope => .bind (.modifySolver fun l l' hl => ?_) fun _ => .of_id _
  obtain ⟨d, a, k, i, r, s⟩ := l
  obtain ⟨d', a', k', i', r', s'⟩ := l'
  simp only [poised, Line.mk.injEq] at hl
  obtain ⟨rfl, rfl, rfl, -⟩ := hl
  rfl

/-- The start of a search overwrites all that the last one has left in the line. -/
theorem Line.begin_sees (name : String) (p : Progress α) :
    Sees Line.poised id (Line.begin name A p) := by
  rw [Line.begin_eq]
  refine .reading (fun l l' hl => ?_) fun l => ?_
  · have hdirection : l'.direction = l.direction := (congrArg Line.direction hl :)
    have hrequire : (l'.requireDirection name : Except (Failure α) _) = l.requireDirection name := by
      unfold requireDirection
      rw [hdirection]
    rw [hrequire]
  · refine .bind (.ofExcept _) fun direction => ?_
    exact .bind (.onSession _) fun cost => .bind (.onSession _) fun gradient =>
      Line.settle_sees _ _ _ _

/-- The step length is overwritten as well. -/
theorem Backtracking.init_sees (p : Progress α) :
    Sees Backtracking.poised id (Backtracking.solver.init A p) := by
  -- Once the line has begun, all but the step length is the same.
  have hline : Sees Backtracking.poised (fun s => (s.line, s.decrease, s.shrink))
      (Backtracking.onLine (Line.begin Backtracking.name A p)) := by
    refine .within (Line.begin_sees _ p) (fun s s' hs => (congrArg Backtracking.line hs :)) ?_
    intro l l' s s' hl hs
    have hdecrease : s'.decrease = s.decrease := (congrArg Backtracking.decrease hs :)
    have hshrink : s'.shrink = s.shrink := (congrArg Backtracking.shrink hs :)
    obtain rfl : l' = l := hl
    rw [hdecrease, hshrink]
  refine .bind hline fun report => .bind (.modifySolver fun s s' hs => ?_) fun _ => .pure _
  obtain ⟨l, d, k, a⟩ := s
  obtain ⟨l', d', k', a'⟩ := s'
  obtain ⟨rfl, hs⟩ := Prod.mk.inj hs
  obtain ⟨rfl, rfl⟩ := Prod.mk.inj hs
  rfl

/-- The bracket is overwritten as well. -/
theorem StrongWolfe.init_sees (p : Progress α) :
    Sees StrongWolfe.poised id (StrongWolfe.solver.init A p) := by
  -- Once the line has begun, all but the bracket is the same.
  have hline : Sees StrongWolfe.poised (fun s => (s.line, s.decrease, s.curvature))
      (StrongWolfe.onLine (Line.begin StrongWolfe.name A p)) := by
    refine .within (Line.begin_sees _ p) (fun s s' hs => (congrArg StrongWolfe.line hs :)) ?_
    intro l l' s s' hl hs
    have hdecrease : s'.decrease = s.decrease := (congrArg StrongWolfe.decrease hs :)
    have hcurvature : s'.curvature = s.curvature := (congrArg StrongWolfe.curvature hs :)
    obtain rfl : l' = l := hl
    rw [hdecrease, hcurvature]
  refine .bind hline fun report => .reading (fun s s' hs => ?_) fun s => ?_
  · have hline : s'.line = s.line := congrArg Prod.fst hs
    rw [hline]
  · refine .bind (.ofExcept _) fun start => .bind (.modifySolver fun s s' hs => ?_) fun _ => .pure _
    obtain ⟨l, d, k, a⟩ := s
    obtain ⟨l', d', k', a'⟩ := s'
    obtain ⟨rfl, hs⟩ := Prod.mk.inj hs
    obtain ⟨rfl, rfl⟩ := Prod.mk.inj hs
    rfl

omit [Scalar α] in
/-- The search at hand sees what it would see on its own. -/
theorem LineSearch.dispatch_sees {m : Action (Workspace (Backtracking α) ω) α β}
    {n : Action (Workspace (StrongWolfe α) ω) α β} (hm : Sees Backtracking.poised id m)
    (hn : Sees StrongWolfe.poised id n) : Sees LineSearch.poised id (dispatch m n) := by
  rintro ⟨s, t⟩ ⟨s', t'⟩ ⟨hsession, hs⟩
  -- Searches that look the same are of the same kind.
  cases s with
  | backtracking s =>
    cases s' with
    | backtracking s' =>
      exact hm.wrapping LineSearch.backtracking (w := ⟨.backtracking s, t⟩)
        (LineSearch.backtracking.inj hs) (fun _ _ h => congrArg LineSearch.backtracking h) hsession
    | strongWolfe s' => cases hs
    | unsuited text => cases hs
  | strongWolfe s =>
    cases s' with
    | strongWolfe s' =>
      exact hn.wrapping LineSearch.strongWolfe (w := ⟨.strongWolfe s, t⟩)
        (LineSearch.strongWolfe.inj hs) (fun _ _ h => congrArg LineSearch.strongWolfe h) hsession
    | backtracking s' => cases hs
    | unsuited text => cases hs
  | unsuited text =>
    cases s' with
    | unsuited text' => exact .error ⟨hsession, rfl⟩
    | backtracking s' => cases hs
    | strongWolfe s' => cases hs

omit [Scalar α] in
/-- Searches with the same settings have the same name. -/
theorem LineSearch.name_of_poised {s s' : LineSearch α} (h : s'.poised = s.poised) :
    s'.name = s.name := by
  cases s with
  | backtracking s =>
    cases s' with
    | backtracking s' => rfl
    | strongWolfe s' => cases h
    | unsuited text => cases h
  | strongWolfe s =>
    cases s' with
    | strongWolfe s' => rfl
    | backtracking s' => cases h
    | unsuited text => cases h
  | unsuited text =>
    cases s' with
    | unsuited text' => exact LineSearch.unsuited.inj h
    | backtracking s' => cases h
    | strongWolfe s' => cases h

/-- The parts of a search: its initialisation looks at settings and direction, and from then on the
    memory is the same. -/
theorem LineSearch.solver_sees (A : Setting ω α) :
    (LineSearch.solver (ω := ω) (α := α)).Sees LineSearch.poised id A where
  name _ _ := name_of_poised
  nameAfter _ _ h := congrArg LineSearch.name h
  init p := dispatch_sees (Backtracking.init_sees p) (StrongWolfe.init_sees p)
  step _ := .of_id _
  terminate _ := .of_id _

omit [Scalar α] in
/-- Searches with the same settings have the same to start from once their direction has been set. -/
theorem LineSearch.setDirection_of_blank {s s' : LineSearch α} (hs : s'.blank = s.blank)
    (direction : Option (Tensor α)) :
    (∃ x x', s.setDirection direction = .ok x ∧ s'.setDirection direction = .ok x' ∧
      x'.poised = x.poised) ∨
    ∃ e, s.setDirection direction = .error e ∧ s'.setDirection direction = .error e := by
  -- The direction replaces the old one, and with it the last difference that is not overwritten.
  cases s with
  | backtracking s =>
    cases s' with
    | backtracking s' =>
      refine .inl ⟨_, _, rfl, rfl, ?_⟩
      obtain ⟨⟨d, a, k, i, r, o⟩, c, q, b⟩ := s
      obtain ⟨⟨d', a', k', i', r', o'⟩, c', q', b'⟩ := s'
      simp only [blank, Backtracking.blank, Line.blank, LineSearch.backtracking.injEq,
        Backtracking.mk.injEq, Line.mk.injEq, true_and, and_true] at hs
      obtain ⟨⟨rfl, rfl⟩, rfl, rfl, -⟩ := hs
      rfl
    | strongWolfe s' => cases hs
    | unsuited text => cases hs
  | strongWolfe s =>
    cases s' with
    | strongWolfe s' =>
      refine .inl ⟨_, _, rfl, rfl, ?_⟩
      obtain ⟨⟨d, a, k, i, r, o⟩, c, q, b⟩ := s
      obtain ⟨⟨d', a', k', i', r', o'⟩, c', q', b'⟩ := s'
      simp only [blank, StrongWolfe.blank, Line.blank, LineSearch.strongWolfe.injEq,
        StrongWolfe.mk.injEq, Line.mk.injEq, true_and, and_true] at hs
      obtain ⟨⟨rfl, rfl⟩, rfl, rfl⟩ := hs
      rfl
    | backtracking s' => cases hs
    | unsuited text => cases hs
  | unsuited text =>
    cases s' with
    | unsuited text' => exact .inr ⟨_, rfl, rfl⟩
    | backtracking s' => cases hs
    | strongWolfe s' => cases hs

/-- **A search inside a step** looks at its settings alone. -/
theorem LineSearch.run_sees (x : Tensor α) (direction : Option (Tensor α)) (cost : Option α)
    (gradient : Option (Tensor α)) :
    Sees LineSearch.blank id (LineSearch.run A x direction cost gradient) := by
  rintro ⟨s, t⟩ ⟨s', t'⟩ ⟨hsession, hs⟩
  obtain rfl : t' = t := hsession
  rw [exec_run, exec_run]
  obtain ⟨y, y', hset, hset', hpoised⟩ | ⟨e, hset, hset'⟩ := setDirection_of_blank hs direction
  · rw [hset, hset']
    exact Run.nested_sees (solver_sees A) _ ⟨rfl, hpoised⟩
  · rw [hset, hset']
    exact .error ⟨rfl, rfl⟩

/-! ### Steps that search -/

/-- Steepest descent has nothing to see but the settings of its search. -/
theorem SteepestDescent.step_sees (p : Progress α) :
    Sees LineSearch.blank id (SteepestDescent.solver.step A p) :=
  .bind (.onSession _) fun _ => .bind (.onSession _) fun _ =>
    .bind (LineSearch.run_sees _ _ _ _) fun _ => .of_id _

/-- A quasi-Newton method has its matrix to see as well. -/
theorem QuasiNewton.step_sees (p : Progress α) :
    Sees (fun s : QuasiNewton α => (s.inverseHessian, s.search.blank)) id
      (QuasiNewton.solver.step A p) := by
  refine .bind (.ofExcept _) fun oldGradient => .reading (fun s s' hs => ?_) fun s => ?_
  · have hinverse : s'.inverseHessian = s.inverseHessian := congrArg Prod.fst hs
    simp only [hinverse]
  · refine .bind (.ofExcept _) fun image => .bind (.within (LineSearch.run_sees _ _ _ _)
      (fun s s' hs => congrArg Prod.snd hs) fun search search' s s' hsearch hs => ?_) fun found =>
        .of_id _
    have hinverse : s'.inverseHessian = s.inverseHessian := congrArg Prod.fst hs
    obtain rfl : search' = search := hsearch
    obtain ⟨h, l⟩ := s
    obtain ⟨h', l'⟩ := s'
    obtain rfl : h' = h := hinverse
    rfl

end Minimization
