import Minimization.Proofs.Coupling.Alone
import Minimization.Proofs.LineSearch.Renewal
import Minimization.Proofs.LineSearch.Wolfe
import Minimization.Proofs.Method.Coherence
import Minimization.Proofs.Run.Invariant

namespace Minimization

/-!
# Solvers that are used again

A line search, a dogleg method and steepest descent may be run any number of times, and each run may be
aborted anywhere.  What is kept of that are the settings alone, and a run looks at nothing else.

* `Worn` — an object with a history, beside one with the same settings that has never been used.
* `LineSearch.Use`, `Dogleg.Use` — the ways in which an object is used, whatever comes of it.
* `Run.execute_kept` — what a solver beside itself keeps, it keeps in a run as well.
* `LineSearch.blank_of_worn`, `Dogleg.eq_of_worn` — a history does not show in the settings.
* `Run.worn_as_unused` — nor does it show in a run.
-/

variable {σ ω η α : Type}

/-- `Worn uses changes s₀ s`: the object `s` has a history of uses, after each of which it is what `uses`
    tells; the object `s₀` has never been used.  The settings of both were changed in the same ways, by
    some of the `changes`. -/
inductive Worn (uses : σ → σ → Prop) (changes : (σ → Except (Failure α) σ) → Prop) : σ → σ → Prop
  | unused (s : σ) : Worn uses changes s s
  | used {s₀ s s' : σ} (h : Worn uses changes s₀ s) (hs : uses s s') : Worn uses changes s₀ s'
  | changed {s₀ s s₀' s' : σ} {f : σ → Except (Failure α) σ} (h : Worn uses changes s₀ s)
      (hf : changes f) (h₀ : f s₀ = .ok s₀') (hs : f s = .ok s') : Worn uses changes s₀' s'

/-! ### What a run keeps -/

/-- A property of the memory that the parts of a solver keep is kept by a run, however it ends. -/
theorem Run.execute_kept [Scalar α] {P : Plan σ ω η α} {I : σ → Prop}
    (hP : P.solver.Bonded ((Bond.solo fun _ => True).keeping I) P.setting P.setting P.solver)
    {r : Run σ ω η α} (h : I r.solver) : I ((execute P).exec r).2.solver := by
  -- What every part of a run keeps, of the solver alone, is an invariant of the whole run.
  have hinvariant : Invariant P fun r => I r.solver := by
    have hpart {β : Type} {m : Action (Workspace σ ω) α β}
        (hm : ((Bond.solo fun _ => True).keeping I).Related m m) {w v : Workspace σ ω}
        {x : Except (Failure α) β} (hw : I w.solver) (hexec : m.exec w = (x, v)) : I v.solver := by
      have hkept := (hm.kept (w := w) trivial hw).2
      rwa [hexec] at hkept
    exact {
      watched := fun _ hr => hr
      receive := fun _ hr => hr
      stopped := fun _ hr => hr
      init_failed := fun hr hexec => hpart (hP.init _) hr hexec
      init := fun hr hexec => hpart (hP.init _) hr hexec
      step_failed := fun hr hexec => hpart (hP.step _) hr hexec
      step := fun hr hexec => hpart (hP.step _) hr hexec
      terminate := fun hr hexec => hpart (hP.terminate _) hr hexec }
  exact hinvariant.execute h

variable [Scalar α]

/-! ### Line searches -/

namespace LineSearch

/-- A use of a line search, whether it succeeds or fails: a search inside a step, a run of the search
    itself, a run of a method that searches with it, or that a direction is set. -/
inductive Use : LineSearch α → LineSearch α → Prop
  | searched {ω : Type} (A : Setting ω α) (x : Tensor α) (direction : Option (Tensor α))
      (cost : Option α) (gradient : Option (Tensor α)) (s : LineSearch α) (t : Session ω) :
      Use s ((LineSearch.run A x direction cost gradient).exec ⟨s, t⟩).2.solver
  | ran {ω η : Type} {P : Plan (LineSearch α) ω η α} (hP : P.solver = LineSearch.solver)
      (r : Run (LineSearch α) ω η α) : Use r.solver ((Run.execute P).exec r).2.solver
  | descended {ω η : Type} {P : Plan (LineSearch α) ω η α} (hP : P.solver = SteepestDescent.solver)
      (r : Run (LineSearch α) ω η α) : Use r.solver ((Run.execute P).exec r).2.solver
  | learned {ω η : Type} {P : Plan (QuasiNewton α) ω η α} (hP : P.solver = QuasiNewton.solver)
      (r : Run (QuasiNewton α) ω η α) :
      Use r.solver.search ((Run.execute P).exec r).2.solver.search
  | aimed {s s' : LineSearch α} {direction : Option (Tensor α)}
      (h : s.setDirection direction = .ok s') : Use s s'

/-- The setting of a line search that can be changed. -/
def Change (f : LineSearch α → Except (Failure α) (LineSearch α)) : Prop :=
  ∃ step, f = setInitialStep step

/-- **No use changes the settings.** -/
theorem blank_of_use {s s' : LineSearch α} (h : Use s s') : s'.blank = s.blank := by
  -- The parts of a search keep its settings, and a run is made of such parts.
  cases h with
  | searched A x direction cost gradient s t =>
    exact ((LineSearch.run_bonded (Bond.solo_nests _) A.operator.keeps_nothing.hosts s.blank x
      direction cost gradient).kept (w := ⟨s, t⟩) trivial rfl).2
  | @ran _ _ P hP r =>
    refine Run.execute_kept (I := fun s : LineSearch α => s.blank = r.solver.blank) ?_ rfl
    rw [hP]
    exact LineSearch.bonded P.setting.operator.keeps_nothing.hosts.toAbreast _
  | @descended _ _ P hP r =>
    have hhosts := P.setting.operator.keeps_nothing.hosts
    refine Run.execute_kept (I := fun s : LineSearch α => s.blank = r.solver.blank) ?_ rfl
    rw [hP]
    exact SteepestDescent.bonded_fixing hhosts.toAbreast (Bond.solo_nests _) hhosts _
  | @learned _ _ P hP r =>
    have hhosts := P.setting.operator.keeps_nothing.hosts
    refine Run.execute_kept (I := fun s : QuasiNewton α => s.search.blank = r.solver.search.blank) ?_ rfl
    rw [hP]
    exact QuasiNewton.bonded_fixing hhosts.toAbreast (Bond.solo_nests _) hhosts _
  | aimed h => exact blank_of_setDirection h

/-- A first step length that has been accepted is the only setting that is different. -/
theorem blank_of_setInitialStep {step : α} {s x : LineSearch α} (h : s.setInitialStep step = .ok x) :
    x.blank = match s.blank with
      | .backtracking s => .backtracking { s with line.initialStep := step, step := step }
      | .strongWolfe s => .strongWolfe { s with line.initialStep := step }
      | .unsuited text => .unsuited text := by
  -- Setting the first step checks it and replaces that one field.
  have hline {l l' : Line α} (hl : l.setInitialStep step = .ok l') :
      l' = { l with initialStep := step } := by
    unfold Line.setInitialStep at hl
    split at hl
    · exact (Except.ok.inj hl).symm
    · cases hl
  cases s with
  | backtracking s =>
    simp only [setInitialStep, onLine] at h
    cases hl : (s.line.setInitialStep step : Except (Failure α) _) with
    | error e =>
      rw [hl] at h
      cases h
    | ok l =>
      rw [hl] at h
      obtain rfl := Except.ok.inj h
      rw [hline hl]
      rfl
  | strongWolfe s =>
    simp only [setInitialStep, onLine] at h
    cases hl : (s.line.setInitialStep step : Except (Failure α) _) with
    | error e =>
      rw [hl] at h
      cases h
    | ok l =>
      rw [hl] at h
      obtain rfl := Except.ok.inj h
      rw [hline hl]
      rfl
  | unsuited text => cases h

/-- **A history does not show in the settings.** -/
theorem blank_of_worn {s₀ s : LineSearch α} (h : Worn Use Change s₀ s) : s.blank = s₀.blank := by
  induction h with
  | unused s => rfl
  | used _ hs ih => exact (blank_of_use hs).trans ih
  | changed _ hf h₀ hs ih =>
    obtain ⟨step, rfl⟩ := hf
    rw [blank_of_setInitialStep hs, blank_of_setInitialStep h₀, ih]

end LineSearch

/-! ### The dogleg method -/

namespace Dogleg

/-- A use of a dogleg method, whether it succeeds or fails: a run of its own, or one inside a step. -/
inductive Use : Dogleg α → Dogleg α → Prop
  | ran {ω η : Type} {P : Plan (Dogleg α) ω η α} (hP : P.solver = Dogleg.solver)
      (r : Run (Dogleg α) ω η α) : Use r.solver ((Run.execute P).exec r).2.solver
  | nested {ω : Type} (A : Setting ω α) (start : RunConfig α → Progress α) (s : Dogleg α)
      (t : Session ω) : Use s ((Run.nested Dogleg.solver A start).exec ⟨s, t⟩).2.solver

/-- The setting of a dogleg method. -/
def Change (f : Dogleg α → Except (Failure α) (Dogleg α)) : Prop :=
  ∃ radius, f = fun s => Subproblem.setRadius radius (.dogleg s)

/-- **A dogleg method keeps nothing of a run.** -/
theorem eq_of_use {s s' : Dogleg α} (h : Use s s') : s' = s := by
  -- The dogleg solver never writes to itself.
  cases h with
  | @ran _ _ P hP r =>
    refine Run.execute_kept (I := fun s => s = r.solver) ?_ rfl
    rw [hP]
    exact Dogleg.bonded P.setting.operator.keeps_nothing.hosts.toAbreast _
  | nested A start s t =>
    have hhosts := A.operator.keeps_nothing.hosts
    have hrelated := Run.nested_bonded (Bond.solo_nests fun _ => True) hhosts
      (Dogleg.bonded hhosts.toAbreast (· = s)) start
    exact (hrelated.kept (w := ⟨s, t⟩) trivial rfl).2

/-- **A history does not show**, whatever radii were set in it. -/
theorem eq_of_worn {s₀ s : Dogleg α} (h : Worn Use Change s₀ s) : s = s₀ := by
  induction h with
  | unused s => rfl
  | used _ hs ih => exact (eq_of_use hs).trans ih
  | changed _ hf h₀ hs ih =>
    obtain ⟨radius, rfl⟩ := hf
    exact Except.ok.inj (hs.symm.trans (ih ▸ h₀))

end Dogleg

/-! ### Steepest descent -/

/-- The parts of steepest descent look at the settings of the search alone. -/
theorem SteepestDescent.solver_sees (A : Setting ω α) :
    (SteepestDescent.solver (ω := ω) (α := α)).Sees LineSearch.blank LineSearch.blank A where
  name _ _ _ := rfl
  nameAfter _ _ _ := rfl
  init _ := .pure _
  step p := (SteepestDescent.step_sees p).weaken fun _ _ h => congrArg LineSearch.blank h
  terminate _ := .pure _

/-! ### Runs of worn objects -/

/-- **Nothing is carried over.**  After any history a search comes to the same result or the same
    failure as one that has never been used and has the same settings, and it does the same to the
    session: to the memory of the operator, whatever that records of the calls, to the counts and to the
    loggers.  So does a run of steepest descent, and it also does the same to its observers; and a run of
    the dogleg method is the same altogether. -/
theorem Run.worn_as_unused :
    (∀ s₀ s : LineSearch α, Worn LineSearch.Use LineSearch.Change s₀ s →
      (∀ (ω : Type) (A : Setting ω α) (x : Tensor α) (direction : Option (Tensor α)) (cost : Option α)
          (gradient : Option (Tensor α)) (t : Session ω),
        ((LineSearch.run A x direction cost gradient).exec ⟨s, t⟩).1 =
            ((LineSearch.run A x direction cost gradient).exec ⟨s₀, t⟩).1 ∧
          ((LineSearch.run A x direction cost gradient).exec ⟨s, t⟩).2.session =
            ((LineSearch.run A x direction cost gradient).exec ⟨s₀, t⟩).2.session) ∧
      ∀ (ω η : Type) (P : Plan (LineSearch α) ω η α) (p : Progress α) (t : Session ω)
          (ws : List (Watch η)), P.solver = SteepestDescent.solver →
        ((execute P).exec ⟨p, s, t, ws⟩).1 = ((execute P).exec ⟨p, s₀, t, ws⟩).1 ∧
          Alike LineSearch.blank ((execute P).exec ⟨p, s₀, t, ws⟩).2
            ((execute P).exec ⟨p, s, t, ws⟩).2) ∧
    ∀ s₀ s : Dogleg α, Worn Dogleg.Use Dogleg.Change s₀ s →
      ∀ (ω η : Type) (P : Plan (Dogleg α) ω η α) (p : Progress α) (t : Session ω)
          (ws : List (Watch η)), P.solver = Dogleg.solver →
        (execute P).exec ⟨p, s, t, ws⟩ = (execute P).exec ⟨p, s₀, t, ws⟩ := by
  refine ⟨fun s₀ s h => ⟨fun ω A x direction cost gradient t => ?_, fun ω η P p t ws hP => ?_⟩,
    fun s₀ s h ω η P p t ws hP => ?_⟩
  · have hagree := LineSearch.run_sees (A := A) x direction cost gradient (w := ⟨s₀, t⟩) (v := ⟨s, t⟩)
      ⟨rfl, LineSearch.blank_of_worn h⟩
    exact hagree.outcome (fun _ _ hend => hend.1) fun _ _ hend => hend.1
  · have hsees : P.solver.Sees LineSearch.blank LineSearch.blank P.setting := by
      rw [hP]
      exact SteepestDescent.solver_sees P.setting
    have hagree := execute_sees hsees (r := ⟨p, s₀, t, ws⟩) (q := ⟨p, s, t, ws⟩)
      ⟨rfl, rfl, rfl, LineSearch.blank_of_worn h⟩
    obtain ⟨houtcome, hend⟩ := hagree.outcome (fun _ _ hend => hend.unseen) fun _ _ hend => hend
    -- The settings of the search have lasted in both runs, even if these have failed.
    have hused := LineSearch.blank_of_use (.descended hP ⟨p, s, t, ws⟩)
    have hunused := LineSearch.blank_of_use (.descended hP ⟨p, s₀, t, ws⟩)
    refine ⟨houtcome, hend.progress, hend.session, hend.observers, ?_⟩
    exact hused.trans ((LineSearch.blank_of_worn h).trans hunused.symm)
  · rw [Dogleg.eq_of_worn h]

/-! ### On the sphere function -/

/-- The sphere function without its gradient. -/
def bluntSphere : Operator Unit (Exact ℚ) := { sphereOperator with gradient? := none }

/-- A search for the strong Wolfe conditions after a run that was aborted in its first trial, when it
    asked for a gradient. -/
def abortedSearch : LineSearch (Exact ℚ) :=
  ((LineSearch.run ⟨bluntSphere, false⟩ (.vector .array [3.0]) (some (.vector .array [-2.0])) (some 9.0)
    (some (.vector .array [6.0]))).exec ⟨.strongWolfe StrongWolfe.sphereSearch, .start ()⟩).2.solver

/-- A search with a shorter first step that has never been used. -/
def unusedSearch : LineSearch (Exact ℚ) :=
  .strongWolfe { StrongWolfe.sphereSearch with line.initialStep := 0.25 }

/-- The aborted search has made a trial, which does not matter any more. -/
theorem worn_as_unused_sphere : ∃ (s : LineSearch (Exact ℚ)) (d : Dogleg (Exact ℚ)),
    abortedSearch.setInitialStep 0.25 = .ok s ∧ s.line?.map (·.trials) = some 1 ∧
    Worn LineSearch.Use LineSearch.Change unusedSearch s ∧
    ((Run.execute (Run.spherePlan SteepestDescent.solver)).exec (Run.sphereStart s)).1 = .ok () ∧
    ((Run.execute (Run.spherePlan SteepestDescent.solver)).exec (Run.sphereStart s)).2.progress =
      ((Run.execute (Run.spherePlan SteepestDescent.solver)).exec
        (Run.sphereStart unusedSearch)).2.progress ∧
    Worn Dogleg.Use Dogleg.Change ⟨10.0⟩ d ∧
    ((Run.execute (Run.spherePlan Dogleg.solver)).exec (Run.sphereStart d)).1 = .ok () := by
  have hunused : LineSearch.setInitialStep 0.25 (.strongWolfe StrongWolfe.sphereSearch) =
      .ok unusedSearch := by
    have hpos : Scalar.lt (0.0 : Exact ℚ) 0.25 = true := by decide +kernel
    unfold LineSearch.setInitialStep LineSearch.onLine Line.setInitialStep
    simp only [hpos, if_true]
    rfl
  obtain ⟨s, hset⟩ : ∃ s, abortedSearch.setInitialStep 0.25 = .ok s := by
    have hok : (abortedSearch.setInitialStep (0.25 : Exact ℚ)).isOk = true := by decide +kernel
    cases hset : abortedSearch.setInitialStep (0.25 : Exact ℚ) with
    | ok s => exact ⟨s, rfl⟩
    | error e =>
      rw [hset] at hok
      cases hok
  have htrials : (abortedSearch.setInitialStep (0.25 : Exact ℚ)).toOption.bind
      (fun s => s.line?.map (·.trials)) = some 1 := by decide +kernel
  rw [hset] at htrials
  -- An aborted search, then the setting of its first step; the unused one has the same step set.
  have hworn : Worn LineSearch.Use LineSearch.Change unusedSearch s :=
    .changed (.used (.unused _) (.searched _ _ _ _ _ _ _)) ⟨_, rfl⟩ hunused hset
  have hworn' : Worn Dogleg.Use Dogleg.Change (⟨10.0⟩ : Dogleg (Exact ℚ)) ⟨10.0⟩ :=
    .changed (.used (.unused ⟨1.0⟩) (.nested ⟨bluntSphere, false⟩ (fun c =>
      Run.seeded (.vector .array [3.0]) c.maxIters none none none) _ (.start ()))) ⟨10.0, rfl⟩ rfl rfl
  obtain ⟨hsearch, hdogleg⟩ := Run.worn_as_unused (α := Exact ℚ)
  obtain ⟨houtcome, halike⟩ := (hsearch _ _ hworn).2 Unit Empty
    (Run.spherePlan SteepestDescent.solver) (Run.seeded (.ofVec .array ![3, 4]) 2 (some 7.0) none none)
    (.start ()) [] rfl
  have hok : ((Run.execute (Run.spherePlan SteepestDescent.solver)).exec
      (Run.sphereStart unusedSearch)).1 = .ok () :=
    congrArg Prod.fst (Action.exec_eq_of_isOk (by decide +kernel))
  have hok' : ((Run.execute (Run.spherePlan Dogleg.solver)).exec (Run.sphereStart ⟨10.0⟩)).1 = .ok () :=
    congrArg Prod.fst (Action.exec_eq_of_isOk (by decide +kernel))
  exact ⟨s, _, hset, htrials, hworn, houtcome.trans hok, halike.progress, hworn',
    (congrArg Prod.fst (hdogleg _ _ hworn' Unit Empty (Run.spherePlan Dogleg.solver) _ _ _ rfl)).trans
      hok'⟩

end Minimization
