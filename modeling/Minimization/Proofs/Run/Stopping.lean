import Minimization.Method.Landweber
import Minimization.Problem.Sphere
import Minimization.Proofs.Run.Overheard
import Minimization.Proofs.Scalar.Exact

namespace Minimization

/-!
# Where a run stops

A run that returns has made a course of turns, and every turn but the last was one after which no
rule told it to stop.

* `Course` — the turns of a run from one point on, up to its final progress.
* `Run.iterations_course` — the loop makes a course; its fuel never runs out.
* `Course.length_le`, `Course.iter_eq`, `Course.goes_on`, `Course.last` — what a course says about
  its length, about the turns before the last one, and about the reason at its end.
* `Stops` — the stopping rules of a whole run, told from its turns.

Every run that returns has stopped by the rules.
-/

/-- The turns from a progress and an interrupt to the end of a run. -/
inductive Course {α : Type} [Scalar α] (c : RunConfig α) :
    Progress α → Interrupt → List (Turn α) → Progress α → Prop
  /-- The user has asked the run to stop. -/
  | interrupted {p : Progress α} {i : Interrupt} (hi : Run.raised c i = true) :
      Course c p i [] { p with reason := .keyboardInterrupt }
  /-- A rule tells the run to stop after a turn. -/
  | ruled {p p' : Progress α} {i i' : Interrupt} {t : Turn α} (hi : Run.raised c i = false)
      (ht : t.Leads c p i p' i') (hstop : p'.reason.isTerminal = true) : Course c p i [t] p'
  /-- No rule does, and the run goes on. -/
  | more {p p' final : Progress α} {i i' : Interrupt} {t : Turn α} {ts : List (Turn α)}
      (hi : Run.raised c i = false) (ht : t.Leads c p i p' i')
      (hgo : p'.reason = .notTerminated) (rest : Course c p' i' ts final) :
      Course c p i (t :: ts) final

namespace Turn.Leads

variable {α : Type} [Scalar α] {c : RunConfig α} {t : Turn α} {p p' : Progress α}
  {i i' : Interrupt}

/-- An iteration counts. -/
theorem iter_next (h : t.Leads c p i p' i') : p'.iter = p.iter + 1 := by
  rw [h.after]
  exact h.iter

/-- The cap stays. -/
theorem maxIters_next (h : t.Leads c p i p' i') : p'.maxIters = p.maxIters := by
  rw [h.after]
  exact h.maxIters

/-- The reason to stop is the one that the executor rules. -/
theorem reason_next (h : t.Leads c p i p' i') : p'.reason = Run.ruling c t.after t.own := by
  rw [h.after]

/-- After a turn that leads on, no rule has told the run to stop. -/
theorem no_rule (h : t.Leads c p i p' i') (hgo : p'.reason = .notTerminated) :
    t.own = .notTerminated ∧ (p.iter + 1 : Int) < p.maxIters ∧
      Scalar.le t.after.cost c.targetCost = false := by
  rw [h.reason_next] at hgo
  -- If no rule has stopped the run, then each of them was asked in vain.
  unfold Run.ruling at hgo
  rw [h.maxIters, h.iter] at hgo
  split at hgo
  · next hown => simp [hgo, Reason.isTerminal] at hown
  · next hown =>
    split at hgo
    · simp at hgo
    · next hcap =>
      split at hgo
      · simp at hgo
      · next hcost =>
        refine ⟨by simpa using hown, ?_, by simpa using hcost⟩
        push_cast at hcap
        omega

end Turn.Leads

namespace Course

variable {α : Type} [Scalar α] {c : RunConfig α} {p final : Progress α} {i : Interrupt}
  {ts : List (Turn α)}

/-- Every turn is an iteration. -/
theorem iter_eq (h : Course c p i ts final) : final.iter = p.iter + ts.length := by
  induction h with
  | interrupted hi => rfl
  | ruled hi ht hstop =>
    rw [ht.iter_next]
    rfl
  | more hi ht hgo rest ih =>
    rw [ih, ht.iter_next, List.length_cons]
    omega

/-- A course that starts below the cap never exceeds it. -/
theorem length_le (h : Course c p i ts final) (hp : (p.iter : Int) < p.maxIters) :
    (p.iter + ts.length : Int) ≤ p.maxIters := by
  -- A turn uses up one of the iterations that the cap has left.
  induction h with
  | interrupted hi =>
    rw [List.length_nil]
    omega
  | ruled hi ht hstop =>
    rw [List.length_singleton]
    omega
  | more hi ht hgo rest ih =>
    have hnext := (ht.no_rule hgo).2.1
    rw [ht.iter_next, ht.maxIters_next] at ih
    specialize ih (by exact_mod_cast hnext)
    rw [List.length_cons]
    push_cast at ih ⊢
    omega

/-- The turns are numbered, and none of them began after the user had asked to stop. -/
theorem each (h : Course c p i ts final) (k : Nat) (hk : k < ts.length) :
    ts[k].after.iter = p.iter + (k + 1) ∧ Run.raised c ts[k].interrupt = false := by
  induction h generalizing k with
  | interrupted hi => simp at hk
  | ruled hi ht hstop =>
    obtain rfl : k = 0 := by simpa using hk
    exact ⟨ht.iter, by rw [List.getElem_singleton, ht.interrupt, hi]⟩
  | more hi ht hgo rest ih =>
    cases k with
    | zero => exact ⟨ht.iter, by rw [List.getElem_cons_zero, ht.interrupt, hi]⟩
    | succ k =>
      rw [List.getElem_cons_succ]
      obtain ⟨hiter, hraised⟩ := ih k (by simpa using hk)
      exact ⟨by rw [hiter, ht.iter_next]; omega, hraised⟩

/-- After every turn but the last one no rule told the run to stop. -/
theorem goes_on (h : Course c p i ts final) (k : Nat) (hk : k + 1 < ts.length) :
    ts[k].own = .notTerminated ∧ (p.iter + (k + 1) : Int) < p.maxIters ∧
      Scalar.le ts[k].after.cost c.targetCost = false := by
  induction h generalizing k with
  | interrupted hi => simp at hk
  | ruled hi ht hstop => simp at hk
  | more hi ht hgo rest ih =>
    -- The first turn is the one at hand, the others belong to the rest of the course.
    cases k with
    | zero =>
      obtain ⟨hown, hcap, hcost⟩ := ht.no_rule hgo
      exact ⟨hown, by simpa using hcap, hcost⟩
    | succ k =>
      rw [List.getElem_cons_succ]
      obtain ⟨hown, hcap, hcost⟩ := ih k (by simpa using hk)
      refine ⟨hown, ?_, hcost⟩
      rw [ht.iter_next, ht.maxIters_next] at hcap
      push_cast at hcap ⊢
      omega

/-- A course without turns is one that the user ended before it began. -/
theorem of_nil (h : Course c p i [] final) :
    final = { p with reason := .keyboardInterrupt } ∧ Run.raised c i = true := by
  cases h with
  | interrupted hi => exact ⟨rfl, hi⟩

/-- At the end stands the last turn: either a rule told the run to stop after it, or none did and the
    user had asked to. -/
theorem last (h : Course c p i ts final) {t : Turn α} (ht : ts.getLast? = some t) :
    final.cost = t.after.cost ∧ t.after.maxIters = p.maxIters ∧ final.iter = t.after.iter ∧
      if (Run.ruling c t.after t.own).isTerminal then final.reason = Run.ruling c t.after t.own
      else final.reason = .keyboardInterrupt ∧ Run.raised c t.left = true := by
  induction h with
  | interrupted hi => simp at ht
  | @ruled p p' i i' u hi hu hstop =>
    obtain rfl : u = t := by simpa using ht
    have hreason := hu.reason_next
    refine ⟨by rw [hu.after], hu.maxIters, by rw [hu.after], ?_⟩
    rw [← hreason, if_pos hstop]
  | @more p p' final i i' u us hi hu hgo rest ih =>
    cases us with
    | nil =>
      -- The run went on, but the user had asked to stop before the next turn.
      obtain rfl : u = t := by simpa using ht
      obtain ⟨rfl, hraised⟩ := rest.of_nil
      have hnone : Run.ruling c u.after u.own = .notTerminated := by rw [← hu.reason_next, hgo]
      refine ⟨by rw [hu.after], hu.maxIters, by rw [hu.after], ?_⟩
      rw [hnone, if_neg (by simp [Reason.isTerminal]), hu.left]
      exact ⟨rfl, hraised⟩
    | cons v vs =>
      obtain ⟨hcost, hcap, hiter, hreason⟩ := ih (by simpa using ht)
      exact ⟨hcost, by rw [hcap, hu.maxIters_next], hiter, hreason⟩

end Course

namespace Run

variable {σ ω η α : Type} [Scalar α]

/-- **The loop makes a course of turns.**  Enough fuel is what is left up to the cap, because the cap
    ends the run before the fuel does. -/
theorem iterations_course (P : Plan σ ω η α) (fuel : Nat) {r r' : Run σ ω η α}
    (calls : List (Call α)) (hr : r.progress.reason = .notTerminated)
    (hcap : (r.progress.iter : Int) < r.progress.maxIters)
    (hfuel : r.progress.maxIters ≤ r.progress.iter + fuel)
    (h : (iterations P fuel).exec r = (.ok (), r')) :
    ∃ turns : List (Turn α),
      Course P.config r.progress r.session.host.interrupt turns r'.progress ∧
      (iterations P.overheard fuel).exec (r.overheard calls) =
        (.ok (), r'.overheard (calls ++ turns.flatMap Turn.calls)) := by
  -- Each iteration is a turn; the fuel is enough, because the cap ends the course before it is used up.
  induction fuel generalizing r calls with
  | zero => omega
  | succ fuel ih =>
    rw [exec_iterations_of_running P fuel hr] at h
    have hover : (iterations P.overheard (fuel + 1)).exec (r.overheard calls) =
        if raised P.config r.session.host.interrupt then
          (.ok (), overheard
            { r with progress := { r.progress with reason := .keyboardInterrupt } } calls)
        else (iterate P.overheard >>= fun _ => iterations P.overheard fuel).exec
          (r.overheard calls) :=
      exec_iterations_of_running P.overheard fuel hr
    by_cases hi : raised P.config r.session.host.interrupt
    · rw [if_pos hi] at h
      cases h
      refine ⟨[], .interrupted hi, ?_⟩
      rw [hover, if_pos hi, List.flatMap_nil, List.append_nil]
    · rw [if_neg hi] at h
      obtain ⟨_, next, hit, hrest⟩ := Action.exec_bind_eq_ok_iff.1 h
      obtain ⟨t, ht, hturn⟩ := overheard_iterate calls hr hit
      rw [Bool.not_eq_true] at hi
      -- A run that has stopped after the turn does not need what is left of the fuel.
      by_cases hstop : next.progress.reason.isTerminal
      · rw [exec_iterations_of_stopped P fuel hstop] at hrest
        cases hrest
        refine ⟨[t], .ruled hi ht hstop, ?_⟩
        rw [hover, if_neg (by simpa using hi)]
        refine Action.exec_bind_eq_ok_iff.2 ⟨(), _, hturn, ?_⟩
        rw [List.flatMap_singleton]
        exact exec_iterations_of_stopped P.overheard fuel hstop
      -- One that has not goes on from there, and its course is the rest of this one.
      · rw [Bool.not_eq_true, Reason.isTerminal_eq_false_iff] at hstop
        have hnext := (ht.no_rule hstop).2.1
        obtain ⟨turns, hcourse, hrun⟩ := ih (calls ++ t.calls) hstop
          (by rw [ht.iter_next, ht.maxIters_next]; exact_mod_cast hnext)
          (by rw [ht.iter_next, ht.maxIters_next]; push_cast at hfuel ⊢; omega) hrest
        refine ⟨t :: turns, .more hi ht hstop hcourse, ?_⟩
        rw [hover, if_neg (by simpa using hi)]
        refine Action.exec_bind_eq_ok_iff.2 ⟨(), _, hturn, ?_⟩
        rw [List.flatMap_cons, ← List.append_assoc]
        exact hrun

end Run

/-! ### The rules of a whole run -/

/-- How a run ends, told from its last turn if it has one. -/
def EndsByRule {α : Type} [Scalar α] (c : RunConfig α) (ready : Interrupt)
    (turns : List (Turn α)) (final : Progress α) : Prop :=
  match turns.getLast? with
  | none =>
    if c.maxIters = 0 then final.reason = .maxIters
    else final.reason = .keyboardInterrupt ∧ Run.raised c ready = true
  | some t =>
    final.cost = t.after.cost ∧
      if t.own.isTerminal then final.reason = t.own
      else if turns.length = c.maxIters then final.reason = .maxIters
      else if Scalar.le t.after.cost c.targetCost then final.reason = .targetCost
      else final.reason = .keyboardInterrupt ∧ Run.raised c t.left = true

/-- **The stopping rules of a run** that was ready with the given interrupt, made the given turns and
    ended with the given progress. -/
structure Stops {α : Type} [Scalar α] (c : RunConfig α) (ready : Interrupt)
    (turns : List (Turn α)) (final : Progress α) : Prop where
  /-- Every turn is an iteration. -/
  iter : final.iter = turns.length
  /-- There are no more of them than the cap allows. -/
  cap : turns.length ≤ c.maxIters
  /-- The turns are numbered from one on. -/
  numbered : ∀ k (hk : k < turns.length), turns[k].after.iter = k + 1
  /-- No turn began after the user had asked to stop. -/
  unasked : ∀ k (hk : k < turns.length), Run.raised c turns[k].interrupt = false
  /-- After every turn but the last one no rule told the run to stop. -/
  unruled : ∀ k (hk : k + 1 < turns.length), turns[k].own = .notTerminated ∧
    k + 1 < c.maxIters ∧ Scalar.le turns[k].after.cost c.targetCost = false
  /-- The last turn and the user decide about the reason. -/
  ends : EndsByRule c ready turns final

/-- A course from the start of a run follows the stopping rules. -/
theorem Course.stops {α : Type} [Scalar α] {c : RunConfig α} {p final : Progress α}
    {ready : Interrupt} {turns : List (Turn α)} (h : Course c p ready turns final)
    (hiter : p.iter = 0) (hmax : p.maxIters = c.maxIters) (hcap : 0 < c.maxIters) :
    Stops c ready turns final where
  iter := by rw [h.iter_eq, hiter, Nat.zero_add]
  cap := by
    have hle := h.length_le (by omega)
    omega
  numbered k hk := by rw [(h.each k hk).1, hiter, Nat.zero_add]
  unasked k hk := (h.each k hk).2
  unruled k hk := by
    obtain ⟨hown, hlt, hcost⟩ := h.goes_on k hk
    exact ⟨hown, by omega, hcost⟩
  ends := by
    unfold EndsByRule
    cases ht : turns.getLast? with
    | none =>
      rw [List.getLast?_eq_none_iff] at ht
      subst ht
      obtain ⟨rfl, hraised⟩ := h.of_nil
      dsimp only
      rw [if_neg (by omega)]
      exact ⟨rfl, hraised⟩
    | some t =>
      obtain ⟨hcost, htmax, htiter, hreason⟩ := h.last ht
      refine ⟨hcost, ?_⟩
      have hlength : turns.length = t.after.iter := by rw [← htiter, h.iter_eq, hiter, Nat.zero_add]
      have hle := h.length_le (by omega)
      -- The rules after the last turn, by the number of turns in place of the count of iterations.
      have hrule : Run.ruling c t.after t.own = if t.own.isTerminal then t.own
          else if turns.length = c.maxIters then .maxIters
          else if Scalar.le t.after.cost c.targetCost then .targetCost else .notTerminated := by
        unfold Run.ruling
        have hN : t.after.maxIters ≤ (t.after.iter : Int) ↔ turns.length = c.maxIters := by omega
        simp only [hN]
      rw [hrule] at hreason
      by_cases hown : t.own.isTerminal
      · rw [if_pos hown] at hreason ⊢
        rwa [if_pos hown] at hreason
      rw [if_neg hown] at hreason ⊢
      by_cases hN : turns.length = c.maxIters
      · rw [if_pos hN] at hreason ⊢
        exact hreason
      rw [if_neg hN] at hreason ⊢
      by_cases htarget : Scalar.le t.after.cost c.targetCost
      · rw [if_pos htarget] at hreason ⊢
        exact hreason
      rw [if_neg htarget] at hreason ⊢
      exact hreason

/-- A run with cap zero makes no turn. -/
theorem Stops.of_cap_zero {α : Type} [Scalar α] {c : RunConfig α} {final : Progress α}
    {ready : Interrupt} (hcap : c.maxIters = 0) (hiter : final.iter = 0)
    (hreason : final.reason = .maxIters) : Stops c ready [] final where
  iter := hiter
  cap := Nat.zero_le _
  numbered k hk := absurd hk (Nat.not_lt_zero k)
  unasked k hk := absurd hk (Nat.not_lt_zero k)
  unruled k hk := absurd hk (Nat.not_lt_zero (k + 1))
  ends := by
    show if c.maxIters = 0 then final.reason = .maxIters else _
    rw [if_pos hcap]
    exact hreason

namespace Run

variable {σ ω η α : Type} [Scalar α]

/-- The start of a run does not iterate. -/
theorem opening_progress {P : Plan σ ω η α} {r r' : Run σ ω η α}
    (h : (opening P).exec r = (.ok (), r')) :
    r'.progress.iter = r.progress.iter ∧ r'.progress.maxIters = r.progress.maxIters ∧
      r'.progress.reason = r.progress.reason := by
  rw [exec_opening] at h
  rcases hinit : (P.solver.init P.setting r.progress).exec ⟨r.solver, r.session⟩ with
    ⟨_ | report?, w⟩
  · simp [hinit] at h
  · simp only [hinit, exec_onWatches] at h
    obtain ⟨-, rfl⟩ := Prod.mk.inj h
    cases report? <;> simp [watched, opened]

/-- **The body of a run** that has not iterated yet follows the stopping rules. -/
theorem body_stops (P : Plan σ ω η α) {r r' : Run σ ω η α} (hiter : r.progress.iter = 0)
    (hmax : r.progress.maxIters = P.config.maxIters) (hr : r.progress.reason = .notTerminated)
    (h : (body P).exec r = (.ok (), r')) :
    ∃ ready turns, (body P.overheard).exec (r.overheard []) =
        (.ok (), r'.overheard (.init ready :: turns.flatMap Turn.calls)) ∧
      Stops P.config ready turns r'.progress := by
  rw [body_eq] at h
  obtain ⟨_, t, hopen, hrest⟩ := Action.exec_bind_eq_ok_iff.1 h
  have hover := overheard_opening [] hopen
  obtain ⟨hiter', hmax', hreason'⟩ := opening_progress hopen
  simp only [Action.exec_bind, Action.exec_get] at hrest
  have hbody : (body P.overheard).exec (r.overheard []) =
      (if t.progress.maxIters = 0 then stop .maxIters
        else iterations P.overheard (iterationsLeft t.progress)).exec
          (t.overheard [.init t.session.host.interrupt]) := by
    rw [body_eq]
    simp only [Action.exec_bind, hover]
    rfl
  -- With a cap of zero there is not a single turn.
  by_cases hcap : P.config.maxIters = 0
  · have hzero : t.progress.maxIters = 0 := by omega
    rw [if_pos hzero, exec_stop (by rw [hreason', hr])] at hrest
    cases hrest
    refine ⟨t.session.host.interrupt, [], ?_, .of_cap_zero hcap (by rw [← hiter, ← hiter']) rfl⟩
    rw [hbody, if_pos hzero]
    exact exec_stop (r := t.overheard _) (by rw [← hr, ← hreason']; rfl) .maxIters
  · have hpos : ¬t.progress.maxIters = 0 := by omega
    rw [if_neg hpos] at hrest
    -- The fuel that the program takes is what the cap leaves.
    have hfuel : t.progress.maxIters ≤ t.progress.iter + iterationsLeft t.progress := by
      unfold iterationsLeft
      omega
    obtain ⟨turns, hcourse, hrun⟩ := iterations_course P _ [.init t.session.host.interrupt]
      (by rw [hreason', hr]) (by omega) hfuel hrest
    refine ⟨t.session.host.interrupt, turns, ?_,
      hcourse.stops (by omega) (by omega) (by omega)⟩
    rw [hbody, if_neg hpos]
    exact hrun

/-- A run before it starts, with what is known at the start. -/
def fresh (P : Plan σ ω η α) (x : Tensor α) (cost? : Option α)
    (gradient? hessian? : Option (Tensor α)) (solver : σ) (session : Session ω)
    (observers : List (Watch η)) : Run σ ω η α :=
  ⟨seeded x P.config.maxIters cost? gradient? hessian?, solver, session, observers⟩

/-- A progress that is seeded has made no iterations. -/
theorem seeded_unstarted (x : Tensor α) (maxIters : Int) (cost? : Option α)
    (gradient? hessian? : Option (Tensor α)) :
    (seeded x maxIters cost? gradient? hessian?).iter = 0 ∧
      (seeded x maxIters cost? gradient? hessian?).maxIters = maxIters ∧
      (seeded x maxIters cost? gradient? hessian?).reason = .notTerminated := by
  cases cost? <;> cases gradient? <;> cases hessian? <;> exact ⟨rfl, rfl, rfl⟩

omit [Scalar α] in
/-- A call begins with the progress that it finds. -/
theorem begun_progress (P : Plan σ ω η α) (r : Run σ ω η α) : (begun P r).progress = r.progress := by
  unfold begun
  by_cases hg : P.config.guarded <;> simp only [hg] <;> rfl

/-- It ends with the one that its body leaves. -/
theorem finished_progress (P : Plan σ ω η α) (r t : Run σ ω η α) :
    (finished P r t).progress = t.progress := by
  unfold finished released
  by_cases hg : P.config.guarded <;> simp only [hg] <;> rfl

omit [Scalar α] in
/-- A call that is overheard begins alike. -/
theorem overheard_begun (P : Plan σ ω η α) (r : Run σ ω η α) (calls : List (Call α)) :
    begun P.overheard (r.overheard calls) = (begun P r).overheard calls := by
  have hg : P.overheard.config = P.config := rfl
  unfold begun
  rw [hg]
  by_cases hg : P.config.guarded <;> simp only [hg] <;> rfl

/-- It ends alike. -/
theorem overheard_finished (P : Plan σ ω η α) (r t : Run σ ω η α) (calls calls' : List (Call α)) :
    finished P.overheard (r.overheard calls) (t.overheard calls') =
      (finished P r t).overheard calls' := by
  have hg : P.overheard.config = P.config := rfl
  unfold finished released
  rw [hg]
  by_cases hg : P.config.guarded <;> simp only [hg] <;> rfl

/-- **A run stops exactly where its rules say.**  If a fresh run returns, its calls to the solver are
    an initialisation and as many turns as it has iterations, and these follow the stopping rules. -/
theorem execute_stops (P : Plan σ ω η α) (x : Tensor α) (cost? : Option α)
    (gradient? hessian? : Option (Tensor α)) (solver : σ) (session : Session ω)
    (observers : List (Watch η)) (r' : Run σ ω η α)
    (h : (execute P).exec (fresh P x cost? gradient? hessian? solver session observers) =
      (.ok (), r')) :
    ∃ ready turns,
      (execute P.overheard).exec
          ((fresh P x cost? gradient? hessian? solver session observers).overheard []) =
        (.ok (), r'.overheard (.init ready :: turns.flatMap Turn.calls)) ∧
      Stops P.config ready turns r'.progress := by
  obtain ⟨hiter, hmax, hreason⟩ :=
    seeded_unstarted x (P.config.maxIters : Int) cost? gradient? hessian?
  generalize hr : fresh P x cost? gradient? hessian? solver session observers = r at h ⊢
  obtain ⟨t, hbody, rfl⟩ := (execute_ok_iff P).1 h
  have hbegun : (begun P r).progress = seeded x P.config.maxIters cost? gradient? hessian? := by
    rw [begun_progress, ← hr]
    rfl
  -- The beginning of the run leaves its progress alone.
  obtain ⟨ready, turns, hover, hstops⟩ := body_stops P (by rw [hbegun, hiter])
    (by rw [hbegun, hmax]) (by rw [hbegun, hreason]) hbody
  refine ⟨ready, turns, ?_, by rw [finished_progress]; exact hstops⟩
  rw [← overheard_begun] at hover
  rw [execute_ok_iff]
  exact ⟨_, hover, (overheard_finished P r t [] _).symm⟩

/-- Halves the point on the sphere function until the cost is at most a tenth. -/
def halving : Plan (Landweber (Exact ℚ)) Unit Empty (Exact ℚ) :=
  ⟨Landweber.solver, noObserver, ⟨sphereOperator, true⟩, ⟨5, 0.1, true⟩⟩

/-- From one on. -/
def halvingStart : Run (Landweber (Exact ℚ)) Unit Empty (Exact ℚ) :=
  fresh halving (.vector .array [1.0]) none none none ⟨0.25, true⟩ (.start ()) []

/-- Halving a number stops at its target. -/
theorem execute_stops_halving : ((execute halving).exec halvingStart).1.isOk = true ∧
    ∃ ready turns,
      (execute halving.overheard).exec (halvingStart.overheard []) =
        (.ok (), ((execute halving).exec halvingStart).2.overheard
          (.init ready :: turns.flatMap Turn.calls)) ∧
      Stops halving.config ready turns ((execute halving).exec halvingStart).2.progress := by
  have h : ((execute halving).exec halvingStart).1.isOk = true := by decide +kernel
  exact ⟨h, execute_stops halving (.vector .array [1.0]) none none none ⟨0.25, true⟩ (.start ()) []
    _ (Action.exec_eq_of_isOk h)⟩

end Run

end Minimization
