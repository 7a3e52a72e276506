import Minimization.Proofs.Contract.Observers
import Minimization.Proofs.LineSearch.Bounded
import Minimization.Proofs.Run.Checked
import Minimization.Proofs.Scalar.Signed

namespace Minimization

/-!
# Searches that check themselves

In debug mode the run of a search fails after an iteration that shows a cost that is not a number.
Backtracking shows every trial.  A search for the strong Wolfe conditions shows the lower end of its
bracket, where the cost is a number exactly if the one at the start is.

* `LineSearch.run_provided` — **a search in debug mode** succeeds exactly if it does without, and shows
  nothing but numbers.
* `LineSearch.Marked` — what a search for the strong Wolfe conditions shows, all along.
* `LineSearch.numbered_of_strong` — such a search shows nothing but numbers if it finds one.
-/

variable {ω α : Type} [Scalar α] {A : Setting ω α} {x way : Tensor α} {cost? : Option α}
  {gradient? : Option (Tensor α)} {m : LineSearch α} {t : Session ω}

/-! ### Either search -/

namespace LineSearch

omit [Scalar α] in
/-- A direction that is taken is the only thing that changes. -/
theorem eq_aimed {y : LineSearch α} (h : (m.setDirection (some way) : Except (Failure α) _) = .ok y) :
    y = m.aimed way := by
  cases m with
  | backtracking s => exact (Except.ok.inj h).symm
  | strongWolfe s => exact (Except.ok.inj h).symm
  | unsuited text => cases h

/-- A search that succeeds ends as its run does. -/
theorem exists_of_run_ok {found : Progress α} {v : Workspace (LineSearch α) ω}
    (h : (run A x (some way) cost? gradient?).exec ⟨m, t⟩ = (.ok found, v)) :
    ∃ q, (Run.execute (Run.nestedPlan solver A)).exec (launched A m x way cost? gradient? t) =
      (.ok (), q) ∧ q.progress = found := by
  rw [exec_run] at h
  cases hset : (m.setDirection (some way) : Except (Failure α) _) with
  | error e =>
    rw [hset] at h
    cases h
  | ok y =>
    obtain rfl := eq_aimed hset
    rw [hset] at h
    obtain ⟨q, hq, hfound, -⟩ := Run.nested_ok_iff.1 h
    exact ⟨q, hq, hfound⟩

/-- **A search in debug mode** succeeds exactly if it does without, and shows nothing but numbers. -/
theorem run_provided (hA : A.debug = false) (x way : Tensor α) (cost? : Option α)
    (gradient? : Option (Tensor α)) (m : LineSearch α) (t : Session ω) :
    (run A x (some way) cost? gradient?).Provided (run A.checked x (some way) cost? gradient?) ⟨m, t⟩
      (Run.Numbered (Run.nestedPlan solver A) (launched A m x way cost? gradient? t)) := by
  intro found v
  rw [exec_run, exec_run]
  cases hset : (m.setDirection (some way) : Except (Failure α) _) with
  | error e => simp
  | ok y =>
    obtain rfl := eq_aimed hset
    exact Run.nested_provided hA (fun n c => LineSearch.follows (ledger_lockstep n c A))
      (fun _ => rfl) (fun _ => rfl) _ _ found v

end LineSearch

/-! ### The strong Wolfe conditions -/

/-- The search has started at a cost that is no number or is one, as `undefined` tells, and shows such a
    cost as well: the one at the lower end of its bracket. -/
structure StrongWolfe.Marked (undefined : Bool) (p : Progress α) (s : StrongWolfe α) : Prop where
  start : ∃ start, s.line.start = some start ∧ Scalar.isNaN start.cost = undefined
  bracket : ∃ k, s.bracket = some k ∧ p.cost = k.lowCost ∧ Scalar.isNaN k.lowCost = undefined

namespace LineSearch

/-- The search is one for the strong Wolfe conditions, with this mark. -/
def Marked (undefined : Bool) (p : Progress α) (m : LineSearch α) : Prop :=
  ∃ s, m = .strongWolfe s ∧ s.Marked undefined p

variable {undefined : Bool} {p : Progress α}

/-- What is shown has the mark. -/
theorem Marked.isNaN_cost (h : m.Marked undefined p) : Scalar.isNaN p.cost = undefined := by
  obtain ⟨s, rfl, -, k, -, hlow, hmark⟩ := h
  rw [hlow]
  exact hmark

/-- Only the cost matters of the progress. -/
theorem Marked.of_cost (h : m.Marked undefined p) {q : Progress α} (hcost : q.cost = p.cost) :
    m.Marked undefined q := by
  obtain ⟨s, rfl, hstart, k, hk, hlow, hmark⟩ := h
  exact ⟨s, rfl, hstart, k, hk, hcost.trans hlow, hmark⟩

/-- The start of a search makes a mark. -/
theorem ends_init_marked (s : StrongWolfe α) (hway : s.line.direction = some way) :
    (solver.init A p).Ends ⟨.strongWolfe s, t⟩
      (fun report? w => ∃ undefined, w.solver.Marked undefined (Run.started p report?))
      fun _ => True := by
  refine (ends_init_begun (.anyhow A p way) rfl hway fun _ _ _ _ => trivial).mono ?_
  rintro report? w ⟨c, v, l, slope, length, hopens, rfl, -, -, -, hw⟩
  refine ⟨Scalar.isNaN c, _, hw, ⟨⟨p.param, c, v, slope⟩, by rw [hopens.line], rfl⟩, _, rfl, ?_, rfl⟩
  rw [Run.started, ProgressOn.cost_update]
  rfl

variable [Scalar.Ordered α] [Scalar.Absorbing α]

/-- A trial keeps the mark: what passes the test of sufficient decrease is a number, and so is what it
    is measured by. -/
theorem Marked.step (h : m.Marked undefined p) : (solver.step A p).Ends ⟨m, t⟩
    (fun report w => w.solver.Marked undefined (p.update report).1.increment) fun _ => True := by
  obtain ⟨s, rfl, ⟨start, hstart, hmark⟩, k, hk, hlow, hlowMark⟩ := h
  have hshown {k' : Bracket α} {report : Report α} (hreport : report.cost = some k'.lowCost) :
      (p.update report).1.increment.cost = k'.lowCost := by
    rw [ProgressOn.cost_increment, ProgressOn.cost_update, hreport]
    rfl
  show (dispatch _ _).Ends _ _ _
  rw [ends_dispatch_strongWolfe]
  by_cases hdone : s.line.done = none
  · refine (StrongWolfe.ends_trial_tries (.anyhow A s.line) hdone hk).mono ?_
    rintro report w ⟨start', c, k', done, n, hstart', -, htries, hw, -, hreport⟩
    obtain rfl := Option.some.inj (hstart.symm.trans hstart')
    refine ⟨_, congrArg _ hw, ⟨start, hstart, hmark⟩, k', rfl, hshown hreport, ?_⟩
    -- A trial that is too long leaves the lower end; one that is short enough puts it at a cost below a
    -- number that has the mark.
    cases htries with
    | long => exact hlowMark
    | short hlow =>
      obtain ⟨hc, hfrom⟩ := Scalar.Absorbing.isNaN_of_le_add hlow
      rw [← hmark, hfrom]
      exact hc
  · refine (StrongWolfe.ends_trial_over (.anyhow A s.line) hdone hk).mono ?_
    rintro report w ⟨hreport, rfl⟩
    exact ⟨s, rfl, ⟨start, hstart, hmark⟩, k, hk, hshown hreport, hlowMark⟩

/-- The contract of a search with a mark. -/
theorem marked_contract (A : Setting ω α) (undefined : Bool) :
    Run.Contract (Run.nestedPlan LineSearch.solver A) (Marked undefined) (Marked undefined)
      fun _ => True := by
  refine .anyhow (fun reason h => h.of_cost rfl) (fun t h _ => h.step) fun t h => ?_
  obtain ⟨s, rfl, -⟩ := id h
  refine (ends_terminate_line rfl).mono ?_
  rintro own w ⟨-, rfl⟩
  exact h.of_cost rfl

/-- **A search for the strong Wolfe conditions** that finds a number has shown nothing else. -/
theorem numbered_of_strong (hm : m.isStrong = true) {found : Progress α}
    {v : Workspace (LineSearch α) ω}
    (h : (run A x (some way) cost? gradient?).exec ⟨m, t⟩ = (.ok found, v))
    (hfound : Scalar.isNaN found.cost = false) :
    Run.Numbered (Run.nestedPlan solver A) (launched A m x way cost? gradient? t) := by
  obtain ⟨q, hq, rfl⟩ := exists_of_run_ok h
  generalize hr : launched A m x way cost? gradient? t = r at hq
  obtain ⟨s, hs, hway⟩ : ∃ s, r.solver = .strongWolfe s ∧ s.line.direction = some way := by
    cases m with
    | backtracking s => cases hm
    | strongWolfe s => exact ⟨_, congrArg Run.solver hr.symm, rfl⟩
    | unsuited text => cases hm
  obtain ⟨n, reason, hn, hfinal, -⟩ := Run.goes_of_ok hq
  -- The start makes a mark, which all iterations keep.
  have hopens : (Run.opening (Run.nestedPlan solver A)).Ends (Run.begun (Run.nestedPlan solver A) r)
      (fun _ t => ∃ undefined, t.solver.Marked undefined t.progress) fun _ => True := by
    refine Run.ends_opening (P := Run.nestedPlan solver A)
      (Q := fun p m _ => ∃ undefined, m.Marked undefined p) ?_
      fun name notes ws => Run.noObserver_introduced name notes ws _
    rw [(Run.begun_course _ r).2.1, hs]
    exact ends_init_marked s hway
  obtain ⟨undefined, hstart⟩ := hopens.of_ok hn.opening_eq
  have hkept (k : ℕ) (hk : Run.Goes (Run.nestedPlan solver A) r k) :
      (Run.stateAfter (Run.nestedPlan solver A) r k).solver.Marked undefined
        (Run.stateAfter (Run.nestedPlan solver A) r k).progress := by
    induction k with
    | zero => exact hstart
    | succ k ih =>
      have hlast := Nat.lt_succ_self k
      exact ((marked_contract A undefined).iterate (hk.running k hlast)
        (ih (hk.mono (Nat.le_succ k)))).of_ok (hk.iterate_eq hlast)
  -- The mark is that of the end.
  obtain rfl : undefined = false := by
    rw [hfinal] at hfound
    exact (hkept n hn).isNaN_cost.symm.trans hfound
  exact fun k hk => (hkept (k + 1) hk.2).isNaN_cost

end LineSearch

end Minimization
