import Minimization.Proofs.Counts.Spending
import Minimization.Proofs.Coupling.Alone
import Minimization.Proofs.Method.Trials

namespace Minimization

/-!
# What steepest descent evaluates

An iteration evaluates cost and gradient at its point and hands both to its search.  An infinite cost
is handed over as well, but the search takes it for one that is not known, and asks for it once more.

* `LineSearch.Spent` — what so many trials evaluate.
* `LineSearch.Ready.spent`, `LineSearch.ends_run_spent` — a search, and the run that it is made in.
* `SteepestDescent.unpriced` — the cost at the point of an iteration is infinite.
* `SteepestDescent.spends` — what an iteration evaluates.
* `Run.steepestDescent_counts` — every iteration of every run.
-/

variable {ω η α : Type} [Scalar α] {A : Setting ω α}

/-! ### The trials of a search -/

namespace LineSearch

/-- So many trials evaluate one cost each, and at most one gradient; by backtracking none. -/
def Spent (strong : Bool) (trials : ℕ) (d : Counts) : Prop :=
  ∃ k ≤ trials, (strong = false → k = 0) ∧ d = ⟨trials, k, 0, 0⟩

variable {C : α → Prop} {E : Failure α → Prop} {strong still : Bool} {cap n : ℕ}
  {r : Run (LineSearch α) ω Empty α}

/-- No trial, no evaluation. -/
theorem Spent.none (strong : Bool) : Spent strong 0 .zero := ⟨0, le_rfl, fun _ => rfl, rfl⟩

/-- One more trial. -/
theorem Spent.trial {d : Counts} (h : Spent strong n d) {k : ℕ} (hk : k ≤ 1)
    (hweak : strong = false → k = 0) : Spent strong (n + 1) (d + ⟨1, k, 0, 0⟩) := by
  obtain ⟨j, hj, hjweak, rfl⟩ := h
  refine ⟨j + k, by omega, fun hstrong => ?_, rfl⟩
  rw [hjweak hstrong, hweak hstrong]

/-- **So many iterations** along a direction that has a length. -/
theorem Trying.spent (hquiet : A.debug = false ∨ ∀ e, E e)
    (hn : Run.Goes (Run.nestedPlan solver A) r n)
    (h : Trying A C E strong cap (Run.stateAfter (Run.nestedPlan solver A) r 0).progress
      (Run.stateAfter (Run.nestedPlan solver A) r 0).solver) :
    ∃ d, Spent strong n d ∧ (Run.stateAfter (Run.nestedPlan solver A) r n).session.counts =
      (Run.stateAfter (Run.nestedPlan solver A) r 0).session.counts + d := by
  induction n with
  | zero => exact ⟨.zero, .none strong, (Counts.add_zero _).symm⟩
  | succ n ih =>
    have hlast := Nat.lt_succ_self n
    obtain ⟨d, hd, hcounts⟩ := ih (hn.mono hlast.le)
    -- A search that has ended would make no further iteration.
    obtain hgo | ⟨-, hend⟩ := h.goes hquiet (hn.mono hlast.le)
    · obtain ⟨⟨k, hk, hweak, hnext⟩, -⟩ := (hgo.ends_iterate hquiet).of_ok (hn.iterate_eq hlast)
      exact ⟨_, hd.trial hk hweak, by rw [hnext, hcounts, Counts.add_assoc]⟩
    · exact absurd (hn.running n hlast) hend.stopped

/-- **So many iterations** of a search that has started, told by the trials that it counts. -/
theorem Ready.spent (hquiet : A.debug = false ∨ ∀ e, E e)
    (hn : Run.Goes (Run.nestedPlan solver A) r n) (hiter : r.progress.iter = 0)
    (h : Ready A C E strong cap still (Run.stateAfter (Run.nestedPlan solver A) r 0).progress
      (Run.stateAfter (Run.nestedPlan solver A) r 0).solver) :
    ∃ d, Spent strong (Run.stateAfter (Run.nestedPlan solver A) r n).solver.trials d ∧
      (Run.stateAfter (Run.nestedPlan solver A) r n).session.counts =
        (Run.stateAfter (Run.nestedPlan solver A) r 0).session.counts + d := by
  have hcount : (Run.stateAfter (Run.nestedPlan solver A) r n).progress.iter = n := by
    rw [hn.iter_eq, hiter, Nat.zero_add]
  unfold Ready at h
  split at h
  · -- Along no direction nothing is evaluated, and no trial is counted.
    obtain ⟨l, hl, -, -, -, hnone⟩ := h.exists_line
    have htrials := (trials_eq hl).trans hnone
    obtain rfl | ⟨rfl, hcounts, -, hsame⟩ := h.goes hquiet hn
    · rw [htrials]
      exact ⟨.zero, .none strong, (Counts.add_zero _).symm⟩
    · rw [hsame, hcounts, htrials]
      exact ⟨.zero, .none strong, (Counts.add_zero _).symm⟩
  · have htrials : (Run.stateAfter (Run.nestedPlan solver A) r n).solver.trials = n := by
      obtain hgo | ⟨-, hend⟩ := h.goes hquiet hn
      · obtain ⟨l, hl, -, -, -, -, hmade⟩ := hgo.exists_line
        rw [trials_eq hl, hmade, hcount]
      · obtain ⟨l, hl, -, -, hmade⟩ := hend.exists_line
        rw [trials_eq hl, hmade, hcount]
    rw [htrials]
    exact h.spent hquiet hn

/-- **A search from a known cost and gradient** evaluates what its trials do, and the cost at its start
    if the known one is infinite. -/
theorem ends_run_spent {m : LineSearch α} (hcap : 1 ≤ cap) (hm : m.Capped cap)
    (x way gradient : Tensor α) (cost : α) (t : Session ω) :
    (run A x (some way) (some cost) (some gradient)).Ends ⟨m, t⟩
      (fun _ w => ∃ d, Spent m.isStrong w.solver.trials d ∧
        w.session.counts = t.counts + (⟨(Scalar.isInfinite cost).toNat, 0, 0, 0⟩ + d))
      fun _ => True := by
  obtain ⟨l, hl, hmax, -⟩ := hm
  have hsome : m.line?.isSome = true := by rw [hl]; rfl
  obtain ⟨-, -, -, hiter, -⟩ := launched_progress A m x way (some cost) (some gradient) t
  refine .intro (fun found w hok => ?_) fun _ _ _ => trivial
  obtain ⟨n, reason, hn, -, hsolver, hfinal, -⟩ := goes_of_run hsome hok
  -- The nested run starts with an evaluation only if the given cost is infinite: then it is taken for
  -- absent.
  have hopen : (Run.opening (Run.nestedPlan solver A)).Ends (Run.begun (Run.nestedPlan solver A)
      (launched A m x way (some cost) (some gradient) t)) _ fun _ => True :=
    ends_launched_ready (C := fun _ => True) (E := fun _ => True) hl (by rw [hmax]; exact hcap)
      (.anyhow A _ way) (fun _ _ _ _ => trivial) (fun l' _ _ _ _ => .anyhow A l') fun _ => trivial
  obtain ⟨hstart, length, -, hready⟩ := hopen.of_ok hn.opening_eq
  -- Each iteration of the search spends what its trial does.
  obtain ⟨d, hd, hcounts⟩ := hready.spent (.inr fun _ => trivial) hn hiter
  refine ⟨d, by rw [hsolver]; exact hd, ?_⟩
  have hbegin : (Run.stateAfter (Run.nestedPlan solver A)
      (launched A m x way (some cost) (some gradient) t) 0).session.counts =
        ⟨(Scalar.isInfinite cost).toNat, 0, 0, 0⟩ := hstart.trans openingCounts_known
  rw [hfinal, hcounts, hbegin]

end LineSearch

/-! ### Steepest descent -/

/-- Two searches with the same settings are of one kind. -/
theorem LineSearch.isStrong_of_blank {α : Type} {m m' : LineSearch α} (h : m'.blank = m.blank) :
    m'.isStrong = m.isStrong := by
  have hkind (m : LineSearch α) : m.blank.isStrong = m.isStrong := by cases m <;> rfl
  rw [← hkind m', h, hkind]

namespace SteepestDescent

/-- The cost that an iteration from here evaluates first is infinite. -/
def unpriced (A : Setting ω α) (p : Progress α) (t : Session ω) : Bool :=
  match (A.operator.cost p.param).exec t.host with
  | (.ok c, _) => Scalar.isInfinite c
  | (.error _, _) => false

variable {cap : ℕ} {strong : Bool}

/-- **A step** evaluates cost and gradient at its point, then what its search evaluates: the cost at the
    point for the second time if it is infinite, and the trials. -/
theorem ends_step_counts (hcap : 1 ≤ cap) (p : Progress α) {w : Workspace (LineSearch α) ω}
    (hw : w.solver.Capped cap) : (step A p).Ends w (fun _ v =>
      ∃ d, LineSearch.Spent w.solver.isStrong v.solver.trials d ∧ v.session.counts =
        w.session.counts + (⟨1 + (unpriced A p w.session).toNat, 1, 0, 0⟩ + d)) fun _ => True := by
  obtain ⟨m, t⟩ := w
  refine ends_step_iff.2 ((Session.ends_evaluate_anyhow .cost _).executed.mono ?_)
  rintro c u ⟨hcost, hu⟩
  -- Whether the search evaluates the cost again depends on the answer to the first evaluation.
  have hunpriced : unpriced A p t = Scalar.isInfinite c := by
    have hanswer : ((A.operator.cost p.param).exec t.host).1 = .ok c := congrArg Prod.fst hcost
    unfold unpriced
    rcases hhost : (A.operator.cost p.param).exec t.host with ⟨outcome, host⟩
    rw [hhost] at hanswer
    obtain rfl : outcome = .ok c := hanswer
    rfl
  -- A cost and a gradient before the search, and what the search spends.
  refine (Session.ends_evaluate_anyhow .gradient _).mono fun gradient u' hu' => ?_
  refine (LineSearch.ends_run_spent hcap hw p.param _ gradient c u').mono ?_
  rintro found v ⟨d, hd, hcounts⟩
  refine ⟨d, hd, ?_⟩
  have hsum : ⟨1 + (Scalar.isInfinite c).toNat, 1, 0, 0⟩ = Counts.zero.tick .cost +
      (Counts.zero.tick .gradient + ⟨(Scalar.isInfinite c).toNat, 0, 0, 0⟩) := by
    cases Scalar.isInfinite c <;> rfl
  rw [hcounts, hu', hu, hunpriced, hsum]
  simp only [Counts.tick_eq_add t.counts, Counts.tick_eq_add (t.counts + _), Counts.add_assoc]

/-- Nothing at the start, and then what the steps evaluate. -/
theorem spends (A : Setting ω α) (O : Observer η α) (c : RunConfig α) (hcap : 1 ≤ cap) :
    Run.Spends ⟨solver, O, A, c⟩ (fun m => m.Capped cap ∧ m.isStrong = strong)
      (fun _ _ d => d = .zero) (fun p w m d => ∃ d', LineSearch.Spent strong m.trials d' ∧
        d = ⟨1 + (unpriced A p w.session).toNat, 1, 0, 0⟩ + d') where
  init := by
    intro p w hw
    exact ⟨hw, .zero, rfl, (Counts.add_zero _).symm⟩
  step := by
    rintro p w ⟨hw, rfl⟩
    refine (ends_step_counts hcap p hw).executed.mono ?_
    rintro report v ⟨hexec, d, hd, hcounts⟩
    have hv : ((solver.step A p).exec w).2 = v := congrArg Prod.snd hexec
    -- The search keeps its cap and its kind, so the next iteration is bounded alike.
    have hleft := leaves_step (A := A) (p := p) hcap w hw
    have hblank := blank_step A p w
    rw [hv] at hleft hblank
    exact ⟨⟨hleft, LineSearch.isStrong_of_blank hblank⟩, _, ⟨d, hd, rfl⟩, hcounts⟩
  terminate _ := rfl

end SteepestDescent

/-! ### Every iteration of a run -/

namespace Run

/-- **What a run of steepest descent evaluates.**  Let its search be any of the two, which may make
    `cap` trials, at least one.  Whatever the operator answers, and wherever the run fails in the end,
    its start evaluates nothing, and each of its iterations evaluates the cost at its point, the cost
    there for a second time if it is infinite, and one cost in each trial of its search; it evaluates
    the gradient at its point and at most one in each trial, and by backtracking none of these.

    So an iteration evaluates one cost, and one for each trial, exactly if the cost at its point is not
    infinite. -/
theorem steepestDescent_counts {cap : ℕ} (hcap : 1 ≤ cap) {m : LineSearch α} (hm : m.Capped cap)
    (A : Setting ω α) (O : Observer η α) (c : RunConfig α) {r : Run (Method α) ω η α}
    (hr : r.solver = .steepestDescent m) {n : ℕ} (hn : Goes (plan A O c) r n) :
    (stateAfter (plan A O c) r 0).session.counts = r.session.counts ∧
    ∀ i < n,
      let t := stateAfter (plan A O c) r i
      let t' := stateAfter (plan A O c) r (i + 1)
      let again := SteepestDescent.unpriced A t.progress t.session
      (∃ k ≤ t'.solver.trials, (m.isStrong = false → k = 0) ∧ t'.session.counts =
        t.session.counts + ⟨1 + again.toNat + t'.solver.trials, 1 + k, 0, 0⟩) ∧
      (t'.session.counts.cost = t.session.counts.cost + (1 + t'.solver.trials) ↔ again = false) := by
  have hown : Spends ⟨SteepestDescent.solver, O, A, c⟩
      (fun s => s.Capped cap ∧ s.isStrong = m.isStrong) (fun _ _ d => d = .zero)
      (fun p w s d => ∃ d', LineSearch.Spent m.isStrong s.trials d' ∧
        d = ⟨1 + (SteepestDescent.unpriced A p w.session).toNat, 1, 0, 0⟩ + d') :=
    SteepestDescent.spends A O c hcap
  have hspends := hown.wrapped .steepestDescent fun _ _ => rfl
  obtain ⟨-, ⟨d, ⟨s, -, rfl⟩, hstart⟩, hnext⟩ := hspends.each ⟨m, hr, hm, rfl⟩ hn
  refine ⟨hstart.trans (Counts.add_zero _), fun i hi => ?_⟩
  intro t t' again
  obtain ⟨_, ⟨_, s', -, hs', _, ⟨k, hk, hweak, rfl⟩, rfl⟩, hcounts⟩ := hnext i hi
  have htrials : t'.solver.trials = s'.trials := by
    show (stateAfter (plan A O c) r (i + 1)).solver.trials = _
    rw [hs']
    rfl
  rw [htrials]
  have hspent : t'.session.counts =
      t.session.counts + ⟨1 + again.toNat + s'.trials, 1 + k, 0, 0⟩ := hcounts
  refine ⟨⟨k, hk, hweak, hspent⟩, ?_⟩
  -- One cost before the search, one for each trial, and one more if the search has evaluated it again.
  have hcost : t'.session.counts.cost = t.session.counts.cost + (1 + again.toNat + s'.trials) := by
    rw [hspent]
    rfl
  rw [hcost]
  cases again with
  | false => simp
  | true => simp

/-- With two trials on the sphere function an iteration evaluates three costs and one
    gradient. -/
theorem steepestDescent_counts_sphere : ∃ s, Backtracking.make (1e-4 : Exact ℚ) 0.5 2 = .ok s ∧
    1 ≤ 2 ∧ (LineSearch.backtracking s).Capped 2 ∧
    Goes steepPlan (steepStart (.backtracking s)) 1 ∧
    (stateAfter steepPlan (steepStart (.backtracking s)) 1).solver.trials = 2 ∧
    (stateAfter steepPlan (steepStart (.backtracking s)) 1).session.counts =
      (stateAfter steepPlan (steepStart (.backtracking s)) 0).session.counts + ⟨1 + 2, 1, 0, 0⟩ := by
  have hmake : Backtracking.make (1e-4 : Exact ℚ) 0.5 2 =
      .ok ⟨⟨none, 1.0, 2, 0, none, none⟩, 1e-4, 0.5, 1.0⟩ :=
    Backtracking.make_eq_ok_iff.2 ⟨by decide +kernel, by decide +kernel, by decide, rfl⟩
  obtain ⟨hcap, hcapped⟩ := LineSearch.capped_of_make_backtracking hmake
  have hgoes : Goes steepPlan (steepStart (steepSearch 1.0 2)) 1 :=
    ⟨by decide +kernel, by decide +kernel, by decide +kernel, by decide +kernel⟩
  obtain ⟨⟨k, -, hweak, hcounts⟩, -⟩ := (steepestDescent_counts hcap hcapped ⟨curvedSphere, true⟩
    noObserver ⟨1, -1.0, true⟩ rfl hgoes).2 0 zero_lt_one
  obtain rfl := hweak rfl
  exact ⟨_, hmake, hcap, hcapped, hgoes, by decide +kernel, hcounts.trans (by decide +kernel)⟩

/-- The square of a number, which has no cost above two. -/
def fencedSphere : Operator Unit (Exact ℚ) where
  __ := curvedSphere
  cost? := some fun x =>
    pure (if x.entries.all (Scalar.le · 2.0) then sphere x else Scalar.infinity)

/-- Steepest descent on it, for one iteration. -/
def fencedPlan : Plan (Method (Exact ℚ)) Unit Empty (Exact ℚ) :=
  plan ⟨fencedSphere, false⟩ noObserver ⟨1, -1.0, true⟩

/-- The run from the point `3`. -/
def fencedStart (search : LineSearch (Exact ℚ)) : Run (Method (Exact ℚ)) Unit Empty (Exact ℚ) :=
  fresh fencedPlan (.vector .array [3.0]) none none none (.steepestDescent search) (.start ()) []

/-- **An infinite cost is evaluated twice**: the search makes one trial, and three costs are
    evaluated. -/
theorem steepestDescent_counts_again : ∃ s, Backtracking.make (1e-4 : Exact ℚ) 0.5 50 = .ok s ∧
    Goes fencedPlan (fencedStart (.backtracking s)) 1 ∧
    (stateAfter fencedPlan (fencedStart (.backtracking s)) 1).solver.trials = 1 ∧
    (stateAfter fencedPlan (fencedStart (.backtracking s)) 1).session.counts =
      (stateAfter fencedPlan (fencedStart (.backtracking s)) 0).session.counts + ⟨3, 1, 0, 0⟩ := by
  have hmake : Backtracking.make (1e-4 : Exact ℚ) 0.5 50 =
      .ok ⟨⟨none, 1.0, 50, 0, none, none⟩, 1e-4, 0.5, 1.0⟩ :=
    Backtracking.make_eq_ok_iff.2 ⟨by decide +kernel, by decide +kernel, by decide, rfl⟩
  refine ⟨_, hmake, ⟨?_, ?_, ?_, ?_⟩, ?_, ?_⟩ <;> decide +kernel

end Run

end Minimization
