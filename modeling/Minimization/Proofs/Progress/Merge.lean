import Minimization.Progress.Basic
import Minimization.Proofs.Scalar.Order

namespace Minimization.ProgressOn

/-!
# What one merge does

* `merge_eq` — what a merge does to each field.
* `update_cases` — a report sets a new best if its cost is below the best one, and only then.
* `param_update` and the lemmas beside it — the current values after a report.
* `requireGradient_eq_ok_iff`, `requireHessian_eq_ok_iff` — values that must be there.
* `Best` — the best cost is that of a function at the best point, unless no cost has been reported;
  `Best.update` — a report of a point with the cost there keeps this.
* `bestCost_update_le`, `bestCost_update_le_of_cost` — the best cost never rises, and is at most every
  cost that has been reported.
-/

variable {ρ α : Type}

/-- What a merge does to each field. -/
theorem merge_eq (p : ProgressOn ρ α) (r : ReportOn ρ α) : p.merge r =
    { p with
      param := r.param.getD p.param
      prevParam := if r.param.isSome then p.param else p.prevParam
      cost := r.cost.getD p.cost
      prevCost := if r.cost.isSome then p.cost else p.prevCost
      gradient := (r.gradient.map some).getD p.gradient
      prevGradient := if (r.gradient.map some).isSome then p.gradient else p.prevGradient
      hessian := (r.hessian.map some).getD p.hessian
      prevHessian := if (r.hessian.map some).isSome then p.hessian else p.prevHessian } := by
  -- One case for each set of fields that the report gives.
  rcases r with ⟨_ | _, _ | _, _ | _, _ | _, _⟩ <;> rfl

/-- A report with a cost below the best one sets a new best. -/
theorem update_of_lt [Scalar α] {p : ProgressOn ρ α} {r : ReportOn ρ α} {c : α}
    (hr : r.cost = some c) (hc : Scalar.lt c p.bestCost = true) :
    p.update r = ((p.merge r).promote, true) := by
  simp [update, merge_eq, hr, hc]

/-- Any other report is merged, and no more. -/
theorem update_of_not_lt [Scalar α] {p : ProgressOn ρ α} {r : ReportOn ρ α}
    (h : ∀ c, r.cost = some c → Scalar.lt c p.bestCost = false) :
    p.update r = (p.merge r, false) := by
  cases hr : r.cost with
  | none => simp [update, hr]
  | some c => simp [update, merge_eq, hr, h c hr]

/-- A report sets a new best if its cost is below the best one, and only then. -/
theorem update_cases [Scalar α] (p : ProgressOn ρ α) (r : ReportOn ρ α) :
    (∃ c, r.cost = some c ∧ Scalar.lt c p.bestCost = true ∧
        p.update r = ((p.merge r).promote, true)) ∨
      (∀ c, r.cost = some c → Scalar.lt c p.bestCost = false) ∧
        p.update r = (p.merge r, false) := by
  by_cases h : ∃ c, r.cost = some c ∧ Scalar.lt c p.bestCost = true
  · obtain ⟨c, hr, hc⟩ := h
    exact .inl ⟨c, hr, hc, update_of_lt hr hc⟩
  · have hnot (c : α) (hr : r.cost = some c) : Scalar.lt c p.bestCost = false := by
      rw [← Bool.not_eq_true]
      exact fun hc => h ⟨c, hr, hc⟩
    exact .inr ⟨hnot, update_of_not_lt hnot⟩

/-! ### Current values -/

/-- An iteration is counted at the same point. -/
@[simp] theorem param_increment (p : ProgressOn ρ α) : p.increment.param = p.param := rfl

/-- An iteration is counted with the same cost. -/
@[simp] theorem cost_increment (p : ProgressOn ρ α) : p.increment.cost = p.cost := rfl

/-- The gradient stays when an iteration is counted. -/
@[simp] theorem gradient_increment (p : ProgressOn ρ α) : p.increment.gradient = p.gradient := rfl

/-- So does the Hessian. -/
@[simp] theorem hessian_increment (p : ProgressOn ρ α) : p.increment.hessian = p.hessian := rfl

/-- A gradient that must be there is one that is. -/
theorem requireGradient_eq_ok_iff {p : ProgressOn ρ α} {g : Tensor α} :
    p.requireGradient = .ok g ↔ p.gradient = some g := by
  unfold requireGradient
  cases p.gradient <;> simp

/-- The same for a Hessian. -/
theorem requireHessian_eq_ok_iff {p : ProgressOn ρ α} {h : Tensor α} :
    p.requireHessian = .ok h ↔ p.hessian = some h := by
  unfold requireHessian
  cases p.hessian <;> simp

section
variable [Scalar α] (p : ProgressOn ρ α) (r : ReportOn ρ α)

/-- An update merges; what it promotes are not the current values. -/
theorem update_eq_merge : (p.update r).1.param = (p.merge r).param ∧
    (p.update r).1.cost = (p.merge r).cost ∧ (p.update r).1.gradient = (p.merge r).gradient ∧
      (p.update r).1.hessian = (p.merge r).hessian := by
  obtain ⟨c, -, -, heq⟩ | ⟨-, heq⟩ := update_cases p r
  · rw [heq]
    exact ⟨rfl, rfl, rfl, rfl⟩
  · rw [heq]
    exact ⟨rfl, rfl, rfl, rfl⟩

/-- The point after a report is the reported one, if there is one. -/
@[simp] theorem param_update : (p.update r).1.param = r.param.getD p.param := by
  rw [(update_eq_merge p r).1, merge_eq]

/-- The cost after a report is the reported one, if there is one. -/
@[simp] theorem cost_update : (p.update r).1.cost = r.cost.getD p.cost := by
  rw [(update_eq_merge p r).2.1, merge_eq]

/-- A gradient that is not reported stays. -/
@[simp] theorem gradient_update :
    (p.update r).1.gradient = (r.gradient.map some).getD p.gradient := by
  rw [(update_eq_merge p r).2.2.1, merge_eq]

/-- So does a Hessian that is not reported. -/
@[simp] theorem hessian_update : (p.update r).1.hessian = (r.hessian.map some).getD p.hessian := by
  rw [(update_eq_merge p r).2.2.2, merge_eq]

end

/-! ### The best cost belongs to the best point -/

variable [Scalar α]

/-- The best cost is the value of `f` at the best point, once there is one. -/
def Best (f : ρ → α) (p : ProgressOn ρ α) : Prop :=
  p.bestCost ≠ Scalar.infinity → p.bestCost = f p.bestParam

variable {f : ρ → α} {p : ProgressOn ρ α}

/-- Before there is a best point there is nothing to show. -/
theorem Best.of_infinite (h : p.bestCost = Scalar.infinity) : p.Best f :=
  fun hfinite => absurd h hfinite

/-- A report of a point with the cost there. -/
theorem Best.update (h : p.Best f) {r : ReportOn ρ α} {x : ρ} (hparam : r.param = some x)
    (hcost : r.cost = some (f x)) : (p.update r).1.Best f := by
  obtain ⟨c, -, -, heq⟩ | ⟨-, heq⟩ := update_cases p r
  · -- A new best: point and cost of the report.
    intro _
    rw [heq, merge_eq]
    simp [promote, hparam, hcost]
  · rw [heq, merge_eq]
    exact h

/-! ### The best cost never rises -/

section
variable [Scalar.Ordered α] {r : ReportOn ρ α} {c : α}

/-- The best cost stays at or below whatever it has been at or below. -/
theorem bestCost_update_le (h : Scalar.le p.bestCost c = true) :
    Scalar.le (p.update r).1.bestCost c = true := by
  obtain ⟨c', hc', hlt, heq⟩ | ⟨-, heq⟩ := update_cases p r
  · rw [heq, merge_eq]
    simp only [promote, hc', Option.getD_some]
    exact Scalar.Ordered.le_of_lt (Scalar.Ordered.lt_of_lt_of_le hlt h)
  · rw [heq, merge_eq]
    exact h

/-- The best cost is at most the one that is reported. -/
theorem bestCost_update_le_of_cost (h : Scalar.isNaN p.bestCost = false) {c' : α}
    (hr : r.cost = some c') (hle : Scalar.le c' c = true) :
    Scalar.le (p.update r).1.bestCost c = true := by
  refine Scalar.Ordered.le_trans ?_ hle
  have hnumber := (Scalar.Ordered.le_iff.1 hle).1
  -- Either this cost is the new best one, or the best one is no larger.
  obtain ⟨c'', hc'', -, heq⟩ | ⟨hnot, heq⟩ := update_cases p r
  · obtain rfl : c'' = c' := Option.some.inj (hc''.symm.trans hr)
    rw [heq, merge_eq]
    simp only [promote, hr, Option.getD_some]
    exact Scalar.Ordered.le_refl hnumber
  · rw [heq, merge_eq]
    exact Scalar.Ordered.le_iff.2 ⟨h, hnumber, hnot c' hr⟩

end

end Minimization.ProgressOn
