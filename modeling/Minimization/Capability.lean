namespace Minimization

/-!
# What an operator can be asked for

* `Capability` — cost, gradient, Hessian and Jacobian.
* `Counts` — how often each was evaluated; counts add.
* `Counts.text` — the written form that shows up in results.
-/

/-- A question that an operator may be able to answer. -/
inductive Capability where
  | cost
  | gradient
  | hessian
  | jacobian
deriving Repr, DecidableEq

/-- The capabilities in the order in which they are listed. -/
def Capability.all : List Capability := [.cost, .gradient, .hessian, .jacobian]

/-- The name of the question as it is asked. -/
def Capability.question : Capability → String
  | .cost => "apply"
  | .gradient => "gradient"
  | .hessian => "hessian"
  | .jacobian => "jacobian"

/-- The name of the counter. -/
def Capability.counter : Capability → String
  | .cost => "cost"
  | .gradient => "gradient"
  | .hessian => "hessian"
  | .jacobian => "jacobian"

/-- Numbers of evaluations. -/
@[ext] structure Counts where
  cost : Nat
  gradient : Nat
  hessian : Nat
  jacobian : Nat
deriving Repr, DecidableEq

namespace Counts

/-- Nothing has been evaluated. -/
def zero : Counts := ⟨0, 0, 0, 0⟩

/-- The counter of one capability. -/
def get (c : Counts) : Capability → Nat
  | .cost => c.cost
  | .gradient => c.gradient
  | .hessian => c.hessian
  | .jacobian => c.jacobian

/-- Replaces the counter of one capability. -/
def set (c : Counts) (n : Nat) : Capability → Counts
  | .cost => { c with cost := n }
  | .gradient => { c with gradient := n }
  | .hessian => { c with hessian := n }
  | .jacobian => { c with jacobian := n }

/-- One more evaluation. -/
def tick (c : Counts) (k : Capability) : Counts := c.set (c.get k + 1) k

/-- Counts of two wrappers together. -/
def add (c d : Counts) : Counts :=
  ⟨c.cost + d.cost, c.gradient + d.gradient, c.hessian + d.hessian, c.jacobian + d.jacobian⟩

/-- Counts are added one by one. -/
instance : Add Counts := ⟨add⟩

/-- Nothing has been counted at first. -/
@[simp] theorem get_zero (k : Capability) : zero.get k = 0 := by cases k <;> rfl

/-- Every counter is a sum. -/
@[simp] theorem get_add (c d : Counts) (k : Capability) : (c + d).get k = c.get k + d.get k := by
  cases k <;> rfl

/-- The first capability whose counter is lower than before. -/
def decreased? (before after : Counts) : Option Capability :=
  Capability.all.find? fun k => after.get k < before.get k

/-- The counters by name, as results show them. -/
def text (c : Counts) : String :=
  let entry (k : Capability) : String := "'" ++ k.counter ++ "': " ++ toString (c.get k)
  "\x7b" ++ ", ".intercalate (Capability.all.map entry) ++ "\x7d"

end Counts

end Minimization
