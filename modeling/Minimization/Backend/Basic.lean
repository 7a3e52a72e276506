namespace Minimization

/-!
# The two families of tensors

* `Backend` — which rules hold where shapes do not fit: those of general arrays, which flatten and
  stretch where they can, or those of strict tensors.
* `Backend.join` — the family of what is computed from two tensors.
* `Backend.name` — the name a backend goes by.
-/

/-- The family a tensor belongs to, and the rules that hold in it. -/
inductive Backend where
  /-- Outer products flatten their arguments; an inner product wants shapes that fit. -/
  | array
  /-- Inner products flatten their arguments; an outer product wants vectors. -/
  | tensor
deriving Repr, DecidableEq, Inhabited

namespace Backend

/-- The name a backend goes by. -/
def name : Backend → String
  | .array => "numpy"
  | .tensor => "torch"

/-- A strict tensor takes part: so is the result. -/
def join : Backend → Backend → Backend
  | .array, .array => .array
  | _, _ => .tensor

/-- Within one family the result is of that family. -/
@[simp] theorem join_self (b : Backend) : b.join b = b := by cases b <;> rfl

end Backend

end Minimization
