import Minimization.Operator.Basic

namespace Minimization

/-!
# Wrappers that count evaluations

Several wrappers may count the evaluations of one operator.  A wrapper can take over the counts of
another one, which is used up by that.

* `Wrapper` — the position of the operator in a pool, gone once the wrapper is used up, and counts.
* `Pool` — operators with their memories, and wrappers by name.
* `Pool.wrap`, `Pool.adopt`, `Pool.rewrap`, `Pool.renew`, `Pool.consume`, `Pool.evaluate` — the
  operations.
-/

/-- The answer of an operator to any question; a cost is a tensor without axes. -/
def Operator.answer {ω α : Type} (op : Operator ω α) (capability : Capability) (x : Tensor α) :
    Action (Host ω) α (Tensor α) :=
  match capability with
  | .cost => do return .scalar .array (← op.cost x)
  | .gradient => op.gradient x
  | .hessian => op.hessian x
  | .jacobian => op.jacobian x

/-- A wrapper around an operator of a pool. -/
structure Wrapper where
  /-- The position of the operator, until the wrapper is used up. -/
  inner : Option Nat
  counts : Counts
deriving Repr, DecidableEq

namespace Wrapper

variable {α : Type}

/-- A wrapper that has counted nothing. -/
def fresh (operator : Nat) : Wrapper := ⟨some operator, .zero⟩

/-- The operator of a wrapper that is not used up. -/
def operator (w : Wrapper) : Except (Failure α) Nat :=
  match w.inner with
  | some k => .ok k
  | none => .error (.impossible .alreadyConsumed)

/-- The wrapper in one line; `operatorText` tells of its operator. -/
def text (w : Wrapper) (operatorText : String) : String :=
  "OpWrapper(op=" ++ (if w.inner.isSome then operatorText else "None") ++ ", counts=" ++
    w.counts.text ++ ")"

end Wrapper

/-- Operators with their memories, and wrappers by name. -/
structure Pool (ω α : Type) where
  operators : List (Operator ω α × ω) := []
  wrappers : List (String × Wrapper) := []

namespace Pool

variable {ω α : Type}

/-- The wrapper of a name. -/
def find (name : String) : Action (Pool ω α) α Wrapper := do
  match (← get).wrappers.find? (·.1 == name) with
  | some (_, w) => return w
  | none => throw .unknownName

/-- Puts a wrapper in place of the one of its name, or behind all others. -/
def put (name : String) (w : Wrapper) (p : Pool ω α) : Pool ω α :=
  if p.wrappers.any (·.1 == name) then
    { p with wrappers := p.wrappers.map fun (n, v) => (n, if n == name then w else v) }
  else { p with wrappers := p.wrappers ++ [(name, w)] }

/-- Wraps an operator of the pool. -/
def adopt (name : String) (position : Nat) : Action (Pool ω α) α Unit :=
  modify (put name (.fresh position))

/-- Wraps a new operator. -/
def wrap (name : String) (op : Operator ω α) (memory : ω) : Action (Pool ω α) α Unit := do
  let position := (← get).operators.length
  modify fun p => { p with operators := p.operators ++ [(op, memory)] }
  adopt name position

/-- A wrapper is not wrapped again. -/
def rewrap (other : String) : Action (Pool ω α) α Unit := do
  discard (find other)
  throw (.impossible .wrappedTwice)

/-- A fresh wrapper around the operator of another wrapper. -/
def renew (name other : String) : Action (Pool ω α) α Unit := do
  let operator ← Action.ofExcept (← find other).operator
  adopt name operator

/-- Takes over the counts of another wrapper, which is used up by that. -/
def consume (name other : String) : Action (Pool ω α) α Unit := do
  let w ← find name
  let o ← find other
  if name = other then throw (.impossible .selfConsumption)
  discard (Action.ofExcept o.operator)
  modify fun p => put other { o with inner := none }
    (put name { w with counts := w.counts + o.counts } p)

/-- The operator of a wrapper. -/
def operatorOf (name : String) : Action (Pool ω α) α (Operator ω α) := do
  let position ← Action.ofExcept (← find name).operator
  match (← get).operators[position]? with
  | some (op, _) => return op
  | none => throw .unknownValue

/-- Whether two wrappers have the same operator. -/
def sameOperator (name other : String) : Action (Pool ω α) α Bool := do
  let k ← Action.ofExcept (← find name).operator
  let l ← Action.ofExcept (← find other).operator
  return k == l

/-- Lets an operator of the pool act on its memory. -/
def onOperator {β : Type} (position : Nat)
    (act : Operator ω α → Action (Host ω) α β) : Action (Pool ω α) α β := do
  match (← get).operators[position]? with
  | none => throw .unknownValue
  | some (op, memory) => .ofFun fun p =>
    let (outcome, host) := (act op).exec ⟨memory, .unguarded⟩
    (outcome, { p with operators := p.operators.set position (op, host.memory) })

/-- Counts an evaluation on a wrapper and carries it out. -/
def evaluate (name : String) (capability : Capability) (x : Tensor α) :
    Action (Pool ω α) α (Tensor α) := do
  let w ← find name
  -- The count goes up before the operator is asked.
  let position ← Action.ofExcept w.operator
  modify (put name { w with counts := w.counts.tick capability })
  onOperator position fun op => op.answer capability x

end Pool

end Minimization
