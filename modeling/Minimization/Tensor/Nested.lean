import Minimization.Failure
import Minimization.Tensor.Basic

namespace Minimization

/-!
# Tensors as nested lists

* `Nested` — an entry, or a list of nested values.
* `Nested.uniformShape?` — the axes of nested lists all of whose parts are alike.
* `Nested.toTensor` — the tensor of nested lists.  General arrays want parts that are alike; strict
  tensors take the lengths from the first parts and then look at the others.
* `Tensor.ofRows` — the tensor of a list of rows.
* `Tensor.nested` — the nested lists of a tensor.
-/

/-- An entry, or a list of nested values. -/
inductive Nested (α : Type) where
  | entry (x : α)
  | list (items : List (Nested α))

namespace Nested

variable {α : Type}

mutual

/-- All entries, from the left. -/
def entries : Nested α → List α
  | .entry x => [x]
  | .list items => entriesOfEach items

/-- All entries of some values, from the left. -/
def entriesOfEach : List (Nested α) → List α
  | [] => []
  | v :: vs => entries v ++ entriesOfEach vs

end

mutual

/-- The axes of nested lists, if all parts of a list have the same. -/
def uniformShape? : Nested α → Option (List Nat)
  | .entry _ => some []
  | .list items => (uniformShapeOfEach? items).map (items.length :: ·)

/-- The axes that some values have in common; no values have none. -/
def uniformShapeOfEach? : List (Nested α) → Option (List Nat)
  | [] => some []
  | v :: vs => do
    let shape ← uniformShape? v
    if vs.isEmpty then return shape
    else if (← uniformShapeOfEach? vs) = shape then return shape
    else none

end

mutual

/-- The lengths of a list, of its first item, of the first item of that, and so on. -/
def leadingShape : Nested α → List Nat
  | .entry _ => []
  | .list items => items.length :: leadingShapeOfFirst items

/-- The lengths in the first of some values. -/
def leadingShapeOfFirst : List (Nested α) → List Nat
  | [] => []
  | v :: _ => leadingShape v

end

mutual

/-- Values fill the given axes: lists are as long as they say, and entries stand where they end. -/
def fill : Nested α → List Nat → Except (Failure α) Unit
  | .entry _, [] => .ok ()
  -- A list stands where a number should, or the other way round.
  | .list _, [] => .error .notANumber
  | .entry _, _ :: _ => .error .notANumber
  | .list items, n :: ns =>
    if items.length = n then fillEach items ns else .error .unknownValue

/-- Each of some values fills the given axes. -/
def fillEach : List (Nested α) → List Nat → Except (Failure α) Unit
  | [], _ => .ok ()
  | v :: vs, ns => do
    fill v ns
    fillEach vs ns

end

/-- The tensor of nested lists. -/
def toTensor (b : Backend) (v : Nested α) : Except (Failure α) (Tensor α) :=
  match b with
  | .array =>
    match v.uniformShape? with
    | some shape => .ok ⟨b, shape, v.entries⟩
    | none => .error .unknownValue
  | .tensor => do
    let shape := v.leadingShape
    -- Without entries there is nothing to look at.
    if volume shape = 0 then return ⟨b, shape, []⟩
    fill v shape
    return ⟨b, shape, v.entries⟩

/-- Entries along the given axes as nested lists. -/
def ofEntries : List Nat → List α → Nested α
  | [], xs =>
    match xs with
    | x :: _ => .entry x
    | [] => .list []
  | n :: ns, xs => .list ((pieces n (volume ns) xs).map (ofEntries ns))

end Nested

/-- The tensor of rows; no rows at all make an empty vector. -/
def Tensor.ofRows {α : Type} (b : Backend) (rows : List (List α)) :
    Except (Failure α) (Tensor α) :=
  (Nested.list (rows.map fun row => .list (row.map .entry))).toTensor b

/-- The nested lists of a tensor. -/
def Tensor.nested {α : Type} (t : Tensor α) : Nested α := .ofEntries t.shape t.entries

end Minimization
