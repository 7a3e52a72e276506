import Minimization.Observer.Basic

namespace Minimization

/-!
# The observers of the library

* `Watcher.recorder` — keeps everything it is shown.
* `Watcher.counter` — keeps the numbers of the iterations it is shown.
* `Watcher.lines` — writes a log record for what it is shown.
* `Watcher.files` — saves the current point of the iterations it is shown; `Place.ofName` says
  where.
* `Watcher.observer` — what each of them does.
-/

/-- What a recorder was shown. -/
inductive Sighting (α : Type) where
  | init (name : String) (notes : Notes α)
  | iteration (progress : Progress α) (notes : Notes α)

/-- The format of saved points. -/
inductive FileFormat where
  | json
  | npy
deriving Repr, DecidableEq

/-- The name of a format, which is also the last part of the names of its files. -/
def FileFormat.name : FileFormat → String
  | .json => "json"
  | .npy => "npy"

/-- The format of a name. -/
def FileFormat.ofName {α : Type} (s : String) : Except (Failure α) FileFormat :=
  if s = "json" then .ok .json
  else if s = "npy" then .ok .npy
  else .error .unknownValue

/-- What is saved of an iteration. -/
structure Saved (α : Type) where
  iter : Nat
  cost : α
  param : Tensor α

/-- Where a file ends up. -/
inductive Place where
  /-- Under this name in the directory of the observer. -/
  | inside (name : String)
  /-- In another directory. -/
  | outside
deriving Repr, DecidableEq

/-- Where a file of a name ends up.  A name with slashes leads through directories: those above the
    observer's own exist, and there are none inside it. -/
def Place.ofName {α : Type} (name : String) : Except (Failure α) Place :=
  let parts := (name.splitOn "/").filter fun part => part ≠ "" ∧ part ≠ "."
  let file := parts.getLast?.getD ""
  let directories := parts.dropLast
  if name.contains '\x00' then .error .unknownValue
  else if name.startsWith "/" ∧ directories ≠ [] then .error .missingDirectory
  else if directories.any (· ≠ "..") then .error .missingDirectory
  else if 255 < file.utf8ByteSize then .error .impossibleFile
  else if name.startsWith "/" ∨ directories ≠ [] then .ok .outside
  else .ok (.inside file)

/-- An observer of the library with what it has seen. -/
inductive Watcher (α : Type) where
  | recorder (seen : List (Sighting α))
  | counter (seen : List Nat)
  /-- Without a level that is a whole number no line can be written. -/
  | lines (logger : String) (level : Option Int)
  /-- Saved points by file name; the names start with the stem. -/
  | files (stem : String) (format : FileFormat) (saved : List (String × Saved α))

namespace Watcher

variable {α : Type}

/-- The level of information, at which log lines are written unless another is chosen. -/
def infoLevel : Int := 20

/-- A watcher that writes log lines; its logger is handed out at once. -/
def toLines (name : String) (level : Option Int) : Action Logbook α (Watcher α) := do
  return .lines (← Logbook.get (some name)) level

/-- Puts a file in place of the one of its name, or behind all others. -/
def save (saved : List (String × Saved α)) (name : String) (content : Saved α) :
    List (String × Saved α) :=
  if saved.any (·.1 == name) then
    saved.map fun (n, c) => (n, if n == name then content else c)
  else saved ++ [(name, content)]

/-- The name of the file for an iteration. -/
def fileName (stem : String) (iter : Nat) (format : FileFormat) : String :=
  stem ++ "_" ++ toString iter ++ "." ++ format.name

/-- Writes a log record, which must have a level. -/
def writeLine (level : Option Int) (logger : String) (message : String) :
    Action (Notebook (Watcher α)) α Unit :=
  match level with
  | some level => modify fun n => { n with logbook := n.logbook.emit level logger fun _ => message }
  | none => throw .notANumber

/-- Replaces what a watcher has seen. -/
def become (w : Watcher α) : Action (Notebook (Watcher α)) α Unit :=
  modify fun n => { n with memory := w }

/-- The line that tells of an iteration. -/
def iterationLine [Scalar α] (p : Progress α) (notes : Notes α) : String :=
  "iter: " ++ toString p.iter ++ ", cost: " ++ Scalar.scientific 6 p.cost ++ ", best_cost: " ++
    Scalar.scientific 6 p.bestCost ++ notes.text

/-- What the observers of the library do. -/
def observer [Scalar α] : Observer (Watcher α) α where
  init name notes := do
    match (← get).memory with
    | .recorder seen => become (.recorder (seen ++ [.init name notes]))
    | .lines logger level => writeLine level logger (name ++ notes.text)
    | _ => pure ()
  iteration p notes := do
    match (← get).memory with
    | .recorder seen => become (.recorder (seen ++ [.iteration p notes]))
    | .counter seen => become (.counter (seen ++ [p.iter]))
    | .lines logger level => writeLine level logger (iterationLine p notes)
    | .files stem format saved =>
      match ← Action.ofExcept (Place.ofName (fileName stem p.iter format)) with
      | .inside name =>
        become (.files stem format (save saved name ⟨p.iter, p.cost, p.param⟩))
      | .outside => pure ()

end Watcher

end Minimization
