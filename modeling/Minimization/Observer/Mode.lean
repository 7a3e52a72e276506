import Minimization.Failure
import Minimization.Text.Quoted

namespace Minimization

/-!
# When an observer is called

* `Selection` — always, never, on every n-th iteration, or on a new best.
* `ObserverMode` — a selection and its interval.
* `ObserverMode.selects` — whether an iteration is shown to the observer.
-/

/-- What decides whether an iteration is shown. -/
inductive Selection where
  | always
  | never
  | newBest
  | every
  /-- A selection of an unknown name shows nothing. -/
  | unknown (name : String)
deriving Repr, DecidableEq

/-- The name of a selection. -/
def Selection.name : Selection → String
  | .always => "always"
  | .never => "never"
  | .newBest => "new_best"
  | .every => "every"
  | .unknown name => name

/-- The selection of a name. -/
def Selection.ofName (s : String) : Selection :=
  if s = "always" then .always
  else if s = "never" then .never
  else if s = "new_best" then .newBest
  else if s = "every" then .every
  else .unknown s

/-- A selection with its interval, which only counts for every n-th iteration. -/
structure ObserverMode where
  selection : Selection
  interval : Int := 1
deriving Repr, DecidableEq

namespace ObserverMode

/-- Every iteration. -/
def always : ObserverMode := ⟨.always, 1⟩

/-- No iteration. -/
def never : ObserverMode := ⟨.never, 1⟩

/-- The iterations that found a new best. -/
def newBest : ObserverMode := ⟨.newBest, 1⟩

/-- The multiples of a positive interval. -/
def every {α : Type} (n : Int) : Except (Failure α) ObserverMode :=
  if n < 1 then .error (.invalid .observerInterval) else .ok ⟨.every, n⟩

/-- Whether an iteration is shown; the interval zero has no multiples to test. -/
def selects {α : Type} (mode : ObserverMode) (iteration : Int) (isNewBest : Bool) :
    Except (Failure α) Bool :=
  match mode.selection with
  | .always => .ok true
  | .every =>
    -- Built by `every` the interval is positive; a mode given directly may hold any number.
    if mode.interval = 0 then .error .divisionByZero
    else .ok (Int.fmod iteration mode.interval == 0)
  | .newBest => .ok isNewBest
  | .never => .ok false
  | .unknown _ => .ok false

/-- The mode in one line. -/
def text (mode : ObserverMode) : String :=
  "ObserverMode(kind=" ++ quoted mode.selection.name ++ ", n=" ++ toString mode.interval ++ ")"

end ObserverMode

end Minimization
