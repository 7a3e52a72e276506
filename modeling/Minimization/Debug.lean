import Minimization.Action

namespace Minimization.Debug

/-!
# Debug mode

* `within` — sets debug mode for the length of a computation, whether it fails or not.
* `ofEnvironment` — the mode that an environment variable asks for.
-/

variable {α β : Type}

/-- Sets debug mode for the length of a computation. -/
def within (enabled : Bool) (m : Action Bool α β) : Action Bool α β :=
  .ofFun fun before => ((m.exec enabled).1, before)

/-- The words that switch debug mode on, in any case. -/
def enablingWords : List String := ["1", "true", "yes", "on"]

/-- The mode for the value of the environment variable. -/
def ofEnvironment (value : Option String) : Bool :=
  enablingWords.contains ((value.getD "0").toLower)

end Minimization.Debug
