import Minimization.Observer.Kinds

namespace Minimization

/-!
# Observers from their settings

* `WatcherSettings` — the settings of an observer of the library.
* `WatcherSettings.build` — the observer; what is absent has its usual value.
* `WatcherSettings.watch` — the observer with its mode.
-/

/-- The settings of an observer; what is absent has its usual value. -/
inductive WatcherSettings where
  | recorder
  | counter
  | lines (name : Option String) (level : Option LevelChoice)
  | files (stem format : Option String)

namespace WatcherSettings

variable {α : Type}

/-- The level of log lines; only a number will do. -/
def lineLevel : Option LevelChoice → Option Int
  | none => some Watcher.infoLevel
  | some (.number n) => some n
  | some _ => none

/-- The observer.  One that writes log lines has its logger handed out at once. -/
def build : WatcherSettings → Action Logbook α (Watcher α)
  | .recorder => pure (.recorder [])
  | .counter => pure (.counter [])
  | .lines name level => Watcher.toLines (name.getD "observer") (lineLevel level)
  | .files stem format => do
    return .files (stem.getD "param")
      (← Action.ofExcept (FileFormat.ofName (format.getD FileFormat.json.name))) []

/-- The observer with its mode, which may turn out to be impossible. -/
def watch (s : WatcherSettings) (mode : Except (Failure α) ObserverMode) :
    Action Logbook α (Watch (Watcher α)) := do
  let watcher ← s.build
  return ⟨← Action.ofExcept mode, watcher⟩

end WatcherSettings

end Minimization
