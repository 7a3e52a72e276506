import Minimization.Action
import Minimization.Logbook.Pattern

namespace Minimization

/-!
# Loggers and what they have written

Loggers form a hierarchy by the dots in their names.  The loggers of the library are handed out by
`Logbook.get`; they share one level and one pattern, which `Logbook.setLevel` and
`Logbook.configure` change for all of them and for those still to come.

* `Logbook` — all loggers, the names handed out so far, the shared settings, the text written.
* `Logbook.emit` — a record passes if its level reaches that of the logger and that of the handler;
  unless the logger keeps records to itself, the handlers of its ancestors see it too.
-/

/-- Where a handler writes. -/
inductive Stream where
  | standard
  | separate
deriving Repr, DecidableEq

/-- Writes records of a level and above to a stream. -/
structure Handler where
  level : Int
  stream : Stream
  pattern : Pattern
deriving Repr

/-- A named source of records; level zero means the level of the nearest ancestor that has one. -/
structure Logger where
  name : String
  level : Int
  handlers : List Handler
  propagates : Bool
deriving Repr

/-- The loggers, the settings they share, and the text on the two streams. -/
structure Logbook where
  loggers : List Logger
  /-- Full names of the loggers handed out, in order. -/
  handedOut : List String
  level : Int
  pattern : String
  standard : String
  separate : String
deriving Repr

namespace Logbook

/-- The name above all loggers of the library. -/
def packageName : String := "optloop"

/-- The logger of runs. -/
def runLogger : String := "optloop.executor"

/-- The logger of the quasi-Newton method. -/
def quasiNewtonLogger : String := "optloop.solver.quasi_newton"

/-- The pattern in force before any other is chosen. -/
def defaultPattern : String := "[%(levelname)s] %(name)s: %(message)s"

/-- A logger as it is handed out. -/
def fresh (name : String) (level : Int) (pattern : Pattern) : Logger :=
  ⟨name, level, [⟨level, .standard, pattern⟩], false⟩

/-- The name of the logger above all others. -/
def rootName : String := "root"

/-- Two loggers exist from the start, and the root of the hierarchy. -/
def initial : Logbook :=
  let names := [runLogger, quasiNewtonLogger]
  { loggers := ⟨rootName, warningLevel, [], false⟩ ::
      names.map fun name => fresh name warningLevel (.ofText defaultPattern)
    handedOut := names
    level := warningLevel
    pattern := defaultPattern
    standard := ""
    separate := "" }

/-- The full name under which a logger is handed out. -/
def fullName : Option String → String
  | none => packageName
  | some name => if name.startsWith packageName then name else packageName ++ "." ++ name

/-- The logger of a full name. -/
def find? (b : Logbook) (name : String) : Option Logger := b.loggers.find? (·.name == name)

/-- Puts a logger in place of the one of its name, or behind all others. -/
def put (b : Logbook) (l : Logger) : Logbook :=
  if b.loggers.any (·.name == l.name) then
    { b with loggers := b.loggers.map fun k => if k.name == l.name then l else k }
  else { b with loggers := b.loggers ++ [l] }

/-- Applies a change to every logger handed out. -/
def mapHandedOut (b : Logbook) (f : Logger → Logger) : Logbook :=
  { b with loggers := b.loggers.map fun l => if b.handedOut.contains l.name then f l else l }

/-- Hands out the logger of a name.  One that has no handler yet gets the shared settings. -/
def get {α : Type} (name : Option String) : Action Logbook α String := do
  let b ← MonadState.get
  let full := fullName name
  if b.handedOut.contains full then return full
  let logger := (b.find? full).getD ⟨full, 0, [], true⟩
  if logger.handlers.isEmpty then
    if Pattern.isValid b.pattern then
      set { b.put (fresh full b.level (.ofText b.pattern)) with handedOut := b.handedOut ++ [full] }
    else
      -- The level is set before the handler turns out to be impossible.
      set (b.put { logger with level := b.level })
      throw .unknownValue
  else
    set { b with handedOut := b.handedOut ++ [full] }
  return full

/-- Sets the level of all loggers handed out, of their handlers, and of those to come.  Nothing
    changes if the choice is no level. -/
def setLevel {α : Type} (choice : LevelChoice) : Action Logbook α Unit := do
  let level ← Action.ofExcept choice.value
  modify fun b =>
    { b.mapHandedOut fun l =>
        { l with level := level, handlers := l.handlers.map ({ · with level := level }) } with
      level := level }

/-- Gives all loggers handed out one new handler.  A new pattern stays in force for later calls even
    if the call fails, because the pattern has no directive or the choice is no level. -/
def configure {α : Type} (choice : LevelChoice) (pattern? : Option String) (stream : Stream) :
    Action Logbook α Unit := do
  modify fun b => { b with pattern := pattern?.getD b.pattern }
  let b ← MonadState.get
  if !Pattern.isValid b.pattern then throw .unknownValue
  let level ← Action.ofExcept choice.value
  set { b.mapHandedOut fun l =>
      { l with level := level, handlers := [⟨level, stream, .ofText b.pattern⟩] } with
    level := level }

/-- Gives a logger, handed out or not, a plain handler on the separate stream.  The empty name means
    the root of the hierarchy. -/
def attach (name : String) (level : Int) (b : Logbook) : Logbook :=
  let name := if name.isEmpty then rootName else name
  let l := (b.find? name).getD ⟨name, 0, [], true⟩
  b.put { l with
    level := level
    handlers := l.handlers ++ [⟨0, .separate, .ofText "%(message)s"⟩] }

/-! ### Emitting records -/

/-- The names above a name that is written backwards, at most `fuel` of them.  A dot separates
    names unless it is the first or the last character. -/
def namesAbove : Nat → List Char → List String
  | 0, _ => []
  | fuel + 1, cs =>
    match (cs.drop 1).dropWhile (· != '.') with
    | '.' :: c :: rest => String.ofList (c :: rest).reverse :: namesAbove fuel (c :: rest)
    | _ => []

/-- The names above a name, the nearest first. -/
def ancestorNames (name : String) : List String := namesAbove name.length name.toList.reverse

/-- A logger and the loggers above it, the nearest first and the root last. -/
def lineage (b : Logbook) (l : Logger) : List Logger :=
  l :: (ancestorNames l.name ++ [rootName]).filterMap b.find?

/-- The level a record has to reach: the first level that is not zero. -/
def effectiveLevel (b : Logbook) (l : Logger) : Int :=
  match (b.lineage l).find? fun k => k.level != 0 with
  | some k => k.level
  | none => 0

/-- The loggers whose handlers see a record: up to the first that keeps records to itself. -/
def reached : List Logger → List Logger
  | [] => []
  | l :: rest => if l.propagates then l :: reached rest else [l]

/-- Adds a line to a stream. -/
def writeLine (stream : Stream) (line : String) (b : Logbook) : Logbook :=
  match stream with
  | .standard => { b with standard := b.standard ++ line ++ "\n" }
  | .separate => { b with separate := b.separate ++ line ++ "\n" }

/-- Hands a record to a handler, which writes nothing if it cannot fill in its pattern. -/
def handle (r : Record) (b : Logbook) (h : Handler) : Logbook :=
  if h.level ≤ r.level then
    match r.render? h.pattern with
    | some line => b.writeLine h.stream line
    | none => b
  else b

/-- Emits a record of a positive level.  Without any handler, warnings and worse still reach the
    standard stream. -/
def emit (level : Int) (name : String) (message : Unit → String) (b : Logbook) : Logbook :=
  match b.find? name with
  | none => b
  | some l =>
    if 0 < level ∧ b.effectiveLevel l ≤ level then
      let r : Record := ⟨level, name, message ()⟩
      -- Every handler sees the record, also those of the loggers above.
      match (reached (b.lineage l)).flatMap (·.handlers) with
      | [] => if warningLevel ≤ level then b.writeLine .standard r.message else b
      | handlers => handlers.foldl (handle r) b
    else b

end Logbook

end Minimization
