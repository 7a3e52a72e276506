import Minimization.Failure

namespace Minimization

/-!
# Levels of log records

* `levelName` — the name of a level.
* `LevelChoice` — a level as it is asked for, by number or by name.
* `LevelChoice.value` — the level meant; whole numbers mean themselves, unknown names the level of
  warnings.  `LevelChoice.strict` refuses unknown names.
-/

/-- The name of a level; levels between the named ones are numbered. -/
def levelName (level : Int) : String :=
  if level = 10 then "DEBUG"
  else if level = 20 then "INFO"
  else if level = 30 then "WARNING"
  else if level = 40 then "ERROR"
  else if level = 50 then "CRITICAL"
  else if level = 0 then "NOTSET"
  else "Level " ++ toString level

/-- The level of warnings, also that of the root of the hierarchy. -/
def warningLevel : Int := 30

/-- A level given by number or by name. -/
inductive LevelChoice where
  | number (n : Int)
  | named (s : String)
  /-- Neither a whole number nor a text. -/
  | unsuited
deriving Repr

/-- The capital letters of a small letter, where they are in ASCII: a dotless i has the capital of
    i, a long s that of s, and some pairs of letters that are joined have two capitals. -/
def capitals (c : Char) : List Char :=
  match c.toNat with
  | 0xdf => ['S', 'S']
  | 0x131 => ['I']
  | 0x17f => ['S']
  | 0xfb00 => ['F', 'F']
  | 0xfb01 => ['F', 'I']
  | 0xfb02 => ['F', 'L']
  | 0xfb03 => ['F', 'F', 'I']
  | 0xfb04 => ['F', 'F', 'L']
  | 0xfb05 => ['S', 'T']
  | 0xfb06 => ['S', 'T']
  | _ => [c.toUpper]

/-- The level of a name. -/
def levelOfName? : String → Option Int
  | "NOTSET" => some 0
  | "DEBUG" => some 10
  | "INFO" => some 20
  | "WARNING" | "WARN" => some warningLevel
  | "ERROR" => some 40
  | "CRITICAL" | "FATAL" => some 50
  | _ => none

namespace LevelChoice

variable {α : Type}

/-- A level by number or by its very name. -/
def strict : LevelChoice → Except (Failure α) Int
  | .number n => .ok n
  | .named s => (levelOfName? s).elim (.error .unknownValue) .ok
  | .unsuited => .error .notANumber

/-- A level by number or name, in any case.  Two names belong to settings that are no levels, a text
    and a table; any other unknown name counts as that of warnings. -/
def value : LevelChoice → Except (Failure α) Int
  | .named s =>
    let name := String.ofList (s.toList.flatMap capitals)
    if name = "BASIC_FORMAT" then .error .unknownValue
    else if name = "_STYLES" then .error .notANumber
    else .ok ((levelOfName? name).getD warningLevel)
  | choice => choice.strict

end LevelChoice

end Minimization
