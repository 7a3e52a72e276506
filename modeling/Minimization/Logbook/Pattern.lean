import Minimization.Logbook.Directive
import Minimization.Logbook.Level
import Minimization.Text.Word

namespace Minimization

/-!
# Patterns of log lines

A pattern is text with directives that name what a record tells, as in `%(levelname)-8s`; a doubled
percent sign stands for itself.

* `Pattern.ofText` — takes a pattern apart.
* `Pattern.isValid` — something that looks like a directive occurs in a text.
* `Record.render?` — fills in a pattern; nothing comes of a pattern that cannot be filled in.

The two readings differ: a text is valid if it has the look of a directive somewhere, letter case
and the script of digits aside, but it can be filled in only if all of it is right.
-/

/-- What a log line tells. -/
structure Record where
  level : Int
  logger : String
  message : String
deriving Repr

/-- A piece of a pattern. -/
inductive Piece where
  | text (c : Char)
  | directive (d : Directive)
  /-- A percent sign that begins no directive. -/
  | broken
deriving Repr

/-- A pattern, piece by piece. -/
abbrev Pattern := List Piece

namespace Pattern

/-- Takes apart at most `fuel` pieces. -/
def ofChars : Nat → List Char → Pattern
  | 0, _ => []
  | _ + 1, [] => []
  | fuel + 1, '%' :: '%' :: rest => .text '%' :: ofChars fuel rest
  | fuel + 1, '%' :: '(' :: rest =>
    match Directive.take? rest with
    | some (d, rest) => .directive d :: ofChars fuel rest
    | none => [.broken]
  | _ + 1, '%' :: _ => [.broken]
  | fuel + 1, c :: rest => .text c :: ofChars fuel rest

/-- The text that is taken apart; the empty text stands for the bare message. -/
def sourceText (s : String) : String := if s.isEmpty then "%(message)s" else s

/-- Takes a pattern apart. -/
def ofText (s : String) : Pattern := ofChars (sourceText s).length (sourceText s).toList

/-! ### The look of a directive -/

/-- The letters that may close a directive, in either case; a capital i with a dot, a small i
    without one and a long s count as i and s. -/
def closingLetters : List Char :=
  "diouxefgcrsaDIOUXEFGCRSA%".toList ++ [Char.ofNat 0x130, Char.ofNat 0x131, Char.ofNat 0x17f]

/-- Text behind a star or some digits of any script. -/
def afterSize? : List Char → Option (List Char)
  | '*' :: rest => some rest
  | c :: rest => if isDecimalDigit c then some (rest.dropWhile isDecimalDigit) else none
  | [] => none

/-- What is left of a directive's look behind its precision, if it has one. -/
def afterPrecision? : List Char → Option (List Char)
  | '.' :: rest => afterSize? rest
  | rest => some rest

/-- The flags, sizes and letter behind the name of a directive. -/
def looksClosed (cs : List Char) : Bool :=
  let rest := cs.dropWhile "#0+ -".toList.contains
  match afterPrecision? ((afterSize? rest).getD rest) with
  | some (c :: _) => closingLetters.contains c
  | _ => false

/-- A text begins like a directive. -/
def looksDirected : List Char → Bool
  | '%' :: '(' :: rest =>
    match rest.takeWhile isWordChar, rest.dropWhile isWordChar with
    | _ :: _, ')' :: rest => looksClosed rest
    | _, _ => false
  | _ => false

/-- Some part of a text begins like a directive. -/
def holdsDirective : List Char → Bool
  | [] => false
  | c :: rest => looksDirected (c :: rest) || holdsDirective rest

/-- A pattern without directives tells nothing. -/
def isValid (s : String) : Bool := holdsDirective (sourceText s).toList

end Pattern

/-! ### Filling in -/

namespace Record

/-- What a record tells under a name.  Level, logger and message are all that is known of a record:
    the other names that records have, such as those of the time, the file or the thread, tell
    nothing here, and a line with one of them is dropped like one with a name that is unknown. -/
def value? (r : Record) (name : String) : Option Value :=
  if name = "levelname" then some (.text (levelName r.level))
  else if name = "levelno" then some (.whole r.level)
  else if name = "name" then some (.text r.logger)
  else if name = "message" then some (.text r.message)
  else none

/-- One piece of a pattern, filled in. -/
def renderPiece? (r : Record) : Piece → Option (List Char)
  | .text c => some [c]
  | .directive d => (r.value? d.name).bind d.write?
  | .broken => none

/-- A pattern filled in. -/
def render? (p : Pattern) (r : Record) : Option String :=
  (p.mapM r.renderPiece?).map fun parts => String.ofList parts.flatten

end Record

end Minimization
