import Minimization.Text.Json

namespace Minimization.Json

/-!
# Reading JSON documents

* `ofText?` — the document that a text starts with.
* `value?` — the document at the head of some characters, and what follows it.  The words that stand
  for values that are not finite are read as well; of several fields with one key the last one
  counts, in the place of the first.

Every reader is given more fuel than there are characters left, and takes at least one of them
before it calls another one.
-/

/-- Skips blanks. -/
def skipBlanks (cs : List Char) : List Char := cs.dropWhile Char.isWhitespace

/-- The number that digits of a base denote. -/
def ofDigits (base : Nat) (ds : List Char) : Nat :=
  ds.foldl (fun n c => base * n + "0123456789abcdef".toList.idxOf c.toLower) 0

/-- A character that a number may hold. -/
def isNumberChar (c : Char) : Bool := c.isDigit || "+-.eE".toList.contains c

/-- Beyond this decimal exponent every double is zero or infinite, however many digits are given. -/
def exponentLimit (digits : Nat) : Nat := digits + 400

/-- The number that some characters denote; one with a point or an exponent is a double. -/
def number (cs : List Char) : Json :=
  let negative := cs.head? == some '-'
  let cs := if negative then cs.tail else cs
  let whole := cs.takeWhile Char.isDigit
  match cs.dropWhile Char.isDigit with
  | [] => .int (if negative then -(ofDigits 10 whole : Int) else ofDigits 10 whole)
  | rest =>
    let isMark (c : Char) : Bool := c == 'e' || c == 'E'
    let part := (rest.takeWhile (!isMark ·)).drop 1
    let mark := (rest.dropWhile (!isMark ·)).drop 1
    let digits := whole ++ part
    -- The limit keeps the power of ten small enough to be computed.
    let size : Int := min (ofDigits 10 (mark.filter Char.isDigit)) (exponentLimit digits.length)
    let e := (if mark.head? == some '-' then -size else size) - part.length
    let x := Float.ofScientific (ofDigits 10 digits) (e < 0) e.natAbs
    .real (if negative then -x else x)

/-- The character that follows a backslash, if it is not written by its code. -/
def unescaped (c : Char) : Char :=
  match c with
  | 'n' => '\n'
  | 't' => '\t'
  | 'r' => '\r'
  | 'b' => '\x08'
  | 'f' => '\x0c'
  | c => c

/-- The second half of a pair, written by its code at the head of some characters. -/
def trailingUnit? : List Char → Option Nat
  | '\\' :: 'u' :: rest =>
    let unit := ofDigits 16 (rest.take 4)
    if isTrailingUnit unit then some unit else none
  | _ => none

/-- The rest of a text, up to its closing quote. -/
def stringBody? : Nat → List Char → List Char → Option (String × List Char)
  | 0, _, _ => none
  | _ + 1, _, [] => none
  | fuel + 1, acc, c :: rest =>
    match c, rest with
    | '"', rest => some (String.ofList acc.reverse, rest)
    | '\\', 'u' :: rest =>
      let unit := ofDigits 16 (rest.take 4)
      let rest := rest.drop 4
      -- Two units that belong together make one character.
      match isLeadingUnit unit, trailingUnit? rest with
      | true, some second => stringBody? fuel (pairChar unit second :: acc) (rest.drop 6)
      | _, _ => stringBody? fuel (unitChar unit :: acc) rest
    | '\\', d :: rest => stringBody? fuel (unescaped d :: acc) rest
    | c, rest => stringBody? fuel (c :: acc) rest

/-- A word with its value. -/
def words : List (List Char × Json) :=
  [("null".toList, .null), ("true".toList, .bool true), ("false".toList, .bool false),
   ("NaN".toList, .real (0.0 / 0.0)), ("Infinity".toList, .real (1.0 / 0.0)),
   ("-Infinity".toList, .real (-1.0 / 0.0))]

/-- Sets a field in the place of the one with its key, or behind all others. -/
def putField (fields : List (String × Json)) (key : String) (v : Json) : List (String × Json) :=
  if fields.any (·.1 == key) then fields.map fun (k, w) => if k == key then (k, v) else (k, w)
  else fields ++ [(key, v)]

/-- The word or number at the head of some characters. -/
def simple? (cs : List Char) : Option (Json × List Char) :=
  match words.find? fun (word, _) => word.isPrefixOf cs with
  | some (word, v) => some (v, cs.drop word.length)
  | none =>
    match cs.takeWhile isNumberChar with
    | [] => none
    | ds => some (number ds, cs.dropWhile isNumberChar)

mutual

/-- The document at the head of some characters. -/
def value? : Nat → List Char → Option (Json × List Char)
  | 0, _ => none
  | fuel + 1, cs =>
    match skipBlanks cs with
    | '"' :: rest => (stringBody? fuel [] rest).map fun (s, rest) => (.str s, rest)
    | '[' :: rest => items? fuel [] (skipBlanks rest)
    | '\x7b' :: rest => fields? fuel [] (skipBlanks rest)
    | cs => simple? cs

/-- The rest of a list. -/
def items? : Nat → List Json → List Char → Option (Json × List Char)
  | 0, _, _ => none
  | fuel + 1, acc, cs =>
    match cs with
    | ']' :: rest => some (.arr acc.reverse, rest)
    | ',' :: rest => items? fuel acc (skipBlanks rest)
    | cs => do
      let (v, rest) ← value? fuel cs
      items? fuel (v :: acc) (skipBlanks rest)

/-- The rest of an object. -/
def fields? : Nat → List (String × Json) → List Char → Option (Json × List Char)
  | 0, _, _ => none
  | fuel + 1, acc, cs =>
    match cs with
    | '\x7d' :: rest => some (.obj acc, rest)
    | ',' :: rest => fields? fuel acc (skipBlanks rest)
    | '"' :: rest => do
      let (key, rest) ← stringBody? fuel [] rest
      let (v, rest) ← value? fuel ((skipBlanks rest).drop 1)
      fields? fuel (putField acc key v) (skipBlanks rest)
    | _ => none

end

/-- The document that a text starts with. -/
def ofText? (s : String) : Option Json :=
  let cs := s.toList
  (value? (3 * cs.length + 3) cs).map (·.1)

/-- A field of an object. -/
def find? (j : Json) (key : String) : Option Json :=
  match j with
  | .obj fields => (fields.find? (·.1 == key)).map (·.2)
  | _ => none

/-- A field of an object; an absent one is null. -/
def get (j : Json) (key : String) : Json := (j.find? key).getD .null

/-- A document that says yes: everything but null, false, zero, and texts, lists and objects with
    nothing in them. -/
def isTruthy : Json → Bool
  | .null => false
  | .bool b => b
  | .int n => n != 0
  | .real x => !(x == 0.0)
  | .str s => !s.isEmpty
  | .arr items => !items.isEmpty
  | .obj fields => !fields.isEmpty

end Minimization.Json
