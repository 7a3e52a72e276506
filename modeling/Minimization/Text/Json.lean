import Minimization.Numeral.Style
import Minimization.Text.Quoted

namespace Minimization

/-!
# JSON documents

Whole numbers and doubles are kept apart: a double is written as the shortest decimal that reads
back, so that the two are also told apart in the text.

* `Json` — a document.
* `Json.text` — its text in one line, in ASCII; values that are not finite are written as words.
-/

/-- A JSON document. -/
inductive Json where
  | null
  | bool (b : Bool)
  | int (n : Int)
  | real (x : Float)
  | str (s : String)
  | arr (items : List Json)
  | obj (fields : List (String × Json))
deriving Inhabited

namespace Json

/-- A unit of UTF-16 as an escape. -/
def unitEscape (n : Nat) : List Char := '\\' :: 'u' :: hexDigits 4 n

/-- One character in a text: printable ASCII as it is, the rest as escapes. -/
def charText (c : Char) : List Char :=
  let n := c.toNat
  if c = '"' ∨ c = '\\' then ['\\', c]
  else if c = '\n' then ['\\', 'n']
  else if c = '\r' then ['\\', 'r']
  else if c = '\t' then ['\\', 't']
  else if n = 8 then ['\\', 'b']
  else if n = 12 then ['\\', 'f']
  else if 32 ≤ n ∧ n < 127 then [c]
  else (units c).flatMap unitEscape

/-- A text between double quotes. -/
def stringText (s : String) : String :=
  String.ofList ('"' :: s.toList.flatMap charText ++ ['"'])

/-- A double. -/
def realText (x : Float) : String :=
  if x.isNaN then "NaN"
  else if x.isInf then (if x < 0 then "-Infinity" else "Infinity")
  else shortestText x

mutual

/-- The text of a document. -/
def text : Json → String
  | .null => "null"
  | .bool b => if b then "true" else "false"
  | .int n => toString n
  | .real x => realText x
  | .str s => stringText s
  | .arr items => "[" ++ ", ".intercalate (itemTexts items) ++ "]"
  | .obj fields => "\x7b" ++ ", ".intercalate (fieldTexts fields) ++ "\x7d"

/-- The texts of the items of a list. -/
def itemTexts : List Json → List String
  | [] => []
  | v :: vs => text v :: itemTexts vs

/-- The texts of the fields of an object. -/
def fieldTexts : List (String × Json) → List String
  | [] => []
  | (key, v) :: rest => (stringText key ++ ": " ++ text v) :: fieldTexts rest

end

end Json

end Minimization
