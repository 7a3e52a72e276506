import Minimization.Numeral.Places
import Minimization.Text.Quoted

namespace Minimization

/-!
# Directives

A directive says how a value is written into a line: as in `%(level)+08.3f`, a name in parentheses
is followed by flags, a width, a precision and a letter.

* `Directive.take?` — reads a directive.
* `Directive.writtenWhole?`, `Directive.writtenText?` — a value in the form that the letter asks
  for; not every letter fits every value.
* `Directive.write?` — the value in this form, brought to the width.
-/

/-- How a value is written. -/
structure Directive where
  name : String
  flags : List Char
  width : Nat
  precision : Option Nat
  letter : Char
deriving Repr

/-- What a directive may be filled with. -/
inductive Value where
  | whole (n : Int)
  | text (s : String)
deriving Repr

/-- A written value.  Zeros that bring it to a width go between lead and body. -/
structure Written where
  /-- The sign and the mark of the base. -/
  lead : List Char
  body : List Char
  /-- The width may be reached with zeros. -/
  zeros : Bool

/-! ### Reading -/

/-- A name up to the parenthesis that closes it, and the rest; `depth` parentheses within it are
    open. -/
def takeName? : Nat → List Char → Option (List Char × List Char)
  | _, [] => none
  | 0, ')' :: rest => some ([], rest)
  | depth, c :: rest =>
    let depth := if c = '(' then depth + 1 else if c = ')' then depth - 1 else depth
    (takeName? depth rest).map fun (name, rest) => (c :: name, rest)

/-- The number that some decimal digits denote. -/
def numberOfDigits (ds : List Char) : Nat := ds.foldl (fun n c => 10 * n + (c.toNat - 48)) 0

/-- A number in front of a text, zero without digits, and the rest. -/
def takeNumber (cs : List Char) : Nat × List Char :=
  (numberOfDigits (cs.takeWhile Char.isDigit), cs.dropWhile Char.isDigit)

/-- The precision behind a point, and the rest. -/
def takePrecision : List Char → Option Nat × List Char
  | '.' :: rest => ((takeNumber rest).1, (takeNumber rest).2)
  | rest => (none, rest)

/-- Leaves out a letter for the size of a number, which has no meaning here. -/
def dropSize : List Char → List Char
  | 'h' :: rest => rest
  | 'l' :: rest => rest
  | 'L' :: rest => rest
  | rest => rest

/-- Widths and precisions are below this. -/
def Directive.sizeLimit : Nat := twoPow 31

/-- Reads the part of a directive behind `%(`, and the rest of the text. -/
def Directive.take? (cs : List Char) : Option (Directive × List Char) := do
  let (name, rest) ← takeName? 0 cs
  let isFlag (c : Char) : Bool := "#0+ -".toList.contains c
  let flags := rest.takeWhile isFlag
  let (width, rest) := takeNumber (rest.dropWhile isFlag)
  let (precision, rest) := takePrecision rest
  match dropSize rest with
  | letter :: rest =>
    if width < sizeLimit && precision.getD 0 < sizeLimit then
      return (⟨String.ofList name, flags, width, precision, letter⟩, rest)
    else none
  | [] => none

/-! ### Writing -/

namespace Directive

/-- The sign in front of a number; flags may ask for one also in front of a positive number. -/
def sign (d : Directive) (n : Int) : List Char :=
  if n < 0 then ['-']
  else if d.flags.contains '+' then ['+']
  else if d.flags.contains ' ' then [' ']
  else []

/-- A flag asks for the mark of the base, and for a point in any case. -/
def isMarked (d : Directive) : Bool := d.flags.contains '#'

/-- A whole number in a base, with at least as many digits as the precision says. -/
def wholeDigits (d : Directive) (base : Nat) (mark : List Char) (n : Int) : Written :=
  let ds := Nat.toDigits base n.natAbs
  { lead := d.sign n ++ (if d.isMarked then mark else [])
    body := List.replicate (d.precision.getD 0 - ds.length) '0' ++ ds
    zeros := true }

/-- A whole number as the double nearest to it; there are six places unless a precision is given. -/
def realDigits (d : Directive) (form : Bool → Nat → Magnitude → List Char) (n : Int) :
    Option Written :=
  (Magnitude.ofNat? n.natAbs).map fun x =>
    ⟨d.sign n, form d.isMarked (d.precision.getD 6) x, true⟩

/-- A text, cut off at the precision. -/
def cut (d : Directive) (s : String) : Written :=
  let cs := s.toList
  ⟨[], (d.precision.map cs.take).getD cs, false⟩

/-- Lets the letters of a number be capitals. -/
def capital (w : Written) : Written := ⟨w.lead.map Char.toUpper, w.body.map Char.toUpper, w.zeros⟩

/-- A whole number in the form that the letter asks for. -/
def writtenWhole? (d : Directive) (n : Int) : Option Written :=
  match d.letter with
  | 'd' | 'i' | 'u' => some (d.wholeDigits 10 [] n)
  | 'o' => some (d.wholeDigits 8 ['0', 'o'] n)
  | 'x' => some (d.wholeDigits 16 ['0', 'x'] n)
  | 'X' => some (capital (d.wholeDigits 16 ['0', 'x'] n))
  | 'e' => d.realDigits Magnitude.scientificDigits n
  | 'E' => (d.realDigits Magnitude.scientificDigits n).map capital
  | 'f' | 'F' => d.realDigits Magnitude.fixedDigits n
  | 'g' => d.realDigits Magnitude.generalDigits n
  | 'G' => (d.realDigits Magnitude.generalDigits n).map capital
  | 'c' => if 0 ≤ n ∧ n < 0x110000 then some ⟨[], [unitChar n.toNat], false⟩ else none
  | 's' | 'r' | 'a' => some (d.cut (toString n))
  | _ => none

/-- A text in the form that the letter asks for. -/
def writtenText? (d : Directive) (s : String) : Option Written :=
  match d.letter with
  | 'c' => if s.length = 1 then some ⟨[], s.toList, false⟩ else none
  | 's' => some (d.cut s)
  | 'r' => some (d.cut (quoted s))
  | 'a' => some (d.cut (plainQuoted s))
  | _ => none

/-- Brings a written value to the width: on the left, with zeros, or on the right. -/
def align (d : Directive) (w : Written) : List Char :=
  let room := d.width - (w.lead.length + w.body.length)
  if d.flags.contains '-' then w.lead ++ w.body ++ List.replicate room ' '
  else if d.flags.contains '0' && w.zeros then w.lead ++ List.replicate room '0' ++ w.body
  else List.replicate room ' ' ++ w.lead ++ w.body

/-- A value as the directive says, unless the letter does not fit it. -/
def write? (d : Directive) : Value → Option (List Char)
  | .whole n => (d.writtenWhole? n).map d.align
  | .text s => (d.writtenText? s).map d.align

end Directive

end Minimization
