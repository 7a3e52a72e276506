import Minimization.Observer.Kinds
import Minimization.Scalar.Double
import Minimization.Tensor.Nested
import Minimization.Text.Json

namespace Minimization.Saved

/-!
# The contents of files with saved points

* `json` — iteration, cost and point as a JSON object.
* `arrayBytes` — the point as a binary array file: a mark, a header that tells type and shape, and
  the doubles of all entries, low byte first.
-/

mutual

/-- Nested lists of doubles. -/
def nestedJson : Nested Double → Json
  | .entry x => .real x.value
  | .list items => .arr (nestedJsonOfEach items)

/-- The documents of some nested lists. -/
def nestedJsonOfEach : List (Nested Double) → List Json
  | [] => []
  | v :: vs => nestedJson v :: nestedJsonOfEach vs

end

/-- Iteration, cost and point. -/
def json (s : Saved Double) : Json :=
  .obj [("iter", .int s.iter), ("cost", .real s.cost.value), ("param", nestedJson s.param.nested)]

/-- The low bytes of a number, lowest first. -/
def littleEndian : Nat → Nat → List Nat
  | 0, _ => []
  | count + 1, n => n % 256 :: littleEndian count (n / 256)

/-- The lengths of the axes as a tuple. -/
def shapeText : List Nat → String
  | [] => "()"
  | [n] => "(" ++ toString n ++ ",)"
  | ns => "(" ++ ", ".intercalate (ns.map toString) ++ ")"

/-- The axes of a saved array: behind an axis without positions there are none. -/
def savedShape : List Nat → List Nat
  | [] => []
  | 0 :: _ => [0]
  | n :: ns => n :: savedShape ns

/-- The header of an array file, filled up with blanks and a line break so that it ends, with the
    ten bytes in front of it, at a multiple of sixty-four. -/
def header (shape : List Nat) : List Nat :=
  let text := "\x7b'descr': '<f8', 'fortran_order': False, 'shape': " ++ shapeText shape ++
    ", \x7d"
  let bytes := text.toList.map Char.toNat
  -- Between one and sixty-four blanks, never none.
  let blanks := 64 - (10 + bytes.length + 1) % 64
  bytes ++ List.replicate blanks 32 ++ [10]

/-- The bytes of an array file. -/
def arrayBytes (s : Saved Double) : List Nat :=
  let head := header (savedShape s.param.shape)
  [0x93, 0x4e, 0x55, 0x4d, 0x50, 0x59, 1, 0] ++ littleEndian 2 head.length ++ head ++
    s.param.entries.flatMap fun x => littleEndian 8 x.bits

/-- Bytes in hexadecimal digits. -/
def hexText (bytes : List Nat) : String := String.ofList (bytes.flatMap (hexDigits 2))

/-- The contents of a file in its format; binary files in hexadecimal digits. -/
def text (format : FileFormat) (s : Saved Double) : String :=
  match format with
  | .json => s.json.text
  | .npy => hexText s.arrayBytes

end Minimization.Saved
