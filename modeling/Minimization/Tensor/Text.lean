import Minimization.Scalar.Double
import Minimization.Tensor.Basic

namespace Minimization.Tensor

/-!
# Tensors as aligned text

All entries of a tensor are written in one style, chosen from its finite entries, and padded to a
common width.  Rows stand in brackets; a row that does not fit a line goes on in the next one.  Of a
tensor with more than a thousand entries, long axes show only their ends.

* `EntryStyle.ofEntries` — positional style with at most eight places, or exponent style if the
  sizes are large, small, or far apart.
* `EntryStyle.word` — one entry.
* `shownParts`, `shownEntries` — what is shown of an axis, and of all axes.
* `text` — the whole tensor.
-/

/-- Digits that a style keeps after the point. -/
def textPlaces : Nat := 8

/-- The columns of a line. -/
def lineColumns : Nat := 75

/-- The decimal written in positional style: the shortest one, or the entry rounded to the last
    place kept. -/
def positionalDecimal (size : Magnitude) (least : Bool) : Decimal :=
  let d := size.shortest least
  if d.exponent < -(textPlaces : Int) then (size.toPlaces (-(textPlaces : Int))).trimmed else d

/-- The decimal written in exponent style: the shortest one, or the entry rounded to the last digit
    kept. -/
def exponentDecimal (size : Magnitude) (least : Bool) : Decimal :=
  let d := size.shortest least
  if textPlaces + 1 < d.digits.length then (size.toDigits (textPlaces + 1)).trimmed else d

/-- Sign and digits before the point, and digits after it, in positional style. -/
def positionalParts (negative : Bool) (size : Magnitude) (least : Bool) :
    List Char × List Char :=
  let d := positionalDecimal size least
  let (whole, part) := if d.coefficient = 0 then (['0'], []) else d.split
  (if negative then '-' :: whole else whole, part)

/-- Sign and first digit, the other digits, and the exponent, in exponent style. -/
def exponentParts (negative : Bool) (size : Magnitude) (least : Bool) :
    List Char × List Char × Int :=
  let d := exponentDecimal size least
  let e := if d.coefficient = 0 then 0 else d.leadingExponent
  ((if negative then ['-'] else []) ++ d.digits.take 1, d.digits.drop 1, e)

/-- How the entries of one tensor are written. -/
inductive EntryStyle where
  /-- Columns before and after the point. -/
  | positional (left right : Nat)
  /-- Columns before the point, digits after it, and digits of the exponent. -/
  | exponent (left places marks : Nat)
deriving Repr

/-- Digits of a decimal exponent, at least two. -/
def exponentDigits (e : Int) : Nat := max 2 (Nat.toDigits 10 e.natAbs).length

namespace EntryStyle

/-- The columns after the point. -/
def right : EntryStyle → Nat
  | .positional _ right => right
  | .exponent _ places marks => marks + 2 + places

/-- The columns before the point. -/
def left : EntryStyle → Nat
  | .positional left _ => left
  | .exponent left _ _ => left

/-- Makes room before the point. -/
def widen (columns : Nat) : EntryStyle → EntryStyle
  | .positional left right => .positional (max left columns) right
  | .exponent left places marks => .exponent (max left columns) places marks

/-- The largest of some lengths. -/
def widest (lengths : List Nat) : Nat := lengths.foldl max 0

/-- Exponent style is due for sizes of `1e8` and more, for sizes below `1e-4`, and for sizes more
    than a factor of `1000` apart; zeros do not count. -/
def wantsExponent (finite : List Float) : Bool :=
  match (finite.map Float.abs).filter (fun x => 0 < x) with
  | [] => false
  | x :: xs =>
    let high := xs.foldl (fun a b => if a < b then b else a) x
    let low := xs.foldl (fun a b => if b < a then b else a) x
    1e8 ≤ high || low < 0.0001 || 1000.0 < high / low

/-- The style of finite entries. -/
def ofFinite (finite : List Float) : EntryStyle :=
  let parts := finite.map DoubleParts.ofFloat
  -- Every part of an entry gets as many columns as the widest one needs.
  if finite.isEmpty then .positional 0 0
  else if wantsExponent finite then
    let written := parts.filterMap fun
      | .finite negative size least => some (exponentParts negative size least)
      | _ => none
    .exponent (widest (written.map fun (lead, _, _) => lead.length))
      (widest (written.map fun (_, rest, _) => rest.length))
      (widest (written.map fun (_, _, e) => exponentDigits e))
  else
    let written := parts.filterMap fun
      | .finite negative size least => some (positionalParts negative size least)
      | _ => none
    .positional (widest (written.map fun (whole, _) => whole.length))
      (widest (written.map fun (_, part) => part.length))

/-- The style of all entries: words for values that are not finite need three columns, or four if
    one of them is negative. -/
def ofEntries (entries : List Float) : EntryStyle :=
  let finite := entries.filter fun x => x.isFinite
  let style := ofFinite finite
  if finite.length = entries.length then style
  else
    -- The column of the point is part of the room.
    let columns := if entries.any fun x => x.isInf && x < 0 then 4 else 3
    style.widen (columns - (style.right + 1))

/-- Puts blanks in front up to a count of columns. -/
def padLeft (columns : Nat) (cs : List Char) : List Char :=
  List.replicate (columns - cs.length) ' ' ++ cs

/-- Puts a filling character behind up to a count of columns. -/
def padRight (fill : Char) (columns : Nat) (cs : List Char) : List Char :=
  cs ++ List.replicate (columns - cs.length) fill

/-- One entry in the common style. -/
def word (style : EntryStyle) (x : Float) : List Char :=
  match DoubleParts.ofFloat x with
  -- What is not finite takes the columns on both sides of the point, and that of the point.
  | .nan => padLeft (style.left + style.right + 1) "nan".toList
  | .infinite negative =>
    padLeft (style.left + style.right + 1) (nonFiniteText negative).toList
  | .finite negative size least =>
    match style with
    | .positional left right =>
      let (whole, part) := positionalParts negative size least
      padLeft left whole ++ '.' :: padRight ' ' right part
    | .exponent left places marks =>
      let (lead, rest, e) := exponentParts negative size least
      let ds := Nat.toDigits 10 e.natAbs
      padLeft left lead ++ '.' :: padRight '0' places rest ++
        'e' :: (if e < 0 then '-' else '+') :: (List.replicate (marks - ds.length) '0' ++ ds)

end EntryStyle

/-- Removes blanks at the end. -/
def dropTrailingBlanks (cs : List Char) : List Char := (cs.reverse.dropWhile (· == ' ')).reverse

/-- Sets words one after another; `line` is the line under construction and starts with `indent`
    blanks.  A word that would pass the last column starts a new line, unless the line is empty. -/
def fillLines (indent columns : Nat) : List (List Char) → List Char → List Char
  | [], line => line
  | [w], line =>
    if columns < line.length + w.length ∧ indent < line.length then
      dropTrailingBlanks line ++ '\n' :: List.replicate indent ' ' ++ w
    else line ++ w
  | w :: ws, line =>
    if columns < line.length + w.length ∧ indent < line.length then
      dropTrailingBlanks line ++ '\n' ::
        fillLines indent columns ws (List.replicate indent ' ' ++ w ++ [' '])
    else fillLines indent columns ws (line ++ w ++ [' '])

/-- One row in brackets; `depth` brackets are open around it. -/
def rowText (depth : Nat) (words : List (List Char)) : List Char :=
  let indent := depth + 1
  let filled := fillLines indent (lineColumns - depth - 1) words (List.replicate indent ' ')
  '[' :: filled.drop indent ++ [']']

/-! ### Tensors with many entries -/

/-- A tensor with more entries is shortened. -/
def entryLimit : Nat := 1000

/-- How many parts are shown at either end of a shortened axis. -/
def endParts : Nat := 3

/-- What stands for the parts that are not shown. -/
def gapWord : List Char := ['.', '.', '.']

/-- The parts of an axis that are shown, with `none` for those left out. -/
def shownParts {β : Type} (shortened : Bool) (parts : List β) : List (Option β) :=
  if shortened && 2 * endParts < parts.length then
    (parts.take endParts).map some ++ none :: (parts.drop (parts.length - endParts)).map some
  else parts.map some

/-- The entries that are shown of a shortened tensor. -/
def shownEntries {β : Type} : List Nat → List β → List β
  | [], xs => xs
  | n :: ns, xs => (shownParts true (pieces n (volume ns) xs)).flatMap fun part =>
    (part.map (shownEntries ns)).getD []

/-- The entries along some axes; `depth` brackets are open around them.  Parts with axes of their
    own stand in lines of their own, with more line breaks the more axes they have. -/
def blockText (style : EntryStyle) (shortened : Bool) : Nat → List Nat → List Float → List Char
  | _, [], xs => xs.flatMap style.word
  | depth, [_], xs =>
    rowText depth ((shownParts shortened xs).map fun x => (x.map style.word).getD gapWord)
  | depth, n :: ns, xs =>
    let parts := (shownParts shortened (pieces n (volume ns) xs)).map fun part =>
      (part.map (blockText style shortened (depth + 1) ns)).getD gapWord
    let line := List.replicate ns.length '\n' ++ List.replicate (depth + 1) ' '
    '[' :: List.intercalate line parts ++ [']']

/-- A tensor of doubles as text. -/
def text (t : Tensor Double) : String :=
  let xs := t.entries.map (·.value)
  let shortened := entryLimit < xs.length
  let style := EntryStyle.ofEntries (if shortened then shownEntries t.shape xs else xs)
  match t.shape, xs with
  | [], [x] => shortestText x
  | _, [] => "[]"
  | shape, xs => String.ofList (blockText style shortened 0 shape xs)

end Minimization.Tensor
