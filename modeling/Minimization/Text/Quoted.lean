import Minimization.Text.Hidden
import Minimization.Text.Unit

namespace Minimization

/-!
# Quoted texts

* `quoted` — a text in single quotes; in double quotes if it holds a single quote and no double one.
  The quote in use, backslashes and characters that leave no mark are escaped.
* `plainQuoted` — the same in ASCII: all other characters are escaped too.
-/

/-- Hexadecimal digits, at least `width`. -/
def hexDigits (width n : Nat) : List Char :=
  let ds := Nat.toDigits 16 n
  List.replicate (width - ds.length) '0' ++ ds

/-- A character by its code point, in as few digits as hold it. -/
def codeEscape (c : Char) : List Char :=
  let n := codePoint c
  if n < 0x100 then '\\' :: 'x' :: hexDigits 2 n
  else if n < 0x10000 then '\\' :: 'u' :: hexDigits 4 n
  else '\\' :: 'U' :: hexDigits 8 n

/-- One character between quotes; `escaped` says which characters are written by their codes. -/
def quotedChar (escaped : Char → Bool) (quote c : Char) : List Char :=
  if c = quote ∨ c = '\\' then ['\\', c]
  else if c = '\n' then ['\\', 'n']
  else if c = '\r' then ['\\', 'r']
  else if c = '\t' then ['\\', 't']
  else if escaped c then codeEscape c
  else [c]

/-- A text in the quotes that need fewer escapes. -/
def quotedBy (escaped : Char → Bool) (s : String) : String :=
  let cs := s.toList
  let quote := if cs.contains '\'' && !cs.contains '"' then '"' else '\''
  String.ofList (quote :: cs.flatMap (quotedChar escaped quote) ++ [quote])

/-- A text in quotes. -/
def quoted (s : String) : String := quotedBy isHidden s

/-- A text in quotes and in ASCII. -/
def plainQuoted (s : String) : String := quotedBy (fun c => isHidden c || 127 < c.toNat) s

end Minimization
