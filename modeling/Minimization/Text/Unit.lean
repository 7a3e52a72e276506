namespace Minimization

/-!
# Units of UTF-16

A character beyond the first plane is written as a pair of units.  Half a pair that stands alone is
no character; a private character of the last plane, which has the same last digits, stands for it.

* `unitChar`, `pairChar` — the character of one unit, and of a pair.
* `units` — the units of a character.
-/

/-- The first half of a pair. -/
def isLeadingUnit (n : Nat) : Bool := 0xd800 ≤ n && n < 0xdc00

/-- The second half of a pair. -/
def isTrailingUnit (n : Nat) : Bool := 0xdc00 ≤ n && n < 0xe000

/-- The character of a number, which may be half a pair. -/
def unitChar (n : Nat) : Char :=
  Char.ofNat (if isLeadingUnit n || isTrailingUnit n then 0x100000 + n else n)

/-- The character of a pair. -/
def pairChar (leading trailing : Nat) : Char :=
  Char.ofNat (0x10000 + (leading - 0xd800) * 1024 + (trailing - 0xdc00))

/-- The number of a character, or that of the half pair it stands for. -/
def codePoint (c : Char) : Nat :=
  if 0x10d800 ≤ c.toNat ∧ c.toNat < 0x10e000 then c.toNat - 0x100000 else c.toNat

/-- The units of a character. -/
def units (c : Char) : List Nat :=
  let n := codePoint c
  if n < 0x10000 then [n]
  else [0xd800 + (n - 0x10000) / 1024, 0xdc00 + (n - 0x10000) % 1024]

end Minimization
