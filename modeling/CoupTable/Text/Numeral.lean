/-!
# Numerals

Numbers in button data, in tables and on the command line are words: naturals below `2^64`. They
are written in decimal digits, without a sign.
-/

namespace CoupTable.Text

/-- The first number that is no word, `2^64`. -/
def wordLimit : Nat := 0x10000000000000000

/-- The value of one or more decimal digits. -/
def natural? (cs : List Char) : Option Nat :=
  if cs.isEmpty || !cs.all Char.isDigit then none else some (Nat.ofDigitChars 10 cs 0)

/-- The word that one or more decimal digits stand for; leading zeros do no harm. -/
def word? (cs : List Char) : Option Nat :=
  (natural? cs).filter (· < wordLimit)

/-- The value of a hexadecimal digit. -/
def hexDigit? (c : Char) : Option Nat :=
  if c.isDigit then some (c.toNat - 0x30)
  else if 'a' ≤ c && c ≤ 'f' then some (c.toNat - 0x57)
  else if 'A' ≤ c && c ≤ 'F' then some (c.toNat - 0x37)
  else none

/-- The word that one or more hexadecimal digits stand for. -/
def hexWord? (cs : List Char) : Option Nat :=
  if cs.isEmpty then none
  else (cs.foldlM (fun n c => (hexDigit? c).map (16 * n + ·)) 0).filter (· < wordLimit)

/-- The characters without a leading plus sign. -/
def dropPlus : List Char → List Char
  | '+' :: cs => cs
  | cs => cs

end CoupTable.Text
