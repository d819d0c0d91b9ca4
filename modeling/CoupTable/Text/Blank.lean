/-!
# White space

The characters with the Unicode property `White_Space`, and what the table does with them: a name
is trimmed before it counts as empty, and a line of a session is trimmed and cut at its first blank.
-/

namespace CoupTable.Text

/-- Whether the character has the Unicode property `White_Space`. -/
def isBlank (c : Char) : Bool :=
  let n := c.toNat
  (0x9 ≤ n && n ≤ 0xD) || n == 0x20 || n == 0x85 || n == 0xA0 || n == 0x1680
    || (0x2000 ≤ n && n ≤ 0x200A) || n == 0x2028 || n == 0x2029 || n == 0x202F
    || n == 0x205F || n == 0x3000

/-- The characters without the blanks in front of them and behind them. -/
def trim (cs : List Char) : List Char :=
  ((cs.dropWhile isBlank).reverse.dropWhile isBlank).reverse

/-- What stands before the first blank and what stands after it, if there is a blank. -/
def splitAtBlank? : List Char → Option (List Char × List Char)
  | [] => none
  | c :: cs =>
    if isBlank c then some ([], cs)
    else (splitAtBlank? cs).map fun (word, rest) => (c :: word, rest)

end CoupTable.Text
