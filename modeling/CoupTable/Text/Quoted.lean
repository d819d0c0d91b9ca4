import CoupTable.Text.Plain

/-!
# Quoted text

A text between double quotes in which every character can be told from every other: the quote and
the backslash are escaped, four controls have short escapes, and what does not stand for itself is
written by its number in hexadecimal.
-/

namespace CoupTable.Text

/-- A character as it stands inside quotes. -/
def quoteChar (c : Char) : List Char :=
  if c == '\x00' then ['\\', '0']
  else if c == '\t' then ['\\', 't']
  else if c == '\r' then ['\\', 'r']
  else if c == '\n' then ['\\', 'n']
  else if c == '"' then ['\\', '"']
  else if c == '\\' then ['\\', '\\']
  else if isPlain c then [c]
  else ['\\', 'u', '\x7b'] ++ Nat.toDigits 16 c.toNat ++ ['\x7d']

/-- The text between double quotes. -/
def quote (cs : List Char) : String :=
  String.ofList ('"' :: cs.flatMap quoteChar ++ ['"'])

end CoupTable.Text
