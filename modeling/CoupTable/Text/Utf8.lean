/-!
# Text as bytes

Files and input lines are bytes that need not be UTF-8. `encode` gives the bytes of a text, and
`decode?` reads them back, refusing what is not UTF-8.
-/

namespace CoupTable.Text

/-- The UTF-8 bytes of a text. -/
def encode (s : String) : List UInt8 :=
  s.toUTF8.data.toList

/-- The text that the bytes stand for, if they are UTF-8. -/
def decode? (bytes : List UInt8) : Option String :=
  String.fromUTF8? ⟨bytes.toArray⟩

/-- Reading the bytes of a text gives the text. -/
theorem decode?_encode (s : String) : decode? (encode s) = some s := by
  simp only [decode?, encode, String.fromUTF8?, String.toUTF8_eq_toByteArray, Array.toArray_toList,
    dif_pos s.isValidUTF8]
  rfl

end CoupTable.Text
