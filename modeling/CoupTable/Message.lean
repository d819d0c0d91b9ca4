/-!
# Messages

What players get to read: texts to everyone or to one of them, with buttons under them.
-/

namespace CoupTable

/-- A button under a message. -/
structure Button where
  /-- What the button says. -/
  label : String
  /-- What comes back when it is pressed. -/
  data : String
deriving DecidableEq, Repr

/-- Who reads a message. -/
inductive Recipient where
  /-- The whole table. -/
  | everyone
  /-- One player, by seat. -/
  | player (seat : Nat)
deriving DecidableEq, Repr

/-- A text with buttons. -/
structure Message where
  /-- Who reads it. -/
  recipient : Recipient
  /-- What it says. -/
  text : String
  /-- The buttons under it. -/
  buttons : List Button := []
deriving DecidableEq, Repr

end CoupTable
