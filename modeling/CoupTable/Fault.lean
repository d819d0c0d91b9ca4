/-!
# Faults

What must not happen in a running game. Nothing that a player does is a fault: a press that is not
allowed is ignored. A fault ends the game on the spot.
-/

namespace CoupTable

/-- Why a game cannot go on. -/
inductive Fault where
  /-- A frame was pushed onto a full stack. -/
  | stackOverflow (frame : String)
  /-- A frame was taken off an empty stack. -/
  | emptyStack
  /-- A card was drawn from an empty deck. -/
  | emptyDeck
  /-- A point in time lies beyond the end of the clock. -/
  | clockOverflow
  /-- There is no player in that seat. -/
  | noSeat (seat : Nat)
  /-- There is no living card in that slot. -/
  | noCard (seat slot : Nat)
  /-- A claim was expected on top of the stack. -/
  | noClaim
  /-- A claim was made that nobody could oppose. -/
  | idleClaim
  /-- A player was charged more coins than there are. -/
  | overdrawn (seat : Nat)
deriving DecidableEq, Repr

/-- The text of a fault. -/
def Fault.message : Fault → String
  | stackOverflow frame => s!"continuation stack overflow pushing {frame}"
  | emptyStack => "popped an empty continuation stack"
  | emptyDeck => "tried to draw from an empty deck"
  | clockOverflow => "overflow when adding durations"
  | noSeat seat => s!"no player in seat {seat}"
  | noCard seat slot => s!"no living card in slot {slot} of seat {seat}"
  | noClaim => "expected a challenge on top of the stack"
  | idleClaim => "a claim that nobody can oppose"
  | overdrawn seat => s!"player {seat} cannot pay"

end CoupTable
