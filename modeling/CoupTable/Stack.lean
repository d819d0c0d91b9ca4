import CoupTable.Claim

/-!
# The stack of suspended steps

Between two presses the course of a game lives on a stack. Each frame is a step that waits for
somebody: only the frame on top sees what players press, and when it is done it is taken off and
the frame below goes on. The turn itself lies at the bottom.
-/

namespace CoupTable

/-- A claim that was challenged: the claimant has to show what was claimed. -/
structure Reveal where
  /-- Who doubts the claim. -/
  challenger : Nat
  /-- Who made the claim. -/
  challenged : Nat
  /-- The clans that the claim is about. -/
  clans : ClanSet
  /-- Whether the claim is *not* to have the clans. -/
  inverted : Bool := false
deriving DecidableEq, Repr

/-- A player who chooses among the own living cards and cards from the deck. -/
structure Exchange where
  /-- Who exchanges cards. -/
  player : Nat
  /-- The hand that the player ends up with: the dead cards, then those kept so far. -/
  hand : List Card
  /-- The cards to choose from. -/
  offered : List Character
deriving DecidableEq, Repr

/-- A player who has to show a card to the inquisitor. -/
structure Interrogation where
  /-- Who looks at the card. -/
  inquisitor : Nat
  /-- Who shows it. -/
  target : Nat
  /-- The slot of the card shown, once it is chosen. -/
  shown : Option Nat := none
deriving DecidableEq, Repr

/-- A suspended step. -/
inductive Frame where
  /-- The current player chooses what to do. -/
  | turn
  /-- The table chooses the variant. -/
  | variantChoice
  /-- A player has to lose a card. -/
  | loss (seat : Nat)
  /-- A claim waits for the table. -/
  | claim (c : Claim)
  /-- A claim was challenged. -/
  | reveal (r : Reveal)
  /-- A player exchanges cards. -/
  | exchange (e : Exchange)
  /-- A player is interrogated. -/
  | interrogation (i : Interrogation)
deriving DecidableEq, Repr

namespace Frame

/-- The name of the step. -/
def name : Frame → String
  | turn => "choose_action"
  | variantChoice => "choose_game_type"
  | loss _ => "lose_card"
  | claim _ => "challenge"
  | reveal _ => "reveal"
  | exchange _ => "exchange"
  | interrogation _ => "interrogate"

/-- The alarm that goes with the step, if there is one. -/
def alarm : Frame → Option AlarmId
  | claim c => c.alarm
  | turn | variantChoice | loss _ | reveal _ | exchange _ | interrogation _ => none

end Frame

/-- The suspended steps, the one that is on first. -/
structure Stack where
  /-- The frames, from the top down. -/
  frames : List Frame := []
deriving DecidableEq, Repr

namespace Stack

/-- How many frames a stack may hold. -/
def maxDepth : Nat := 8

/-- The number of frames. -/
def depth (s : Stack) : Nat := s.frames.length

/-- Whether there is no frame. -/
def isEmpty (s : Stack) : Bool := s.frames.isEmpty

/-- The frame on top. -/
def top? (s : Stack) : Option Frame := s.frames.head?

/-- Puts a frame on top. -/
def push (s : Stack) (f : Frame) : Except Fault Stack :=
  if s.depth < maxDepth then .ok ⟨f :: s.frames⟩ else .error (.stackOverflow f.name)

/-- Takes the top frame off. -/
def pop (s : Stack) : Except Fault (Frame × Stack) :=
  match s.frames with
  | [] => .error .emptyStack
  | f :: rest => .ok (f, ⟨rest⟩)

/-- The stack with another frame in place of the top one. -/
def setTop (s : Stack) (f : Frame) : Stack := ⟨f :: s.frames.tail⟩

/-- The names of the frames, from the bottom up. -/
def names (s : Stack) : List String := s.frames.reverse.map (·.name)

end Stack

end CoupTable
