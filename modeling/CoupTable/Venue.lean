import CoupTable.Alarms
import CoupTable.Message

/-!
# The venue

Where a game is played: it carries messages, runs alarms, and is told when the game is over. Here
everything is kept in memory.
-/

namespace CoupTable

/-- The messages sent so far, the alarms, and how often the end of the game was reported. -/
structure Venue where
  /-- The messages, the newest first. -/
  outbox : List Message := []
  /-- The clock and its alarms. -/
  alarms : Alarms := {}
  /-- How often the end of the game was reported. -/
  gameOvers : Nat := 0
deriving DecidableEq, Repr

namespace Venue

/-- The messages, the oldest first. -/
def messages (v : Venue) : List Message := v.outbox.reverse

/-- Sends a message. -/
def send (v : Venue) (m : Message) : Venue := { v with outbox := m :: v.outbox }

/-- Sends a message to everyone. -/
def broadcast (v : Venue) (text : String) (buttons : List Button := []) : Venue :=
  v.send ⟨.everyone, text, buttons⟩

/-- Sends a message to one player. -/
def tell (v : Venue) (seat : Nat) (text : String) (buttons : List Button := []) : Venue :=
  v.send ⟨.player seat, text, buttons⟩

/-- Hears that the game is over. -/
def reportOver (v : Venue) : Venue := { v with gameOvers := v.gameOvers + 1 }

/-- Sets an alarm. -/
def arm (v : Venue) (delay : Nat) : Except Fault (AlarmId × Venue) := do
  let (id, alarms) ← v.alarms.arm delay
  return (id, { v with alarms })

/-- Takes an alarm back. -/
def cancel (v : Venue) (id : AlarmId) : Venue := { v with alarms := v.alarms.cancel id }

/-- Moves the clock, and hands out the alarms that became due. -/
def advance (v : Venue) (delay : Nat) : Except Fault (List AlarmId × Venue) := do
  let (due, alarms) ← v.alarms.advance delay
  return (due, { v with alarms })

/-- Forgets the messages sent so far. -/
def clear (v : Venue) : Venue := { v with outbox := [] }

/-- The newest message to everyone. -/
def lastBroadcast? (v : Venue) : Option Message := v.outbox.find? (·.recipient == .everyone)

/-- The newest message to a player. -/
def lastPrivate? (v : Venue) (seat : Nat) : Option Message :=
  v.outbox.find? (·.recipient == .player seat)

/-- The texts of the messages to everyone, the oldest first. -/
def broadcasts (v : Venue) : List String :=
  (v.messages.filter (·.recipient == .everyone)).map (·.text)

end Venue

end CoupTable
