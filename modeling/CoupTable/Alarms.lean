import CoupTable.Fault
import CoupTable.Text.Numeral

/-!
# Alarms

Alarms on a virtual clock. The clock stands still until it is moved, and moving it hands out the
alarms that became due. Time is counted in nanoseconds and ends before `2^64` seconds.

## Main definitions

* `Alarms.arm`, `Alarms.cancel`, `Alarms.advance`: set an alarm, take it back, move the clock.
-/

namespace CoupTable

/-- What tells alarms apart: they are numbered from zero in the order in which they are set. -/
abbrev AlarmId := Nat

/-- The nanoseconds of a second. -/
def second : Nat := 1000000000

/-- The nanoseconds of a millisecond. -/
def millisecond : Nat := 1000000

/-- Where the clock ends: the seconds on it are a word. -/
def clockEnd : Nat := Text.wordLimit * second

/-- A clock and the alarms set on it. -/
structure Alarms where
  /-- The time on the clock. -/
  now : Nat := 0
  /-- The number of the next alarm. -/
  next : AlarmId := 0
  /-- The alarms that are set and the times at which they fall due, by number. -/
  pending : List (AlarmId × Nat) := []
deriving DecidableEq, Repr

namespace Alarms

/-- Whether an alarm is set. -/
def isPending (a : Alarms) (id : AlarmId) : Bool := a.pending.any (·.1 == id)

/-- The point in time that lies `delay` ahead. -/
def after (a : Alarms) (delay : Nat) : Except Fault Nat :=
  if a.now + delay < clockEnd then .ok (a.now + delay) else .error .clockOverflow

/-- Sets an alarm. -/
def arm (a : Alarms) (delay : Nat) : Except Fault (AlarmId × Alarms) := do
  let due ← a.after delay
  return (a.next, { a with next := a.next + 1, pending := a.pending ++ [(a.next, due)] })

/-- Takes an alarm back; nothing changes if it is not set. -/
def cancel (a : Alarms) (id : AlarmId) : Alarms :=
  { a with pending := a.pending.filter (·.1 != id) }

/-- Moves the clock. The alarms that became due are handed out, the earliest first and in order of
their numbers where they are due together, and are set no longer. -/
def advance (a : Alarms) (delay : Nat) : Except Fault (List AlarmId × Alarms) := do
  let now ← a.after delay
  let (due, rest) := a.pending.partition (·.2 ≤ now)
  let inOrder := due.mergeSort fun x y => x.2 ≤ y.2
  return (inOrder.map (·.1), { a with now, pending := rest })

end Alarms

end CoupTable
