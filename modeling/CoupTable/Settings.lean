import CoupTable.Alarms
import CoupTable.Variant

/-!
# Settings

Everything needed to set up a table apart from the players' names.
-/

namespace CoupTable

/-- The settings of a table. -/
structure Settings where
  /-- The variant; without one the players choose it at the table. -/
  variant : Option Variant := none
  /-- Who begins; without one it is drawn. -/
  startPlayer : Option Nat := none
  /-- The seed of the generator; without one the generator comes from outside. -/
  seed : Option Nat := none
  /-- The cards that are dealt first, in order. -/
  cardOverrides : List Character := []
  /-- How long the table waits for objections, in milliseconds. -/
  waitMillis : Nat := 60000
deriving DecidableEq, Repr

namespace Settings

/-- How long the table waits for objections, in nanoseconds. -/
def waitTime (s : Settings) : Nat := s.waitMillis * millisecond

end Settings

end CoupTable
