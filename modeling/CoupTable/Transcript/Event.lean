import CoupTable.Alarms

/-!
# Events

What came into a game from outside, one row of a transcript each: a press or a wait.
-/

namespace CoupTable

/-- What kind of thing happened. -/
inductive Event.Kind where
  /-- Somebody pressed a button. -/
  | press
  /-- Time passed. -/
  | wait
deriving DecidableEq, Repr

/-- Something that came into a game. Fields that its kind does not need may be filled or not. -/
structure Event where
  /-- What happened. -/
  kind : Event.Kind
  /-- Who pressed. -/
  player : Option Nat := none
  /-- What was pressed. -/
  data : Option String := none
  /-- How long was waited. -/
  millis : Option Nat := none
deriving DecidableEq, Repr

namespace Event

/-- A press. -/
def press (player : Nat) (data : String) : Event :=
  { kind := .press, player := some player, data := some data }

/-- A wait of some nanoseconds, in whole milliseconds; as many as a word can hold. -/
def wait (time : Nat) : Event :=
  { kind := .wait, millis := some (time / millisecond % Text.wordLimit) }

/-- Whether the event has what its kind needs. -/
def isWellFormed (e : Event) : Bool :=
  match e.kind with
  | .press => e.player.isSome && e.data.isSome
  | .wait => e.millis.isSome

end Event

/-- Everything that came into a game, in order. -/
abbrev Transcript := List Event

end CoupTable
