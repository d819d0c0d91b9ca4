import CoupTable.Fault

/-!
# Refusals

Why a table cannot be set up, or one of its inputs cannot be read.
-/

namespace CoupTable

/-- Why there is no game. -/
inductive Refusal where
  /-- The table has too few or too many players. -/
  | playerCount (n : Nat)
  /-- A player's name is blank. -/
  | emptyName (seat : Nat)
  /-- The settings let somebody begin who is not at the table. -/
  | startOutOfRange (start players : Nat)
  /-- The settings ask for cards that the deck does not hold. -/
  | impossibleOverrides
  /-- A row of a transcript, counted from the one after the header, lacks what its kind needs. -/
  | malformedEvent (row : Nat)
  /-- The settings are not what they should be. -/
  | settings
  /-- A transcript is not a table of events. -/
  | table
  /-- A file or a line could not be read. -/
  | unreadable
  /-- The game stopped while it was set up. -/
  | fault (cause : Fault)
deriving DecidableEq, Repr

namespace Refusal

/-- The text for the user. What is wrong with a file is not said in a fixed text. -/
def message? : Refusal → Option String
  | playerCount n => some s!"a game needs 2 to 6 players, got {n}"
  | emptyName seat => some s!"player {seat} has an empty name"
  | startOutOfRange start players =>
    some s!"start player {start} is out of range for {players} players"
  | impossibleOverrides => some "the deck can't supply the requested card overrides"
  | malformedEvent row => some s!"malformed transcript event on row {row}"
  | settings | table | unreadable => none
  | fault cause => some cause.message

/-- The kind of refusal in one word. -/
def kind : Refusal → String
  | playerCount _ => "InvalidPlayerCount"
  | emptyName _ => "EmptyName"
  | startOutOfRange _ _ => "StartPlayerOutOfRange"
  | impossibleOverrides => "ImpossibleOverrides"
  | malformedEvent _ => "MalformedEvent"
  | settings => "Config"
  | table => "Csv"
  | unreadable => "Io"
  | fault _ => "Fault"

/-- The kind with its particulars, as the terminal shows it. -/
def summary (r : Refusal) : String :=
  match r with
  | playerCount n | emptyName n | malformedEvent n => s!"{r.kind}({n})"
  | startOutOfRange start players =>
    s!"{r.kind} \x7b start: {start}, players: {players} \x7d"
  | _ => r.kind

end Refusal

end CoupTable
