import CoupTable.RandomPlay
import CoupTable.Settings.Json
import CoupTable.Text.Quoted
import CoupTable.Transcript.Replay
import CoupTable.Transcript.Table

/-!
# Sessions at a terminal

A game played line by line: each line is a press or a wait, and is answered by the messages it
brings about. A session may begin with a recorded transcript, and records what it takes in.

## Main definitions

* `Line.ofString`: what a line means.
* `Session.start`, `Session.enter`: a session, and one line of it.
* `Session.run`: a whole session, from its files and its input to its output and its record.
-/

namespace CoupTable

open Text (decode? encode)

/-! ## Lines -/

/-- What a line of input means. -/
inductive Line where
  /-- Nothing. -/
  | blank
  /-- Ends the session. -/
  | quit
  /-- Lets the time for objections pass. -/
  | wait
  /-- Presses a button. -/
  | press (seat : Nat) (data : String)
  /-- Has no blank, so that there is a player or a button but not both. -/
  | incomplete
  /-- Has a word that is no number where the player should be. -/
  | noPlayer (word : List Char)
deriving DecidableEq, Repr

/-- What a line of input means. -/
def Line.ofString (s : String) : Line :=
  let cs := Text.trim s.toList
  match String.ofList cs with
  | "" => .blank
  | "quit" => .quit
  | "wait" => .wait
  | _ =>
    match Text.splitAtBlank? cs with
    | none => .incomplete
    | some (word, rest) =>
      match Text.word? (Text.dropPlus word) with
      | some seat => .press seat (String.ofList (Text.trim rest))
      | none => .noPlayer word

/-- The lines of an input, without their line ends. -/
def splitLines (bytes : List UInt8) : List (List UInt8) :=
  bytes.foldr (fun b lines =>
    match lines with
    | line :: rest => if b == 0x0A then [] :: lines else (b :: line) :: rest
    | [] => if b == 0x0A then [[]] else [[b]]) []

/-! ## Output -/

/-- Who reads a message, as it stands above it. -/
def addressee (g : Game) : Recipient → String
  | .everyone => "[everyone]"
  | .player seat => s!"[{seat} {g.nameOf seat}]"

/-- A message on the terminal. -/
def messageText (g : Game) (m : Message) : String :=
  let buttons := m.buttons.map fun b => s!"  ({b.data}) {b.label}\n"
  addressee g m.recipient ++ "\n" ++ m.text ++ "\n" ++ String.join buttons ++ "\n"

/-! ## Sessions -/

/-- A session: the game, what was taken in, and whether more is to be read. -/
structure Session where
  /-- The game. -/
  game : Game
  /-- The events so far, the newest first. -/
  recorded : List Event := []
  /-- Whether the session has ended. -/
  ended : Bool := false
deriving DecidableEq, Repr

namespace Session

/-- The messages sent since the last time. -/
def flush (s : Session) : String × Session :=
  (String.join (s.game.venue.messages.map (messageText s.game)),
    { s with game := { s.game with venue := s.game.venue.clear } })

/-- A session after the transcript that it begins with, and the first messages. -/
def start (g : Game) (t : Transcript) : Except Fault (String × Session) := do
  let game ← g.replay t
  return flush { game, recorded := t.reverse }

/-- The messages after an event and, once the game is over, the end of the session. -/
def afterEvent (s : Session) (g : Game) (e : Event) : Except Fault (String × Session) := do
  let (out, s) := flush { s with game := g, recorded := e :: s.recorded }
  if s.game.isOver then
    -- the end is still to be reported; this is not recorded
    let game ← s.game.advance 0
    return (out, { s with game, ended := true })
  else
    return (out, s)

/-- Takes in a line, and gives what is printed. -/
def enter (s : Session) (line : Line) : Except Fault (String × Session) := do
  match line with
  | .blank => return ("", s)
  | .quit => return ("", { s with ended := true })
  | .incomplete => return ("expected \"<player> <button data>\", \"wait\" or \"quit\"\n", s)
  | .noPlayer word => return (Text.quote word ++ " is not a player number\n", s)
  | .wait => s.afterEvent (← s.game.advance s.game.waitTime) (.wait s.game.waitTime)
  | .press seat data => s.afterEvent (← s.game.press seat data) (.press seat data)

/-- Takes in lines until the session ends, and gives what is printed in any case. -/
def enterAll (out : String) (s : Session) :
    List (List UInt8) → String × Except Refusal Session
  | [] => (out, .ok s)
  | line :: lines =>
    if s.ended then (out, .ok s)
    else match decode? line with
      | none => (out, .error .unreadable)
      | some line =>
        match s.enter (.ofString line) with
        | .error cause => (out, .error (.fault cause))
        | .ok (more, s) => enterAll (out ++ more) s lines

/-! ## Whole sessions -/

/-- A file that a session may be given. -/
inductive File where
  /-- No file was named. -/
  | unnamed
  /-- The file cannot be read. -/
  | missing
  /-- The bytes of the file. -/
  | holding (bytes : List UInt8)
deriving DecidableEq, Repr

/-- The settings of a file. -/
def readSettings : File → Except Refusal Settings
  | .unnamed => .ok {}
  | .missing => .error .unreadable
  | .holding bytes =>
    match Settings.ofJson? bytes with
    | some s => .ok s
    | none => .error .settings

/-- The transcript of a file. -/
def readTranscript : File → Except Refusal Transcript
  | .unnamed => .ok []
  | .missing => .error .unreadable
  | .holding bytes => Transcript.read bytes

/-- Sets a session up: the settings are read first, then the players seated, then the transcript
read and replayed. -/
def prepare (names : List String) (settings : Except Refusal Settings)
    (transcript : Except Refusal Transcript) (entropy : Pcg := .ofSeed 0) :
    Except Refusal (String × Session) := do
  let game ← Game.start names (← settings) entropy
  (start game (← transcript)).mapError .fault

/-- A whole session: what is printed, and the record or the reason why there is none. -/
def run (names : List String) (settings transcript : File) (input : List UInt8)
    (entropy : Pcg := .ofSeed 0) : String × Except Refusal Transcript :=
  match prepare names (readSettings settings) (readTranscript transcript) entropy with
  | .error reason => ("", .error reason)
  | .ok (out, s) =>
    let (out, result) := enterAll out s (splitLines input)
    (out, result.map (·.recorded.reverse))

end Session

end CoupTable
