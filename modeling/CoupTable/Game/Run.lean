import CoupTable.Game.Opening
import CoupTable.Game.Reveals
import CoupTable.Game.Turns

/-!
# Running a game

What comes in from outside: presses, alarms and the passing of time. Presses that the game does not
wait for are ignored. After each of them the frames go on by themselves until one needs somebody.

## Main definitions

* `Game.press`, `Game.expire`, `Game.advance`: a press, an alarm, and time passing.
* `Input`, `Game.feed`, `Game.feedAll`: the three together, one or many of them.
* `Game.Reachable`: the games they lead to.
-/

namespace CoupTable

namespace Game

/-- Hands a press to the frame on top. -/
def dispatch (g : Game) (seat : Nat) (m : Move) : Except Fault Game :=
  match g.stack.top? with
  | none => .ok g
  | some .turn => g.turnInput seat m
  | some .variantChoice => g.variantInput m
  | some (.loss loser) => g.lossInput loser seat m
  | some (.claim c) => g.claimInput c seat m
  | some (.reveal r) => g.revealInput r seat m
  | some (.exchange e) => g.exchangeInput e seat m
  | some (.interrogation i) => g.interrogationInput i seat m

/-- Lets the frame on top go on by itself. -/
def idle (g : Game) : Except Fault Game :=
  match g.stack.top? with
  | none | some .variantChoice => .ok g
  | some .turn => g.nextTurn
  | some (.loss loser) => g.lossIdle loser
  | some (.claim c) => g.claimIdle c
  | some (.reveal r) => g.revealIdle r
  | some (.exchange e) => .ok (g.exchangeIdle e)
  | some (.interrogation i) => g.interrogationIdle i

/-- Lets the frames go on, at most `fuel` times, until nothing stirs any more. -/
def settleIn : Nat → Game → Except Fault Game
  | 0, g => .ok g
  | fuel + 1, g => do
    if g.stirred then
      let g ← { g with stirred := false }.idle
      settleIn fuel g
    else
      return g

/-- Lets the frames go on until one of them needs somebody. A step that stirs takes a frame off, or
two, or has a claim or a challenge give way to a loss, an exchange or an interrogation; counting
claims and challenges twice, each such step makes the stack smaller. -/
def settle (g : Game) : Except Fault Game := settleIn (2 * g.stack.depth + 1) g

/-- A player presses a button. Whatever the game does not wait for is ignored. -/
def press (g : Game) (seat : Nat) (data : String) : Except Fault Game :=
  if seat < g.players.length && !g.isOver then
    match Move.parse? data with
    | some m => do
      let g ← g.dispatch seat m
      g.settle
    | none => .ok g
  else .ok g

/-- A player makes a move. -/
def play (g : Game) (seat : Nat) (m : Move) : Except Fault Game := g.press seat m.data

/-- An alarm goes off: the end of the game is reported, or the claim on top goes through. Any other
alarm is ignored. -/
def expire (g : Game) (id : AlarmId) : Except Fault Game :=
  if g.overAlarm = some id then
    .ok { g with overAlarm := none, venue := g.venue.reportOver }
  else
    match g.stack.top? with
    | some (.claim c) =>
      if c.alarm = some id then do
        let c := { c with alarm := none }
        let g ← (g.setTop (.claim c)).resolve c
        g.settle
      else .ok g
    | _ => .ok g

/-- Moves the clock and has the alarms go off that are due, again and again without moving it
further, at most `fuel` times. -/
def advanceIn : Nat → Nat → Game → Except Fault Game
  | 0, _, g => .ok g
  | fuel + 1, time, g => do
    let (due, venue) ← g.venue.advance time
    if due.isEmpty then return { g with venue }
    else
      let g ← due.foldlM (fun g id => g.expire id) { g with venue }
      advanceIn fuel 0 g

/-- Time passes: the alarms that fall due go off, those without delay that are set meanwhile
included. Each round in which something happens ends a claim or reports the end of the game, so that
the rounds are enough: no alarm is due in the end (`Reachable.advance_exhausts`). -/
def advance (g : Game) (time : Nat) : Except Fault Game :=
  advanceIn (2 * g.stack.depth + 3) time g

end Game

/-- What comes into a game from outside. -/
inductive Input where
  /-- A player presses a button. -/
  | press (seat : Nat) (data : String)
  /-- An alarm is reported, whether it was set or not. -/
  | expire (id : AlarmId)
  /-- Time passes, in nanoseconds. -/
  | advance (time : Nat)
deriving DecidableEq, Repr

namespace Game

/-- The game after an input. -/
def feed (g : Game) : Input → Except Fault Game
  | .press seat data => g.press seat data
  | .expire id => g.expire id
  | .advance time => g.advance time

/-- The game after some inputs, one after the other. -/
def feedAll (g : Game) (inputs : List Input) : Except Fault Game := inputs.foldlM feed g

/-- Without an input nothing happens. -/
@[simp] theorem feedAll_nil (g : Game) : g.feedAll [] = .ok g := rfl

/-- The first input comes in before the others. -/
@[simp] theorem feedAll_cons (g : Game) (i : Input) (inputs : List Input) :
    g.feedAll (i :: inputs) = g.feed i >>= fun g => g.feedAll inputs :=
  List.foldlM_cons

/-- A game that some table can come to. -/
inductive Reachable : Game → Prop where
  /-- A new game, with whatever generator comes from outside. -/
  | started {names : List String} {s : Settings} {entropy : Pcg} {g : Game}
      (h : start names s entropy = .ok g) :
    Reachable g
  /-- A game after one more input. -/
  | fed {g g' : Game} {i : Input} (hg : Reachable g) (h : g.feed i = .ok g') : Reachable g'

/-- What a reachable game comes to is reachable. -/
theorem Reachable.feedAll {g g' : Game} (hg : Reachable g) {inputs : List Input}
    (h : g.feedAll inputs = .ok g') : Reachable g' := by
  induction inputs generalizing g with
  | nil =>
    cases h
    exact hg
  | cons i inputs ih =>
    rw [feedAll_cons] at h
    cases hi : g.feed i with
    | error cause =>
      rw [hi] at h
      cases h
    | ok next =>
      rw [hi] at h
      exact ih (hg.fed hi) h

end Game

end CoupTable
