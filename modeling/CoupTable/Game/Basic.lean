import CoupTable.Deck
import CoupTable.Player
import CoupTable.Stack
import CoupTable.Variant
import CoupTable.Venue

/-!
# The state of a game

Everything there is to know about a game at a table, and the small steps that all moves are made
of. A step that meets something that must not happen ends in a `Fault`.

## Main definitions

* `Game`: the players with their cards and coins, the deck, the stack of suspended steps and the
  venue.
* `Game.isFinished`, `Game.winner?`: whether at most one player is left, and who it is.
-/

namespace CoupTable

/-- A game at a table. Players are known by their seats, counted from zero. -/
structure Game where
  /-- Where messages and alarms go. -/
  venue : Venue := {}
  /-- The generator that shuffles. -/
  rng : Pcg
  /-- The players, seat by seat. -/
  players : List Player
  /-- The draw pile. -/
  deck : Deck := {}
  /-- The suspended steps. -/
  stack : Stack := {}
  /-- Whose turn it is. -/
  current : Nat
  /-- The variant, once it is chosen. -/
  variant : Option Variant := none
  /-- The coins in the treasury. -/
  treasury : Nat := 0
  /-- Whether something happened that the top frame has not seen yet. -/
  stirred : Bool := false
  /-- How long the table waits for objections, in nanoseconds. -/
  waitTime : Nat
  /-- The cards to be dealt first. -/
  overrides : List Character := []
  /-- The alarm that reports the end of the game, while it is set. -/
  overAlarm : Option AlarmId := none
  /-- Whether the final status was sent; from then on nothing is taken in. -/
  isOver : Bool := false
deriving DecidableEq, Repr

namespace Game

/-! ## Players -/

/-- The player in a seat. -/
def player (g : Game) (seat : Nat) : Except Fault Player :=
  match g.players[seat]? with
  | some p => .ok p
  | none => .error (.noSeat seat)

/-- The game with the player in a seat changed. -/
def modifyPlayer (g : Game) (seat : Nat) (f : Player → Player) : Except Fault Game := do
  let p ← g.player seat
  return { g with players := g.players.set seat (f p) }

/-- Whether the player in a seat is alive. -/
def isAlive (g : Game) (seat : Nat) : Bool := g.players[seat]?.any (·.isAlive)

/-- The coins of the player in a seat. -/
def coinsOf (g : Game) (seat : Nat) : Nat := (g.players[seat]?.map (·.coins)).getD 0

/-- Every seat. -/
def seats (g : Game) : List Nat := List.range g.players.length

/-- The seats of the players who are alive. -/
def livingSeats (g : Game) : List Nat := g.seats.filter g.isAlive

/-- Gives a player coins. -/
def pay (g : Game) (seat coins : Nat) : Except Fault Game :=
  g.modifyPlayer seat fun p => { p with coins := p.coins + coins }

/-- Takes coins from a player who has them. -/
def charge (g : Game) (seat coins : Nat) : Except Fault Game := do
  let p ← g.player seat
  if p.coins < coins then throw (.overdrawn seat)
  g.modifyPlayer seat fun p => { p with coins := p.coins - coins }

/-! ## The variant -/

/-- Who plays which clan. -/
def cast (g : Game) : Cast := (g.variant.map (·.cast)).getD ⟨false⟩

/-- Whether the inquisitor is in the game. -/
def usesInquisitor (g : Game) : Bool := g.variant.any (·.usesInquisitor)

/-- Whether allegiances count. -/
def isReformation (g : Game) : Bool := g.variant.any (·.isReformation)

/-- Whether all living players are on one side. -/
def isReunified (g : Game) : Bool :=
  match (g.players.filter (·.isAlive)).map (·.allegiance) with
  | [] => true
  | side :: others => others.all (· == side)

/-- Whether a player is shielded from another by being on the same side. -/
def protects (g : Game) (actor other : Nat) : Bool :=
  g.isReformation && !g.isReunified
    && g.players[actor]?.map (·.allegiance) == g.players[other]?.map (·.allegiance)

/-! ## The end -/

/-- Whether at most one player is left standing. -/
def isFinished (g : Game) : Bool := g.variant.isSome && g.livingSeats.length ≤ 1

/-- The player who is left, once the game is finished. -/
def winner? (g : Game) : Option Nat :=
  if g.isFinished then g.livingSeats.head? else none

/-! ## Messages -/

/-- Tells everyone, with buttons to press. -/
def broadcast (g : Game) (text : String) (buttons : List Button) : Game :=
  { g with venue := g.venue.broadcast text buttons }

/-- Tells everyone. -/
def note (g : Game) (text : String) : Game := g.broadcast text []

/-- Tells one player, with buttons to press. -/
def tell (g : Game) (seat : Nat) (text : String) (buttons : List Button) : Game :=
  { g with venue := g.venue.tell seat text buttons }

/-! ## The stack -/

/-- Notes that something happened: the top frame gets its chance to go on. -/
def stir (g : Game) : Game := { g with stirred := true }

/-- Suspends what is going on for another step. -/
def push (g : Game) (f : Frame) : Except Fault Game := do
  let stack ← g.stack.push f
  return { g with stack }

/-- The game with another frame in place of the top one. -/
def setTop (g : Game) (f : Frame) : Game := { g with stack := g.stack.setTop f }

/-- Takes an alarm back, if there is one. -/
def cancelAlarm (g : Game) : Option AlarmId → Game
  | some id => { g with venue := g.venue.cancel id }
  | none => g

/-- Ends the step on top, and takes back its alarm. -/
def pop (g : Game) : Except Fault Game := do
  let (frame, stack) ← g.stack.pop
  return { g with stack }.cancelAlarm frame.alarm

/-! ## Cards -/

/-- Draws the top card of the deck. -/
def draw (g : Game) : Except Fault (Character × Game) :=
  match g.deck.draw? with
  | some (c, deck) => .ok (c, { g with deck })
  | none => .error .emptyDeck

/-- Draws some cards, the first one drawn first. -/
def drawMany : Nat → Game → Except Fault (List Character × Game)
  | 0, g => .ok ([], g)
  | n + 1, g => do
    let (c, g) ← g.draw
    let (rest, g) ← drawMany n g
    return (c :: rest, g)

/-- Puts cards back onto the deck, one after the other, and shuffles it. -/
def returnCards (g : Game) (cards : List Character) : Game :=
  let shuffled := (cards.foldl Deck.putBack g.deck).shuffle g.rng
  { g with deck := shuffled.1, rng := shuffled.2 }

/-- Every card in the game: the deck, the hands, and for a player who exchanges cards those in the
new hand and on offer in place of the old hand. -/
def cardCount (g : Game) : Nat :=
  let held := g.players.foldl (fun count p => count + p.cards.length) g.deck.size
  g.stack.frames.foldl (fun count frame =>
    match frame with
    | .exchange e =>
      let old := (g.players[e.player]?.map (·.cards.length)).getD 0
      count - old + e.hand.length + e.offered.length
    | _ => count) held

end Game

end CoupTable
