import CoupTable.Game.Basic
import CoupTable.Game.Wording
import CoupTable.Move

/-!
# The status

The message that opens every turn: who is alive with which cards face up and how many coins, whose
turn it is, and what the player may press. Once the game is finished it names the winner, and an
alarm without delay is set that reports the end.
-/

namespace CoupTable

/-- The price of a coup. -/
def coupCost : Nat := 7

/-- The price of an assassination. -/
def assassinationCost : Nat := 3

/-- With as many coins a player must make a coup. -/
def forcedCoupCoins : Nat := 10

/-- A dead card as everybody sees it. -/
def deadCardText (c : Character) : String := "☠" ++ c.name ++ "☠"

/-- A card as the other players see it. -/
def Card.back (card : Card) : String :=
  if card.dead then deadCardText card.character else "🂠"

/-- A card as its owner sees it. -/
def Card.face (card : Card) : String :=
  if card.dead then deadCardText card.character else card.character.name

namespace Game

/-- The buttons under the status. -/
def turnButtons (g : Game) : List Button :=
  let coins := g.coinsOf g.current
  let coup : Button := ⟨"Coup", (Move.coup none).data⟩
  if coins ≥ forcedCoupCoins then [coup]
  else
    [⟨"Income", Move.income.data⟩, ⟨"Foreign aid", Move.foreignAid.data⟩]
      ++ (if coins ≥ coupCost then [coup] else [])
      ++ (if g.isReformation then
            (if coins > 0 then [⟨"Convert", (Move.convert none).data⟩] else [])
              ++ [⟨"Embezzle", Move.embezzle.data⟩]
          else [])
      ++ [⟨"Tax (Duke)", Move.tax.data⟩]
      ++ (if coins ≥ assassinationCost then
            [⟨"Assassinate (Assassin)", (Move.assassinate none).data⟩]
          else [])
      ++ [⟨"Exchange (" ++ (g.cast.character .negotiators).name ++ ")", Move.exchange.data⟩]
      ++ (if g.usesInquisitor then [⟨"Interrogate (Inquisitor)", (Move.inspect none).data⟩] else [])
      ++ [⟨"Steal (Captain)", (Move.steal none).data⟩]

/-- The lines of the status about one player. -/
def statusOf (g : Game) (p : Player) (seat : Nat) : String :=
  let mark :=
    if g.isFinished then (if p.isAlive then "🏆 " else "")
    else if seat = g.current then "👉 " else ""
  let side := if g.isReformation then " " ++ p.allegiance.symbol else ""
  let wealth := if p.isAlive then ", " ++ Wording.coins p.coins ++ side else ""
  mark ++ p.name ++ ":\n" ++ String.join (p.cards.map (·.back)) ++ wealth ++ "\n\n"

/-- The name of the player in a seat. -/
def nameOf (g : Game) (seat : Nat) : String := (g.players[seat]?.map (·.name)).getD ""

/-- The last line of the status. -/
def statusClosing (g : Game) : String :=
  if g.isFinished then Wording.won ((g.winner?.map g.nameOf).getD "Nobody")
  else Wording.askTurn (g.nameOf g.current)

/-- The text of the status. -/
def statusText (g : Game) : String :=
  let treasury := if g.isReformation then s!"Treasury: {g.treasury}\n\n" else ""
  String.join (g.players.zipIdx.map fun (p, seat) => g.statusOf p seat) ++ treasury
    ++ g.statusClosing

/-- Sends the status. The first one of a finished game ends the game. -/
def showStatus (g : Game) : Except Fault Game := do
  let g := g.broadcast g.statusText (if g.isFinished then [] else g.turnButtons)
  if g.isFinished && !g.isOver then
    let (id, venue) ← g.venue.arm 0
    return { g with venue, isOver := true, overAlarm := some id }
  else
    return g

/-- The seat that comes next: the first living one going round, or the same if there is none. -/
def nextSeat (g : Game) : Nat :=
  let n := g.players.length
  let round := (List.range n).map fun k => (g.current + 1 + k) % n
  (round.find? fun seat => seat == g.current || g.isAlive seat).getD g.current

/-- Passes the turn on. -/
def nextTurn (g : Game) : Except Fault Game :=
  { g with current := g.nextSeat }.showStatus

end Game

end CoupTable
