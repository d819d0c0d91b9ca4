import CoupTable.Game.Run

/-!
# Legal moves

Every press that a game waits for, and the summary of a game for those who watch it.
-/

namespace CoupTable.Game

/-- The moves of a player about the own living cards. -/
def slotMoves (g : Game) (seat : Nat) (make : Nat → Move) : List (Nat × Move) :=
  match g.players[seat]? with
  | some p => p.livingSlots.map fun slot => (seat, make slot)
  | none => []

/-- The moves of a player about a claim. -/
def claimMoves (g : Game) (c : Claim) (seat : Nat) : List (Nat × Move) :=
  [(seat, .accept)]
    ++ (if c.challengeable then [(seat, .challenge)] else [])
    ++ (if c.blockable && g.canBlock c seat then [(seat, .block)] else [])

/-- The moves of a challenged player. -/
def revealMoves (g : Game) (r : Reveal) : List (Nat × Move) :=
  if r.inverted then
    let guilty := g.players[r.challenged]?.any (·.holds r.clans)
    (r.challenged, .reveal 0) :: (if guilty then [] else [(r.challenged, .reveal 1)])
  else
    g.slotMoves r.challenged .reveal

/-- The moves of an interrogation. -/
def interrogationMoves (g : Game) (i : Interrogation) : List (Nat × Move) :=
  match i.shown with
  | none => g.slotMoves i.target .showCard
  | some _ => [(i.inquisitor, .canKeep true), (i.inquisitor, .canKeep false)]

/-- Every press that the game waits for, as a seat and a move. -/
def moves (g : Game) : List (Nat × Move) :=
  if g.isOver then []
  else match g.stack.top? with
    | none => []
    | some .variantChoice =>
      g.seats.flatMap fun seat => Variant.all.map fun v => (seat, .gameType v.index)
    | some .turn => g.turnMoves.map fun m => (g.current, m)
    | some (.loss loser) => g.slotMoves loser .lose
    | some (.claim c) => (g.livingSeats.filter (· != c.actor)).flatMap (g.claimMoves c)
    | some (.reveal r) => g.revealMoves r
    | some (.exchange e) => (List.range e.offered.length).map fun index => (e.player, .keep index)
    | some (.interrogation i) => g.interrogationMoves i

/-! ## Summary -/

/-- A list in brackets. -/
def bracket (items : List String) : String := "[" ++ ", ".intercalate items ++ "]"

/-- A card, spelled out. -/
def cardSummary (card : Card) : String :=
  s!"Card \x7b character: {card.character.name}, dead: {card.dead} \x7d"

/-- A player in one line. -/
def playerSummary (p : Player) (seat : Nat) : String :=
  s!"\tP {seat}: ${p.coins} | {p.allegiance.name} | " ++ bracket (p.cards.map cardSummary) ++ "\n"

/-- The game in a few lines: whose turn it is, the treasury and the stack, then the players. -/
def summary (g : Game) : String :=
  let frames := bracket (g.stack.names.map fun name => "\"" ++ name ++ "\"")
  s!"P {g.current} | T ${g.treasury} | " ++ frames ++ "\n"
    ++ String.join (g.players.zipIdx.map fun (p, seat) => playerSummary p seat)

end CoupTable.Game
