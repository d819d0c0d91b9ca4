import CoupTable.Game.Status
import CoupTable.Game.Hands
import CoupTable.Refusal
import CoupTable.Settings
import CoupTable.Text.Blank

/-!
# Opening a game

A table is set up for named players, the variant is settled, and the cards are dealt.

## Main definitions

* `Game.start`: the game of some players, or why there is none.
* `Game.deal`: the first status, with two cards for everybody.
-/

namespace CoupTable

/-- The least number of players. -/
def minPlayers : Nat := 2

/-- The greatest number of players. -/
def maxPlayers : Nat := 6

/-- The coins that a player starts with. -/
def startCoins : Nat := 2

/-- Whether a name has nothing to read in it. -/
def isBlankName (name : String) : Bool := name.toList.all Text.isBlank

/-- The generator of a table: that of the seed or, without a seed, the one from outside. -/
def Settings.generator (s : Settings) (entropy : Pcg) : Pcg :=
  match s.seed with
  | some seed => .ofSeed seed
  | none => entropy

/-- Whether the deck of the settings' variant, or of some variant, holds the cards asked for. -/
def Settings.canSupply (s : Settings) : Bool :=
  match s.variant with
  | some v => Deck.canSupply v.cast s.cardOverrides
  | none => Variant.all.any fun v => Deck.canSupply v.cast s.cardOverrides

/-- Why there is no table for some players under some settings; the first reason counts. -/
def refusal? (names : List String) (s : Settings) : Option Refusal :=
  if names.length < minPlayers || maxPlayers < names.length then some (.playerCount names.length)
  else match names.findIdx? isBlankName, s.startPlayer.filter (names.length ≤ ·) with
    | some seat, _ => some (.emptyName seat)
    | none, some start => some (.startOutOfRange start names.length)
    | none, none => if s.canSupply then none else some .impossibleOverrides

namespace Game

/-- Deals two cards to each of some seats. -/
def dealTo (g : Game) (seats : List Nat) : Except Fault Game :=
  seats.foldlM (fun g seat => do
    let (cards, g) ← drawMany handSize g
    g.modifyPlayer seat fun p => { p with cards := cards.map fun c => ⟨c, false⟩ }) g

/-- Of two players the first has a coin less. -/
def payHandicap (g : Game) : Except Fault Game :=
  if g.players.length = 2 then g.charge g.current 1 else .ok g

/-- Deals from a shuffled deck of a variant. -/
def dealFrom (g : Game) (v : Variant) (built : Deck × Pcg) : Except Fault Game := do
  let g ← { g with variant := some v, deck := built.1, rng := built.2 }.dealTo g.seats
  let g ← g.payHandicap
  let g ← g.seats.foldlM (fun g seat => g.showCards seat) g
  g.showStatus

/-- Shuffles the deck of a variant and deals. -/
def deal (g : Game) (v : Variant) : Except Fault Game :=
  g.dealFrom v (Deck.build v.cast g.overrides g.rng)

/-- Asks the table for the variant. -/
def askVariant (g : Game) : Game :=
  g.broadcast Wording.askVariant (Variant.all.map fun v => ⟨v.name, (Move.gameType v.index).data⟩)

/-- Takes in a press while the variant is open: anybody may choose. -/
def variantInput (g : Game) (m : Move) : Except Fault Game := do
  match m with
  | .gameType index =>
    match Variant.ofIndex? index with
    | some v =>
      let g ← g.pop
      (g.note (Wording.variantChosen v.name)).deal v
    | none => return g
  | _ => return g

/-- The players of a new table. -/
def newPlayers (names : List String) : List Player :=
  names.zipIdx.map fun (name, seat) => ⟨name, startCoins, [], .ofSeat seat⟩

/-- The seat that starts, and the generator after it was drawn, unless the settings name it. -/
def firstSeat (count : Nat) (rng : Pcg) : Option Nat → Nat × Pcg
  | some start => (start, rng)
  | none => rng.below count

/-- The table of some players before the variant is settled. Its generator is that of the seed or,
for a table without one, `entropy`. -/
def newTable (names : List String) (s : Settings) (entropy : Pcg) : Game :=
  let drawn := firstSeat names.length (s.generator entropy) s.startPlayer
  { rng := drawn.2, players := newPlayers names, current := drawn.1, waitTime := s.waitTime,
    overrides := s.cardOverrides }

/-- Settles the variant of a new table, or asks for it. -/
def begin (g : Game) (variant : Option Variant) : Except Fault Game := do
  let g ← g.push .turn
  match variant with
  | some v => g.deal v
  | none =>
    let g ← g.push .variantChoice
    return g.askVariant

/-- The game of some players, or why there is none. Settings with a seed have no use for `entropy`
(`start_of_seed`), which may then be left out. -/
def start (names : List String) (s : Settings) (entropy : Pcg := .ofSeed 0) :
    Except Refusal Game :=
  match refusal? names s with
  | some reason => .error reason
  | none => ((newTable names s entropy).begin s.variant).mapError .fault

/-- With a seed in the settings it does not matter what generator comes from outside. -/
theorem start_of_seed {names : List String} {s : Settings} {seed : Nat} (h : s.seed = some seed)
    (entropy entropy' : Pcg) : start names s entropy = start names s entropy' := by
  unfold start newTable Settings.generator
  rw [h]

end Game

end CoupTable
