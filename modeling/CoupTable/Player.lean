import CoupTable.ClanSet

/-!
# Players

A player has a name, coins, a hand and an allegiance. A player lives as long as one card does.
-/

namespace CoupTable

/-- The two sides of a reformation. -/
inductive Allegiance where
  /-- For the crown. -/
  | loyalist
  /-- Against it. -/
  | reformist
deriving DecidableEq, Repr

namespace Allegiance

/-- The allegiance that a seat starts with: seats alternate. -/
def ofSeat (seat : Nat) : Allegiance :=
  if seat % 2 = 0 then .loyalist else .reformist

/-- The other allegiance. -/
def flip : Allegiance → Allegiance
  | loyalist => reformist
  | reformist => loyalist

/-- The name of the allegiance. -/
def name : Allegiance → String
  | loyalist => "Loyalist"
  | reformist => "Reformist"

/-- The sign behind a player's coins. -/
def symbol : Allegiance → String
  | loyalist => "👑"
  | reformist => "✊"

end Allegiance

/-- Somebody at the table. -/
structure Player where
  /-- The name that the others read. -/
  name : String
  /-- The player's money. -/
  coins : Nat
  /-- The player's hand: nothing before the deal, then always two cards. -/
  cards : List Card
  /-- The player's side. -/
  allegiance : Allegiance
deriving DecidableEq, Repr

namespace Player

/-- Whether a living card is left. -/
def isAlive (p : Player) : Bool := p.cards.any (!·.dead)

/-- Whether the card in a slot is there and alive. -/
def hasLiving (p : Player) (slot : Nat) : Bool := p.cards[slot]?.any (!·.dead)

/-- The slots of the living cards, with their characters. -/
def living (p : Player) : List (Nat × Character) :=
  p.cards.zipIdx.filterMap fun (card, slot) =>
    if card.dead then none else some (slot, card.character)

/-- The slots of the living cards. -/
def livingSlots (p : Player) : List Nat := p.living.map (·.1)

/-- The number of living cards. -/
def livingCount (p : Player) : Nat := p.living.length

/-- The only living card, by its slot, if there is exactly one. -/
def singleLiving? (p : Player) : Option Nat :=
  match p.livingSlots with
  | [slot] => some slot
  | _ => none

/-- Whether a living card belongs to one of the clans. -/
def holds (p : Player) (clans : ClanSet) : Bool :=
  p.cards.any fun card => !card.dead && clans.contains card.character.clan

/-- Puts a character into a slot, in place of the one that was there. -/
def setCharacter (p : Player) (slot : Nat) (c : Character) : Player :=
  { p with cards := p.cards.modify slot fun card => { card with character := c } }

/-- Turns the card in a slot face up for good. -/
def killSlot (p : Player) (slot : Nat) : Player :=
  { p with cards := p.cards.modify slot fun card => { card with dead := true } }

end Player

end CoupTable
