import CoupTable.Game.Status

/-!
# Hands

What happens to the cards in a player's hand: they are shown to their owner, lost, and changed for
others from the deck.
-/

namespace CoupTable

/-- The hand as its owner reads it. -/
def Player.handText (p : Player) : String :=
  "Your cards are:" ++ String.join (p.cards.map fun card => "\n" ++ card.face)

namespace Game

/-- Tells a living player what they hold. -/
def showCards (g : Game) (seat : Nat) : Except Fault Game := do
  let p ← g.player seat
  return if p.isAlive then g.tell seat p.handText [] else g

/-- Turns a card face up for good. -/
def killCard (g : Game) (seat slot : Nat) : Except Fault Game := do
  let p ← g.player seat
  if slot < p.cards.length then g.modifyPlayer seat (·.killSlot slot)
  else throw (.noCard seat slot)

/-- Draws a card into a slot, in place of the one that was there. -/
def drawInto (g : Game) (seat slot : Nat) : Except Fault Game := do
  let (c, g) ← g.draw
  g.modifyPlayer seat (·.setCharacter slot c)

/-- Changes the characters in some slots for others: they go back to the deck, which is shuffled
before the same number is drawn. -/
def changeCards (g : Game) (seat : Nat) (cards : List (Nat × Character)) : Except Fault Game := do
  let g := g.returnCards (cards.map (·.2))
  let g ← cards.foldlM (fun g card => g.drawInto seat card.1) g
  g.showCards seat

/-- Changes a living card for one from the deck. -/
def changeCard (g : Game) (seat slot : Nat) : Except Fault Game := do
  let p ← g.player seat
  match p.living.find? (·.1 == slot) with
  | some card => g.changeCards seat [card]
  | none => throw (.noCard seat slot)

/-- Changes all living cards for others from the deck. -/
def changeHand (g : Game) (seat : Nat) : Except Fault Game := do
  let p ← g.player seat
  g.changeCards seat p.living

end Game

end CoupTable
