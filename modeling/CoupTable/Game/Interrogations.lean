import CoupTable.Game.Hands

/-!
# Interrogations

The target shows a card to the inquisitor, who decides whether it may be kept or must be changed
for one from the deck. A target with one card has nothing to choose.
-/

namespace CoupTable.Game

/-- The character in a slot of a player's hand. -/
def characterAt (g : Game) (seat slot : Nat) : Except Fault Character := do
  let p ← g.player seat
  match p.cards[slot]? with
  | some card => return card.character
  | none => throw (.noCard seat slot)

/-- Takes in a press of the target, who shows a card. -/
def showInput (g : Game) (i : Interrogation) (slot : Nat) : Except Fault Game := do
  let inquisitor ← g.player i.inquisitor
  let target ← g.player i.target
  if target.hasLiving slot then
    let c ← g.characterAt i.target slot
    let g := g.setTop (.interrogation { i with shown := some slot })
    return (g.tell i.target (Wording.deciding inquisitor.name c.objectName) []).stir
  else
    return g

/-- Takes in the decision of the inquisitor about the card shown. -/
def keepInput (g : Game) (i : Interrogation) (slot : Nat) (allowed : Bool) : Except Fault Game := do
  let inquisitor ← g.player i.inquisitor
  let target ← g.player i.target
  let g ← if allowed then pure (g.note (Wording.letKeep inquisitor.name target.name))
    else do
      let g ← g.changeCard i.target slot
      pure (g.note (Wording.madeChange inquisitor.name target.name))
  let g ← g.pop
  return g.stir

/-- Takes in a press during an interrogation. -/
def interrogationInput (g : Game) (i : Interrogation) (seat : Nat) (m : Move) :
    Except Fault Game :=
  match m, i.shown with
  | .showCard slot, none => if seat = i.target then g.showInput i slot else .ok g
  | .canKeep allowed, some slot =>
    if seat = i.inquisitor then g.keepInput i slot allowed else .ok g
  | _, _ => .ok g

/-- Asks the inquisitor about the card shown. -/
def askInquisitor (g : Game) (i : Interrogation) (slot : Nat) : Except Fault Game := do
  let target ← g.player i.target
  let c ← g.characterAt i.target slot
  let buttons := [⟨"Yes", (Move.canKeep true).data⟩, ⟨"No", (Move.canKeep false).data⟩]
  return g.tell i.inquisitor (Wording.askCanKeep target.name c.objectName) buttons

/-- Goes on with an interrogation: asks for a card, or for the decision. -/
def interrogationIdle (g : Game) (i : Interrogation) : Except Fault Game := do
  let inquisitor ← g.player i.inquisitor
  let target ← g.player i.target
  match i.shown, target.singleLiving? with
  | some slot, _ => g.askInquisitor i slot
  | none, some slot =>
    (g.setTop (.interrogation { i with shown := some slot })).askInquisitor i slot
  | none, none =>
    let buttons := target.living.map fun (slot, c) => ⟨c.name, (Move.showCard slot).data⟩
    return g.tell i.target (Wording.askShow inquisitor.name) buttons

end CoupTable.Game
