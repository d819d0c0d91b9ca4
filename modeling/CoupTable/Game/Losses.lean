import CoupTable.Game.Hands

/-!
# Losing a card

A player who has to lose a card chooses which. Where all cards that are left are owed anyway,
nobody is asked.
-/

namespace CoupTable.Game

/-- Has a player lose a card. -/
def pushLoss (g : Game) (seat : Nat) : Except Fault Game := g.push (.loss seat)

/-- Takes in a press while a player has to lose a card. -/
def lossInput (g : Game) (loser seat : Nat) (m : Move) : Except Fault Game := do
  match m with
  | .lose slot =>
    let p ← g.player loser
    if seat = loser && p.hasLiving slot then
      let g ← g.stir.killCard loser slot
      let g ← g.showCards loser
      g.pop
    else
      return g
  | _ => return g

/-- Whether the frames on top already take every card that the player has left. -/
def losesAll (g : Game) (seat living : Nat) : Bool :=
  living ≤ g.stack.depth && (g.stack.frames.take living).all (· == .loss seat)

/-- Goes on with a loss: asks the player, or takes all cards. -/
def lossIdle (g : Game) (seat : Nat) : Except Fault Game := do
  let p ← g.player seat
  if g.losesAll seat p.livingCount then
    -- the frames below take no card any more, and go one by one
    let g ← g.stir.pop
    p.livingSlots.foldlM (fun g slot => g.killCard seat slot) g
  else
    let buttons := p.living.map fun (slot, c) => ⟨c.name, (Move.lose slot).data⟩
    return g.tell seat Wording.askLoss buttons

end CoupTable.Game
