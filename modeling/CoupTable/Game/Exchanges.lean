import CoupTable.Game.Hands

/-!
# Exchanging cards

A player draws from the deck, two cards or one with the inquisitor, and chooses one after the other
which to keep, as many as were alive before. The rest goes back, and the deck is shuffled.
-/

namespace CoupTable.Game

/-- How many cards are drawn for an exchange. -/
def exchangeDraw (g : Game) : Nat := if g.usesInquisitor then 1 else 2

/-- Offers a player the own living cards and some from the deck. -/
def startExchange (g : Game) (seat : Nat) : Except Fault Game := do
  let p ← g.player seat
  let (drawn, g) ← drawMany g.exchangeDraw g
  g.push (.exchange ⟨seat, p.cards.filter (·.dead), p.living.map (·.2) ++ drawn⟩)

/-- Ends an exchange: the cards that were not kept go back. -/
def endExchange (g : Game) (e : Exchange) : Except Fault Game := do
  let g ← g.pop
  let g ← (g.returnCards e.offered).modifyPlayer e.player fun p => { p with cards := e.hand }
  let g ← g.showCards e.player
  return g.stir

/-- Takes in a press during an exchange. -/
def exchangeInput (g : Game) (e : Exchange) (seat : Nat) (m : Move) : Except Fault Game := do
  match m with
  | .keep index =>
    match e.offered[index]? with
    | some c =>
      if seat = e.player then
        let e := { e with hand := e.hand ++ [⟨c, false⟩], offered := e.offered.eraseIdx index }
        if e.hand.length < handSize then return (g.setTop (.exchange e)).stir
        else g.endExchange e
      else
        return g
    | none => return g
  | _ => return g

/-- Goes on with an exchange: asks for the next card to keep. -/
def exchangeIdle (g : Game) (e : Exchange) : Game :=
  let buttons := e.offered.zipIdx.map fun (c, index) => ⟨c.name, (Move.keep index).data⟩
  g.tell e.player Wording.askKeep buttons

end CoupTable.Game
