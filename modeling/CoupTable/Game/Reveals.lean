import CoupTable.Game.Claims

/-!
# Answering a challenge

The challenged player reveals a card. If it is of the claimed clans it is changed for another, the
claim stands and cannot be challenged again, and the challenger loses a card; else the card is
lost, and the claim with it. A player who claimed *not* to have something shows the whole hand
instead, or concedes.
-/

namespace CoupTable.Game

/-- Goes back to the claim below, which stands and cannot be challenged again; the challenger loses
a card. -/
def uphold (g : Game) (r : Reveal) : Except Fault Game := do
  let g ← g.pop
  match g.stack.top? with
  | some (.claim c) =>
    (g.setTop (.claim { c with challengeable := false })).stir.pushLoss r.challenger
  | _ => throw .noClaim

/-- Ends the challenge and the claim below it. -/
def dropClaim (g : Game) : Except Fault Game := do
  let g ← g.stir.pop
  g.pop

/-- Reveals the card in a slot. -/
def revealCard (g : Game) (r : Reveal) (slot : Nat) : Except Fault Game := do
  let challenger ← g.player r.challenger
  let challenged ← g.player r.challenged
  let c ← g.characterAt r.challenged slot
  if r.clans.contains c.clan then
    let g := g.note (Wording.proven challenger.name challenged.name c.objectName)
    let g ← g.changeCard r.challenged slot
    g.uphold r
  else
    let cards := g.cast.describe r.clans
    let g := g.note (Wording.caught challenger.name challenged.name cards)
    let g ← g.killCard r.challenged slot
    let g ← g.showCards r.challenged
    g.dropClaim

/-- Concedes the challenge. -/
def concede (g : Game) (r : Reveal) : Except Fault Game := do
  let challenger ← g.player r.challenger
  let challenged ← g.player r.challenged
  let g ← (g.note (Wording.conceded challenger.name challenged.name)).dropClaim
  g.pushLoss r.challenged

/-- Shows the whole hand, which is then changed for other cards. -/
def showHand (g : Game) (r : Reveal) : Except Fault Game := do
  let challenger ← g.player r.challenger
  let challenged ← g.player r.challenged
  let cards := joinNames " and " (challenged.living.map fun (_, c) => c.objectName)
  let g := g.note (Wording.handShown challenger.name challenged.name cards)
  let g ← g.changeHand r.challenged
  g.uphold r

/-- Takes in a press while a player has to answer a challenge. -/
def revealInput (g : Game) (r : Reveal) (seat : Nat) (m : Move) : Except Fault Game := do
  match m with
  | .reveal choice =>
    let challenged ← g.player r.challenged
    if seat ≠ r.challenged then return g
    else if r.inverted then
      if choice = 0 then g.concede r
      else if choice = 1 && !challenged.holds r.clans then g.showHand r
      else return g
    else if challenged.hasLiving choice then g.revealCard r choice
    else return g
  | _ => return g

/-- The buttons for the answer to a challenge. -/
def revealButtons (r : Reveal) (challenged : Player) : List Button :=
  if r.inverted then
    [⟨"Concede", (Move.reveal 0).data⟩]
      ++ (if challenged.holds r.clans then [] else [⟨"Show cards", (Move.reveal 1).data⟩])
  else
    challenged.living.map fun (slot, c) => ⟨c.name, (Move.reveal slot).data⟩

/-- Tells the table about a challenge and asks the challenged player. -/
def askChallenged (g : Game) (r : Reveal) : Except Fault Game := do
  let challenger ← g.player r.challenger
  let challenged ← g.player r.challenged
  let cards := g.cast.describe r.clans
  let (announcement, question) :=
    if r.inverted then
      (Wording.choosingToConcede challenger.name challenged.name,
        Wording.askConcede challenger.name cards)
    else
      (Wording.choosingCard challenger.name challenged.name, Wording.askCard challenger.name cards)
  return (g.note announcement).tell r.challenged question (revealButtons r challenged)

/-- Goes on with a challenge. A dead player cannot answer, and the claim is dropped; a last card is
revealed without asking. -/
def revealIdle (g : Game) (r : Reveal) : Except Fault Game := do
  let challenged ← g.player r.challenged
  if !challenged.isAlive then g.dropClaim
  else
    match r.inverted, challenged.singleLiving? with
    | false, some slot => g.revealCard r slot
    | _, _ => g.askChallenged r

end CoupTable.Game
