import CoupTable.Game.Exchanges
import CoupTable.Game.Interrogations
import CoupTable.Game.Losses

/-!
# Making claims and letting them through

A claim is put to the table with an alarm running. It goes through once everybody who could oppose
it has accepted since the table was last asked, or when the alarm goes off; a challenge or a block
suspends it.

## Main definitions

* `Game.quorum`: who has to accept a claim.
* `Game.declare`, `Game.claimInput`, `Game.claimIdle`, `Game.resolve`: the life of a claim.
-/

namespace CoupTable.Game

/-- Makes a claim, which must be open to some objection. -/
def declare (g : Game) (c : Claim) : Except Fault Game := do
  if !c.challengeable && !c.blockable then throw .idleClaim
  let g ← g.push (.claim c)
  return g.stir

/-- Whether a player may block a claim: its target, or without one anybody on the other side. -/
def canBlock (g : Game) (c : Claim) (seat : Nat) : Bool :=
  match c.target with
  | some target => seat == target
  | none => !g.protects c.actor seat

/-- Whether a player could oppose a claim in some way. -/
def canOppose (g : Game) (c : Claim) (seat : Nat) : Bool :=
  seat != c.actor && g.isAlive seat && (c.challengeable || c.blockable && g.canBlock c seat)

/-- The players who have to accept before a claim goes through. -/
def quorum (g : Game) (c : Claim) : List Nat := g.seats.filter (g.canOppose c)

/-- Whether all who could oppose a claim have accepted it. -/
def isAccepted (g : Game) (c : Claim) : Bool := (g.quorum c).all c.accepted.contains

/-! ## Going through -/

/-- Has the assassin pay; a blocked assassination is paid for as well. -/
def payAssassin (g : Game) (seat : Nat) : Except Fault Game :=
  g.modifyPlayer seat fun p => { p with coins := p.coins - assassinationCost }

/-- Moves up to two coins from the target to the actor. -/
def rob (g : Game) (actor target : Nat) : Except Fault Game := do
  let p ← g.player target
  let amount := min p.coins 2
  let g ← g.charge target amount
  g.pay actor amount

/-- Carries out a block that nobody stopped: the claim now on top is dropped. -/
def dropBlocked (g : Game) : Except Fault Game := do
  match g.stack.top? with
  | some (.claim c) =>
    let g ← match c.effect with
      | .assassinate _ => g.payAssassin c.actor
      | _ => pure g
    let g ← (g.note Wording.blockGranted).pop
    return g.stir
  | _ => throw .noClaim

/-- Carries out a claim that nobody stopped; its frame is off the stack already. -/
def grant (g : Game) (seat : Nat) (effect : Effect) : Except Fault Game := do
  let actor ← g.player seat
  match effect with
  | .foreignAid => (g.note (Wording.foreignAidGranted actor.name)).pay seat 2
  | .tax => (g.note (Wording.taxGranted actor.name)).pay seat 3
  | .embezzle =>
    let g := g.note (Wording.embezzleGranted actor.name)
    { g with treasury := 0 }.pay seat g.treasury
  | .assassinate target =>
    let victim ← g.player target
    let g ← (g.note (Wording.assassinateGranted actor.name victim.name)).payAssassin seat
    -- the target may have died by challenging the assassin
    if g.isAlive target then g.pushLoss target else return g
  | .steal target =>
    let victim ← g.player target
    (g.note (Wording.stealGranted actor.name victim.name)).rob seat target
  | .exchange => (g.note (Wording.exchangeGranted actor.name)).startExchange seat
  | .inspect target =>
    let victim ← g.player target
    if victim.isAlive then
      let g := g.note (Wording.inspectGranted actor.name victim.name)
      g.push (.interrogation ⟨seat, target, none⟩)
    else
      return g
  | .block => g.dropBlocked

/-- Takes the claim off the top of the stack and carries it out. -/
def resolve (g : Game) (c : Claim) : Except Fault Game := do
  let g ← g.pop
  g.stir.grant c.actor c.effect

/-! ## Objections -/

/-- Takes back the alarm of the claim on top, which is suspended. -/
def suspend (g : Game) (c : Claim) : Game :=
  (g.cancelAlarm c.alarm).setTop (.claim { c with alarm := none })

/-- Takes in an acceptance. -/
def acceptInput (g : Game) (c : Claim) (seat : Nat) : Except Fault Game :=
  let c := { c with accepted := c.accepted.insert seat }
  let g := g.setTop (.claim c)
  if g.isAccepted c then g.resolve c else .ok g

/-- Takes in a challenge. -/
def challengeInput (g : Game) (c : Claim) (seat : Nat) : Except Fault Game := do
  if c.challengeable && seat != c.actor && g.isAlive seat then
    let g ← (g.suspend c).push (.reveal ⟨seat, c.actor, c.challengedClans, c.inverted⟩)
    return g.stir
  else
    return g

/-- Takes in a block, which is a claim of its own. -/
def blockInput (g : Game) (c : Claim) (seat : Nat) : Except Fault Game := do
  if c.blockable && seat != c.actor && g.isAlive seat && g.canBlock c seat then
    let blocker ← g.player seat
    let message := Wording.block blocker.name (g.cast.describe c.blockingClans)
    let counter : Claim := { actor := seat, message, effect := .block }
    (g.suspend c).declare (counter.challengeableBy c.blockingClans)
  else
    return g

/-- Takes in a press while a claim is before the table. -/
def claimInput (g : Game) (c : Claim) (seat : Nat) (m : Move) : Except Fault Game :=
  match m with
  | .accept => g.acceptInput c seat
  | .challenge => g.challengeInput c seat
  | .block => g.blockInput c seat
  | _ => .ok g

/-! ## Asking the table -/

/-- What the table is asked about a claim. -/
def claimText (g : Game) (c : Claim) : String :=
  let challenge := if c.challengeable then Wording.askChallenge else ""
  let block :=
    if c.blockable then
      Wording.askBlock c.challengeable (c.target.map g.nameOf) (g.isReformation && !g.isReunified)
        (g.cast.describe c.blockingClans)
    else ""
  c.message ++ challenge ++ block

/-- The buttons under a claim. -/
def claimButtons (c : Claim) : List Button :=
  (if c.challengeable then [⟨"Challenge", Move.challenge.data⟩] else [])
    ++ (if c.blockable then [⟨"Block", Move.block.data⟩] else [])
    ++ [⟨"Accept", Move.accept.data⟩]

/-- Asks the table about the claim on top, with a new alarm. -/
def askTable (g : Game) (c : Claim) : Except Fault Game := do
  let (id, venue) ← (g.cancelAlarm c.alarm).venue.arm g.waitTime
  let g := { g with venue }.setTop (.claim { c with alarm := some id })
  return g.broadcast (g.claimText c) (claimButtons c)

/-- Goes on with a claim. Everybody has to accept again each time the table is asked; where nobody
is left who could oppose, say because a challenge killed the only player who could block, the claim
goes through. -/
def claimIdle (g : Game) (c : Claim) : Except Fault Game :=
  let c := { c with accepted := ∅ }
  let g := g.setTop (.claim c)
  if g.isAccepted c then g.resolve c else g.askTable c

end CoupTable.Game
