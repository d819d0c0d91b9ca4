import CoupTable.Game.Claims

/-!
# Turns

What the current player can do. Income, coups and conversions happen at once, the rest is claimed.
A move against somebody may be pressed without a target, and then the player is asked for one.

## Main definitions

* `Game.turnMoves`: every move that the current player could make, targets included.
* `Game.turnInput`: the current player's move.
-/

namespace CoupTable

/-- What a player pays to have a player change sides: it is cheaper to do so oneself. -/
def conversionCost (actor target : Nat) : Nat := if actor = target then 1 else 2

namespace Game

/-- Whether a player may move against another: a living one who is not on the same side. -/
def isTarget (g : Game) (actor target : Nat) : Bool :=
  target != actor && g.isAlive target && !g.protects actor target

/-- Those whom the current player may move against. -/
def targets (g : Game) : List Nat := g.seats.filter (g.isTarget g.current)

/-- Every move that the current player could make. -/
def turnMoves (g : Game) : List Move :=
  let coins := g.coinsOf g.current
  let against (make : Option Nat → Move) := g.targets.map fun target => make (some target)
  if coins ≥ forcedCoupCoins then against .coup
  else
    [.income, .foreignAid]
      ++ (if coins ≥ coupCost then against .coup else [])
      ++ (if g.isReformation then
            (g.livingSeats.filter fun target => conversionCost g.current target ≤ coins).map
                (fun target => .convert (some target))
              ++ [.embezzle]
          else [])
      ++ [.tax]
      ++ (if coins ≥ assassinationCost then against .assassinate else [])
      ++ [.exchange]
      ++ (if g.usesInquisitor then against .inspect else [])
      ++ against .steal

/-! ## Targets -/

/-- Asks the current player for a target among some. -/
def askTarget (g : Game) (seats : List Nat) (question : String) (make : Option Nat → Move) : Game :=
  let buttons := seats.map fun seat => ⟨g.nameOf seat, (make (some seat)).data⟩
  g.broadcast (Wording.askTarget (g.nameOf g.current) question) buttons

/-- Goes on with a legal target. Without one the player is asked, and an illegal one is ignored. -/
def withTarget (g : Game) (target : Option Nat) (question : String) (make : Option Nat → Move)
    (act : Nat → Player → Except Fault Game) : Except Fault Game := do
  match target with
  | none => return g.askTarget g.targets question make
  | some target =>
    if g.isTarget g.current target then
      let victim ← g.player target
      act target victim
    else
      return g

/-! ## Moves that happen at once -/

/-- Takes one coin. -/
def income (g : Game) (actor : Player) : Except Fault Game := do
  let g ← (g.note (Wording.income actor.name)).pay g.current 1
  return g.stir

/-- Makes a coup against a player, who loses a card. -/
def coup (g : Game) (actor : Player) (target : Option Nat) : Except Fault Game :=
  if actor.coins < coupCost then .ok g
  else g.withTarget target Wording.whomToCoup .coup fun target victim => do
    let g ← (g.note (Wording.coup actor.name victim.name)).charge g.current coupCost
    g.stir.pushLoss target

/-- Pays the treasury for a change of sides. Sides do not protect from it. -/
def convert (g : Game) (actor : Player) (target : Option Nat) : Except Fault Game := do
  if !g.isReformation || actor.coins = 0 then return g
  match target with
  | none => return g.askTarget g.livingSeats Wording.whomToConvert .convert
  | some target =>
    let cost := conversionCost g.current target
    if g.isAlive target && cost ≤ actor.coins then
      let other ← g.player target
      let text :=
        if target = g.current then Wording.convertSelf actor.name
        else Wording.convertOther actor.name other.name
      let g ← (g.note text).charge g.current cost
      let g := { g with treasury := g.treasury + cost }
      let g ← g.modifyPlayer target fun p => { p with allegiance := p.allegiance.flip }
      return g.stir
    else
      return g

/-! ## Moves that are claimed -/

/-- A claim of the current player. -/
def newClaim (g : Game) (message : String) (effect : Effect) : Claim :=
  { actor := g.current, message, effect }

/-- Asks for foreign aid, which anybody may block as the duke. -/
def claimForeignAid (g : Game) (actor : Player) : Except Fault Game :=
  let claim := g.newClaim (Wording.foreignAid actor.name) .foreignAid
  g.declare (claim.blockableBy { taxCollectors := true } none)

/-- Claims to be the duke, for tax. -/
def claimTax (g : Game) (actor : Player) : Except Fault Game :=
  let claim := g.newClaim (Wording.tax actor.name) .tax
  g.declare (claim.challengeableBy { taxCollectors := true })

/-- Claims to be the assassin; the target may block as the contessa. -/
def claimAssassination (g : Game) (actor : Player) (target : Option Nat) : Except Fault Game :=
  if actor.coins < assassinationCost then .ok g
  else g.withTarget target Wording.whomToAssassinate .assassinate fun target victim =>
    let claim := g.newClaim (Wording.assassinate actor.name victim.name) (.assassinate target)
    g.declare ((claim.challengeableBy { assassins := true }).blockableBy { intouchables := true }
      (some target))

/-- Claims to be the negotiator, for an exchange. -/
def claimExchange (g : Game) (actor : Player) : Except Fault Game :=
  let card := (g.cast.character .negotiators).objectName
  let claim := g.newClaim (Wording.exchange actor.name card) .exchange
  g.declare (claim.challengeableBy { negotiators := true })

/-- Claims to be the captain; the target may block as the captain or the negotiator. -/
def claimSteal (g : Game) (actor : Player) (target : Option Nat) : Except Fault Game :=
  g.withTarget target Wording.whomToRob .steal fun target victim =>
    let claim := g.newClaim (Wording.steal actor.name victim.name) (.steal target)
    g.declare ((claim.challengeableBy { thieves := true }).blockableBy
      { thieves := true, negotiators := true } (some target))

/-- Claims not to be the duke, for the treasury. -/
def claimEmbezzlement (g : Game) (actor : Player) : Except Fault Game :=
  if g.isReformation then
    let claim := g.newClaim (Wording.embezzle actor.name) .embezzle
    g.declare (claim.challengeableBy { taxCollectors := true }).invert
  else .ok g

/-- Claims to be the inquisitor, to look at a card. -/
def claimInspection (g : Game) (actor : Player) (target : Option Nat) : Except Fault Game :=
  if g.usesInquisitor then
    g.withTarget target Wording.whomToInspect .inspect fun target victim =>
      let claim := g.newClaim (Wording.inspect actor.name victim.name) (.inspect target)
      g.declare (claim.challengeableBy { negotiators := true })
  else .ok g

/-! ## The current player's move -/

/-- Takes in a press at the beginning of a turn. A player with too many coins must make a coup. -/
def turnInput (g : Game) (seat : Nat) (m : Move) : Except Fault Game := do
  if seat ≠ g.current then return g
  let actor ← g.player seat
  match m with
  | .coup target => g.coup actor target
  | _ =>
    if actor.coins ≥ forcedCoupCoins then return g
    match m with
    | .income => g.income actor
    | .foreignAid => g.claimForeignAid actor
    | .tax => g.claimTax actor
    | .assassinate target => g.claimAssassination actor target
    | .exchange => g.claimExchange actor
    | .steal target => g.claimSteal actor target
    | .convert target => g.convert actor target
    | .embezzle => g.claimEmbezzlement actor
    | .inspect target => g.claimInspection actor target
    | _ => return g

end Game

end CoupTable
