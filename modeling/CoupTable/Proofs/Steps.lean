import CoupTable.Game.Run
import CoupTable.Proofs.Statuses

/-!
# What a step of a game can do

`Step g cause g'` says that `g'` comes from `g` by one press, one alarm, or one turn of the frame on
top to go on by itself. There is one constructor for each thing that can happen; it says when it
happens and what causes it, and gives the game after it as an update of the game before it. Only the
texts of messages are left open, but the turn that passes on sends a status, and no step but that
and the deal does. What a claim does when it goes through is `Grant`, what a challenge comes to is
`Answer`.

`dispatch_yields` and `idle_idled` show that the functions that run a game take such steps and no
others, so that every invariant is a case analysis of `Step`.
-/

namespace CoupTable

/-! ## Claims by their effect -/

namespace Effect

/-- Whom the effect is aimed at. -/
def victim? : Effect → Option Nat
  | assassinate target | steal target | inspect target => some target
  | foreignAid | tax | exchange | embezzle | block => none

/-- The only player who may block a claim to the effect. -/
def blocker? : Effect → Option Nat
  | assassinate target | steal target => some target
  | foreignAid | tax | exchange | embezzle | inspect _ | block => none

/-- The clans that a claim to the effect is about. -/
def challengedClans : Effect → ClanSet
  | tax | embezzle => { taxCollectors := true }
  | exchange | inspect _ => { negotiators := true }
  | assassinate _ => { assassins := true }
  | steal _ => { thieves := true }
  | foreignAid | block => ∅

/-- The clans that block a claim to the effect. -/
def blockingClans : Effect → ClanSet
  | foreignAid => { taxCollectors := true }
  | assassinate _ => { intouchables := true }
  | steal _ => { thieves := true, negotiators := true }
  | tax | exchange | embezzle | inspect _ | block => ∅

/-- Whether a claim to the effect can be challenged. -/
def isChallengeable : Effect → Bool
  | foreignAid => false
  | tax | exchange | embezzle | assassinate _ | steal _ | inspect _ | block => true

/-- Whether a claim to the effect can be blocked. -/
def isBlockable : Effect → Bool
  | foreignAid | assassinate _ | steal _ => true
  | tax | exchange | embezzle | inspect _ | block => false

/-- Whether a claim to the effect is *not* to have its clans. -/
def isInverted : Effect → Bool
  | embezzle => true
  | foreignAid | tax | exchange | assassinate _ | steal _ | inspect _ | block => false

end Effect

/-- What a move at the beginning of a turn claims. -/
def Move.effect? : Move → Option Effect
  | foreignAid => some .foreignAid
  | tax => some .tax
  | assassinate (some target) => some (.assassinate target)
  | exchange => some .exchange
  | steal (some target) => some (.steal target)
  | embezzle => some .embezzle
  | inspect (some target) => some (.inspect target)
  | income | coup _ | assassinate none | steal none | convert _ | inspect none | accept | challenge
  | block | lose _ | reveal _ | keep _ | showCard _ | canKeep _ | gameType _ => none

/-- Whether a move against somebody does not say against whom. -/
def Move.lacksTarget : Move → Bool
  | coup none | assassinate none | steal none | convert none | inspect none => true
  | _ => false

/-- A move without a target claims nothing. -/
theorem Move.effect?_of_lacksTarget {m : Move} (h : m.lacksTarget = true) : m.effect? = none := by
  unfold lacksTarget at h
  split at h
  case h_6 => cases h
  all_goals rfl

namespace Claim

/-- The claim of a player at the beginning of a turn. -/
def opening (actor : Nat) (message : String) (effect : Effect) : Claim :=
  { actor, message, effect, challengeable := effect.isChallengeable,
    blockable := effect.isBlockable, inverted := effect.isInverted,
    challengedClans := effect.challengedClans, blockingClans := effect.blockingClans,
    target := effect.blocker? }

/-- The claim of a player who blocks another claim by some clans. -/
def counter (seat : Nat) (message : String) (clans : ClanSet) : Claim :=
  { actor := seat, message, effect := .block, challengeable := true, challengedClans := clans }

end Claim

namespace Game

/-! ## Claims that go through -/

/-- The game once the claim on top of `below` is taken off. -/
def lifted (g : Game) (c : Claim) (below : List Frame) : Game :=
  { g with venue := g.venue.release c.alarm, stack := ⟨below⟩, stirred := true }

/-- What carrying out a claim of the player in a seat does, by its effect. -/
inductive Grant (g : Game) (seat : Nat) : Effect → Game → Prop where
  /-- Two coins are taken. -/
  | foreignAid {p ms} (hp : g.players[seat]? = some p) (hms : g.Remarks ms) :
    Grant g seat .foreignAid { g with
      venue := g.venue.saying ms
      players := g.players.set seat { p with coins := p.coins + 2 } }
  /-- Three coins are taken. -/
  | tax {p ms} (hp : g.players[seat]? = some p) (hms : g.Remarks ms) :
    Grant g seat .tax { g with
      venue := g.venue.saying ms
      players := g.players.set seat { p with coins := p.coins + 3 } }
  /-- The treasury is taken. -/
  | embezzle {p ms} (hp : g.players[seat]? = some p) (hms : g.Remarks ms) :
    Grant g seat .embezzle { g with
      venue := g.venue.saying ms
      players := g.players.set seat { p with coins := p.coins + g.treasury }
      treasury := 0 }
  /-- The assassin pays, and the target has to lose a card. -/
  | assassinate {p ms target} (hp : g.players[seat]? = some p) (ht : g.isAlive target = true)
      (hms : g.Remarks ms) :
    Grant g seat (.assassinate target) { g with
      venue := g.venue.saying ms
      players := g.players.set seat { p with coins := p.coins - assassinationCost }
      stack := ⟨.loss target :: g.stack.frames⟩ }
  /-- The assassin pays, but the target is dead already. -/
  | assassinateDead {p ms target} (hp : g.players[seat]? = some p)
      (ht : g.isAlive target = false) (hms : g.Remarks ms) :
    Grant g seat (.assassinate target) { g with
      venue := g.venue.saying ms
      players := g.players.set seat { p with coins := p.coins - assassinationCost } }
  /-- Up to two coins change hands. -/
  | steal {p q ms target} (hp : g.players[seat]? = some p) (hq : g.players[target]? = some q)
      (hne : target ≠ seat) (hms : g.Remarks ms) :
    Grant g seat (.steal target) { g with
      venue := g.venue.saying ms
      players := (g.players.set target { q with coins := q.coins - min q.coins 2 }).set seat
        { p with coins := p.coins + min q.coins 2 } }
  /-- Cards are drawn and offered together with the living ones. -/
  | exchange {p ms drawn rest} (hp : g.players[seat]? = some p)
      (hdeck : g.deck.cards = drawn ++ rest) (hdrawn : drawn.length = g.exchangeDraw)
      (hms : g.Remarks ms) :
    Grant g seat .exchange { g with
      venue := g.venue.saying ms
      deck := ⟨rest⟩
      stack := ⟨.exchange ⟨seat, p.cards.filter (·.dead), p.living.map (·.2) ++ drawn⟩
        :: g.stack.frames⟩ }
  /-- The target has to show a card. -/
  | inspect {ms target} (ht : g.isAlive target = true) (hms : g.Remarks ms) :
    Grant g seat (.inspect target) { g with
      venue := g.venue.saying ms
      stack := ⟨.interrogation ⟨seat, target, none⟩ :: g.stack.frames⟩ }
  /-- The target is dead already. -/
  | inspectDead {target} (ht : g.isAlive target = false) : Grant g seat (.inspect target) g
  /-- The claim below is dropped. -/
  | block {c rest ms} (hf : g.stack.frames = .claim c :: rest)
      (he : ∀ target, c.effect ≠ .assassinate target) (hms : g.Remarks ms) :
    Grant g seat .block { g with
      venue := (g.venue.saying ms).release c.alarm, stack := ⟨rest⟩, stirred := true }
  /-- The assassination below is dropped, and paid for all the same. -/
  | blockKill {c rest ms p target} (hf : g.stack.frames = .claim c :: rest)
      (he : c.effect = .assassinate target) (hp : g.players[c.actor]? = some p)
      (hms : g.Remarks ms) :
    Grant g seat .block { g with
      venue := (g.venue.saying ms).release c.alarm
      players := g.players.set c.actor { p with coins := p.coins - assassinationCost }
      stack := ⟨rest⟩
      stirred := true }

/-! ## Challenges that are answered -/

/-- The draw pile once some cards were put back and it was shuffled, and the generator after
that. -/
def reshuffled (g : Game) (cards : List Character) : Deck × Pcg :=
  (cards.foldl Deck.putBack g.deck).shuffle g.rng

/-- What an answer to the challenge on top of the claim `c` does, by the choice that was made. -/
inductive Answer (g : Game) (r : Reveal) (c : Claim) (below : List Frame) : Nat → Game → Prop where
  /-- A card of the claimed clans is revealed and changed, and the challenger has to lose one. -/
  | proven {p slot card drawn rest ms} (hp : g.players[r.challenged]? = some p)
      (hplain : r.inverted = false)
      (hcard : p.cards[slot]? = some card) (hlives : card.dead = false)
      (hclan : r.clans.contains card.character.clan = true)
      (hdeck : (g.reshuffled [card.character]).1.cards = drawn :: rest) (hms : g.Remarks ms) :
    Answer g r c below slot { g with
      venue := g.venue.saying ms
      rng := (g.reshuffled [card.character]).2
      players := g.players.set r.challenged (p.redraw [slot] [drawn])
      deck := ⟨rest⟩
      stack := ⟨.loss r.challenger :: .claim { c with challengeable := false } :: below⟩
      stirred := true }
  /-- The whole hand is shown to have no card of the clans, and changed. -/
  | shown {p drawn rest ms} (hp : g.players[r.challenged]? = some p)
      (hinverted : r.inverted = true) (hclan : p.holds r.clans = false)
      (hdeck : (g.reshuffled (p.living.map (·.2))).1.cards = drawn ++ rest)
      (hdrawn : drawn.length = p.livingCount) (hms : g.Remarks ms) :
    Answer g r c below 1 { g with
      venue := g.venue.saying ms
      rng := (g.reshuffled (p.living.map (·.2))).2
      players := g.players.set r.challenged (p.redraw p.livingSlots drawn)
      deck := ⟨rest⟩
      stack := ⟨.loss r.challenger :: .claim { c with challengeable := false } :: below⟩
      stirred := true }
  /-- A card of other clans is revealed and lost, and the claim with it. -/
  | caught {p slot card ms} (hp : g.players[r.challenged]? = some p)
      (hplain : r.inverted = false)
      (hcard : p.cards[slot]? = some card) (hlives : card.dead = false)
      (hclan : r.clans.contains card.character.clan = false) (hms : g.Remarks ms) :
    Answer g r c below slot { g with
      venue := (g.venue.saying ms).release c.alarm
      players := g.players.set r.challenged (p.killSlot slot)
      stack := ⟨below⟩
      stirred := true }
  /-- The claim is given up, and a card has to be lost. -/
  | conceded {ms} (hinverted : r.inverted = true) (hms : g.Remarks ms) :
    Answer g r c below 0 { g with
      venue := (g.venue.saying ms).release c.alarm
      stack := ⟨.loss r.challenged :: below⟩
      stirred := true }

/-! ## Steps -/

/-- What a player needs for a claim at the beginning of a turn. -/
structure CanOpen (g : Game) (effect : Effect) : Prop where
  /-- The player is alive. -/
  actor : g.isAlive g.current = true
  /-- A block answers another claim. -/
  ne_block : effect ≠ .block
  /-- The effect is aimed at somebody who may be moved against. -/
  target : ∀ target, effect.victim? = some target → g.isTarget g.current target = true
  /-- An assassin has the coins. -/
  coins : ∀ target, effect = .assassinate target → assassinationCost ≤ g.coinsOf g.current
  /-- There is a treasury to embezzle. -/
  treasury : effect = .embezzle → g.isReformation = true
  /-- There is an inquisitor to inspect. -/
  inquisitor : ∀ target, effect = .inspect target → g.usesInquisitor = true

/-- What makes a game take a step. -/
inductive Cause where
  /-- A player makes a move. -/
  | press (seat : Nat) (m : Move)
  /-- An alarm goes off. -/
  | alarm (id : AlarmId)
  /-- The frame on top goes on by itself. -/
  | idle

/-- The game `g'` comes from the game `g` by one step. -/
inductive Step (g : Game) : Cause → Game → Prop where
  /-- The variant is chosen and the cards are dealt. -/
  | deal {v ms below seat index g'} (hf : g.stack.frames = .variantChoice :: below)
      (hv : Variant.ofIndex? index = some v)
      (h : { g with venue := g.venue.saying ms, stack := ⟨below⟩ }.deal v = .ok g') :
    Step g (.press seat (.gameType index)) g'
  /-- The current player takes one coin. -/
  | income {p ms below} (hf : g.stack.frames = .turn :: below)
      (hp : g.players[g.current]? = some p) (hc : p.coins < forcedCoupCoins)
      (hms : g.Remarks ms) :
    Step g (.press g.current .income) { g with
      venue := g.venue.saying ms
      players := g.players.set g.current { p with coins := p.coins + 1 }
      stirred := true }
  /-- The current player pays for a coup, and the target has to lose a card. -/
  | coup {p ms below target} (hf : g.stack.frames = .turn :: below)
      (hp : g.players[g.current]? = some p) (hlives : g.isAlive g.current = true)
      (hc : coupCost ≤ p.coins) (ht : g.isTarget g.current target = true)
      (hms : g.Remarks ms) :
    Step g (.press g.current (.coup (some target))) { g with
      venue := g.venue.saying ms
      players := g.players.set g.current { p with coins := p.coins - coupCost }
      stack := ⟨.loss target :: g.stack.frames⟩
      stirred := true }
  /-- The current player pays the treasury for a change of sides. -/
  | convert {p q ms below target} (hf : g.stack.frames = .turn :: below)
      (hr : g.isReformation = true) (hp : g.players[g.current]? = some p)
      (hc : p.coins < forcedCoupCoins) (ht : g.isAlive target = true)
      (hcost : conversionCost g.current target ≤ p.coins)
      (hq : (g.players.set g.current
        { p with coins := p.coins - conversionCost g.current target })[target]? = some q)
      (hms : g.Remarks ms) :
    Step g (.press g.current (.convert (some target))) { g with
      venue := g.venue.saying ms
      players := (g.players.set g.current
        { p with coins := p.coins - conversionCost g.current target }).set target
        { q with allegiance := q.allegiance.flip }
      treasury := g.treasury + conversionCost g.current target
      stirred := true }
  /-- The current player makes a claim. -/
  | claim {below effect message m} (hf : g.stack.frames = .turn :: below)
      (hc : g.coinsOf g.current < forcedCoupCoins) (h : g.CanOpen effect)
      (hm : m.effect? = some effect) :
    Step g (.press g.current m) { g with
      stack := ⟨.claim (.opening g.current message effect) :: g.stack.frames⟩, stirred := true }
  /-- The current player is asked for a target. -/
  | askTarget {ms below m} (hf : g.stack.frames = .turn :: below) (hm : m.lacksTarget = true)
      (hms : g.Remarks ms) :
    Step g (.press g.current m) { g with venue := g.venue.saying ms }
  /-- The turn passes on. -/
  | pass {below} (hf : g.stack.frames = .turn :: below)
      (hover : g.isFinished = true → g.isOver = true) :
    Step g .idle { g with
      venue := g.venue.saying [{ g with current := g.nextSeat }.status], current := g.nextSeat }
  /-- The turn would pass on, but the game is over. -/
  | finish {below} (hf : g.stack.frames = .turn :: below) (hfinished : g.isFinished = true)
      (hover : g.isOver = false) :
    Step g .idle { g with
      venue := (g.venue.saying [{ g with current := g.nextSeat }.status]).arming 0
      current := g.nextSeat
      isOver := true
      overAlarm := some g.venue.alarms.next }
  /-- A claim is accepted by somebody, which is not enough. -/
  | accept {c below seat} (hf : g.stack.frames = .claim c :: below)
      (ha : g.isAccepted { c with accepted := c.accepted.insert seat } = false) :
    Step g (.press seat .accept) { g with
      stack := ⟨.claim { c with accepted := c.accepted.insert seat } :: below⟩ }
  /-- A claim is accepted by the last one who had to. -/
  | acceptLast {c below seat g'} (hf : g.stack.frames = .claim c :: below)
      (ha : g.isAccepted { c with accepted := c.accepted.insert seat } = true)
      (h : Grant (g.lifted c below) c.actor c.effect g') :
    Step g (.press seat .accept) g'
  /-- Time runs out for a claim. -/
  | timeOut {c below id g'} (hf : g.stack.frames = .claim c :: below) (hid : c.alarm = some id)
      (h : Grant { g with stack := ⟨below⟩, stirred := true } c.actor c.effect g') :
    Step g (.alarm id) g'
  /-- A claim is left that nobody could oppose. -/
  | unopposed {c below g'} (hf : g.stack.frames = .claim c :: below)
      (ha : g.isAccepted { c with accepted := ∅ } = true)
      (h : Grant (g.lifted c below) c.actor c.effect g') : Step g .idle g'
  /-- The table is asked about a claim. -/
  | ask {c below ms} (hf : g.stack.frames = .claim c :: below)
      (ha : g.isAccepted { c with accepted := ∅ } = false) (hms : g.Remarks ms) :
    Step g .idle { g with
      venue := ((g.venue.release c.alarm).arming g.waitTime).saying ms
      stack := ⟨.claim { c with accepted := ∅, alarm := some g.venue.alarms.next } :: below⟩ }
  /-- A claim is challenged. -/
  | challenge {c below seat} (hf : g.stack.frames = .claim c :: below)
      (hc : c.challengeable = true) (hne : seat ≠ c.actor) (hlives : g.isAlive seat = true) :
    Step g (.press seat .challenge) { g with
      venue := g.venue.release c.alarm
      stack := ⟨.reveal ⟨seat, c.actor, c.challengedClans, c.inverted⟩
        :: .claim { c with alarm := none } :: below⟩
      stirred := true }
  /-- A claim is blocked. -/
  | block {c below seat message} (hf : g.stack.frames = .claim c :: below)
      (hc : c.blockable = true) (hne : seat ≠ c.actor) (hlives : g.isAlive seat = true)
      (hblock : g.canBlock c seat = true) :
    Step g (.press seat .block) { g with
      venue := g.venue.release c.alarm
      stack := ⟨.claim (.counter seat message c.blockingClans)
        :: .claim { c with alarm := none } :: below⟩
      stirred := true }
  /-- A challenge is answered. -/
  | answer {r c below choice g'} (hf : g.stack.frames = .reveal r :: .claim c :: below)
      (h : Answer g r c below choice g') :
    Step g (.press r.challenged (.reveal choice)) g'
  /-- A challenge is answered with the last card. -/
  | answerLast {r c below p choice g'} (hf : g.stack.frames = .reveal r :: .claim c :: below)
      (hp : g.players[r.challenged]? = some p) (hplain : r.inverted = false)
      (hsingle : p.singleLiving? = some choice) (h : Answer g r c below choice g') :
    Step g .idle g'
  /-- A challenge of a dead player drops the claim. -/
  | dropDead {r c below} (hf : g.stack.frames = .reveal r :: .claim c :: below)
      (hdead : g.isAlive r.challenged = false) :
    Step g .idle { g with venue := g.venue.release c.alarm, stack := ⟨below⟩, stirred := true }
  /-- A card is given up. -/
  | lose {seat below p slot ms} (hf : g.stack.frames = .loss seat :: below)
      (hp : g.players[seat]? = some p) (hlives : p.hasLiving slot = true)
      (hms : g.Remarks ms) :
    Step g (.press seat (.lose slot)) { g with
      venue := g.venue.saying ms
      players := g.players.set seat (p.killSlot slot)
      stack := ⟨below⟩
      stirred := true }
  /-- All cards that are left are lost, since they are owed. -/
  | loseAll {seat below p} (hf : g.stack.frames = .loss seat :: below)
      (hp : g.players[seat]? = some p) (hall : g.losesAll seat p.livingCount = true) :
    Step g .idle { g with
      players := g.players.set seat p.killAll, stack := ⟨below⟩, stirred := true }
  /-- One of the cards on offer is kept, and more are to come. -/
  | keep {e below index c} (hf : g.stack.frames = .exchange e :: below)
      (hc : e.offered[index]? = some c) (hmore : e.hand.length + 1 < handSize) :
    Step g (.press e.player (.keep index)) { g with
      stack := ⟨.exchange { e with
        hand := e.hand ++ [⟨c, false⟩], offered := e.offered.eraseIdx index } :: below⟩
      stirred := true }
  /-- The last card is kept, and the others go back. -/
  | keepLast {e below index c p ms} (hf : g.stack.frames = .exchange e :: below)
      (hc : e.offered[index]? = some c) (hlast : handSize ≤ e.hand.length + 1)
      (hp : g.players[e.player]? = some p) (hms : g.Remarks ms) :
    Step g (.press e.player (.keep index)) { g with
      venue := g.venue.saying ms
      rng := (g.reshuffled (e.offered.eraseIdx index)).2
      players := g.players.set e.player { p with cards := e.hand ++ [⟨c, false⟩] }
      deck := (g.reshuffled (e.offered.eraseIdx index)).1
      stack := ⟨below⟩
      stirred := true }
  /-- A card is shown to the inquisitor. -/
  | showCard {i below slot ms} (hf : g.stack.frames = .interrogation i :: below)
      (hshown : i.shown = none) (hlives : g.livesAt i.target slot = true)
      (hms : g.Remarks ms) :
    Step g (.press i.target (.showCard slot)) { g with
      venue := g.venue.saying ms
      stack := ⟨.interrogation { i with shown := some slot } :: below⟩
      stirred := true }
  /-- The only card is shown to the inquisitor without asking. -/
  | showOnly {i below slot p ms} (hf : g.stack.frames = .interrogation i :: below)
      (hshown : i.shown = none) (hlives : g.livesAt i.target slot = true)
      (hp : g.players[i.target]? = some p) (hsingle : p.singleLiving? = some slot)
      (hms : g.Remarks ms) :
    Step g .idle { g with
      venue := g.venue.saying ms
      stack := ⟨.interrogation { i with shown := some slot } :: below⟩ }
  /-- The card shown may be kept. -/
  | allow {i below slot ms} (hf : g.stack.frames = .interrogation i :: below)
      (hshown : i.shown = some slot) (hms : g.Remarks ms) :
    Step g (.press i.inquisitor (.canKeep true)) { g with
      venue := g.venue.saying ms, stack := ⟨below⟩, stirred := true }
  /-- The card shown is changed. -/
  | change {i below slot p card drawn rest ms} (hf : g.stack.frames = .interrogation i :: below)
      (hshown : i.shown = some slot) (hp : g.players[i.target]? = some p)
      (hcard : p.cards[slot]? = some card) (hlives : card.dead = false)
      (hdeck : (g.reshuffled [card.character]).1.cards = drawn :: rest)
      (hms : g.Remarks ms) :
    Step g (.press i.inquisitor (.canKeep false)) { g with
      venue := g.venue.saying ms
      rng := (g.reshuffled [card.character]).2
      players := g.players.set i.target (p.redraw [slot] [drawn])
      deck := ⟨rest⟩
      stack := ⟨below⟩
      stirred := true }
  /-- Somebody is asked for something that is not about a claim. -/
  | askSomebody {f below ms} (hf : g.stack.frames = f :: below) (hne : f ≠ .turn)
      (hclaim : ∀ c, f ≠ .claim c) (hms : g.Remarks ms) :
    Step g .idle { g with venue := g.venue.saying ms }

/-! ## What the frame on top allows -/

section FrameOnTop

variable {g g' : Game} {cause : Cause} {below : List Frame}

/-- While the variant is open, it is asked for, or chosen. -/
theorem Step.of_variantChoice (hstep : Step g cause g')
    (hf : g.stack.frames = .variantChoice :: below) :
    (cause = .idle ∧ ∃ venue, g' = { g with venue }) ∨
    ∃ seat index v ms, cause = .press seat (.gameType index) ∧ Variant.ofIndex? index = some v ∧
      { g with venue := g.venue.saying ms, stack := ⟨below⟩ }.deal v = .ok g' := by
  cases hstep with
  | deal hf' hv hdeal =>
    cases hf.symm.trans hf'
    exact .inr ⟨_, _, _, _, rfl, hv, hdeal⟩
  | askSomebody => exact .inl ⟨rfl, _, rfl⟩
  | income hf' | coup hf' | convert hf' | claim hf' | askTarget hf' | pass hf' | finish hf'
  | accept hf' | acceptLast hf' | timeOut hf' | unopposed hf' | ask hf' | challenge hf' | block hf'
  | answer hf' | answerLast hf' | dropDead hf' | lose hf' | loseAll hf' | keep hf' | keepLast hf'
  | showCard hf' | showOnly hf' | allow hf' | change hf' => cases hf.symm.trans hf'

/-- A turn that goes on by itself passes on, with one status. -/
theorem Step.idle_of_turn (hstep : Step g .idle g') (hf : g.stack.frames = .turn :: below) :
    ∃ venue isOver overAlarm,
      venue.outbox = { g with current := g.nextSeat }.status :: g.venue.outbox ∧
      g' = { g with venue, current := g.nextSeat, isOver, overAlarm } := by
  cases hstep with
  | pass | finish => exact ⟨_, _, _, rfl, rfl⟩
  | askSomebody hf' hne => exact absurd (List.cons.inj (hf'.symm.trans hf)).1 hne
  | unopposed hf' | ask hf' | answerLast hf' | dropDead hf' | loseAll hf' | showOnly hf' =>
    cases hf'.symm.trans hf

end FrameOnTop

end Game

end CoupTable
