import CoupTable.Proofs.Aftermath

/-!
# A card that is owed

While a player has to lose a card, nothing that comes in changes anything but the venue, until the
player chooses a card. That card is then the only one that is lost, and what lies below the loss
goes on.
-/

namespace CoupTable.Game

variable {g g' x : Game} {cause : Cause} {i : Input} {inputs : List Input} {seat slot : Nat}
  {p : Player} {below : List Frame}

/-- The game after the player `p` in a seat lost the card in a slot, with the loss taken off. -/
def lost (g : Game) (seat : Nat) (p : Player) (slot : Nat) (below : List Frame) (venue : Venue) :
    Game :=
  { g with
    venue
    players := g.players.set seat (p.killSlot slot)
    stack := ⟨below⟩
    stirred := true }

/-- The player in a seat loses a living card, and the game settles at `x`. -/
def Loses (g : Game) (seat : Nat) (below : List Frame) (x : Game) : Prop :=
  ∃ p slot venue, g.players[seat]? = some p ∧ p.hasLiving slot = true ∧
    (g.lost seat p slot below venue).Sound ∧ Settles (g.lost seat p slot below venue) x

/-- All cards that are left are taken only from a player with one card. -/
theorem Sound.livingCount_of_losesAll (h : g.Sound) (hf : g.stack.frames = .loss seat :: below)
    (hp : g.players[seat]? = some p) (hall : g.losesAll seat p.livingCount = true) :
    p.livingCount = 1 := by
  obtain ⟨q, hq, hlives⟩ := h.of_loss hf
  cases hp.symm.trans hq
  have hpos := Player.isAlive_iff_livingCount.1 hlives
  have hcount := p.livingCount_add_deadCount
  rw [h.length_hand (h.variant_ne_none hf nofun) hp] at hcount
  have hshape := h.shape_of hf
  by_contra hne
  have htwo : p.livingCount = 2 := by
    unfold handSize at hcount
    omega
  -- The second frame is the turn or a claim, so that it is not owed as a second loss.
  rw [htwo, losesAll, hf] at hall
  cases hshape with
  | loss | upheld => simp at hall

/-- A step that a loss on top takes is the question which card, or the loss. -/
theorem Step.of_loss (h : g.Sound) (hstep : Step g cause g')
    (hf : g.stack.frames = .loss seat :: below) :
    (cause = .idle ∧ ∃ venue, g' = { g with venue }) ∨
    ∃ p slot venue, g.players[seat]? = some p ∧ p.hasLiving slot = true ∧
      g' = g.lost seat p slot below venue := by
  cases hstep with
  | lose hf' hp hlives =>
    rw [hf] at hf'
    cases hf'
    exact .inr ⟨_, _, _, hp, hlives, rfl⟩
  | loseAll hf' hp hall =>
    rw [hf] at hf'
    cases hf'
    obtain ⟨slot, hlives, hkill⟩ :=
      Player.killAll_of_single (h.livingCount_of_losesAll hf hp hall)
    rw [hkill]
    exact .inr ⟨_, slot, g.venue, hp, hlives, rfl⟩
  | askSomebody => exact .inl ⟨rfl, _, rfl⟩
  | deal hf' | income hf' | coup hf' | convert hf' | claim hf' | askTarget hf' | pass hf'
  | finish hf' | accept hf' | acceptLast hf' | timeOut hf' | unopposed hf' | ask hf'
  | challenge hf' | block hf' | answer hf' | answerLast hf' | dropDead hf' | keep hf'
  | keepLast hf' | showCard hf' | showOnly hf' | allow hf' | change hf' =>
    rw [hf] at hf'
    cases hf'

/-- A game with a loss on top settles by asking which card, or the player loses one. -/
theorem Settles.of_loss (hsettles : Settles g x) (h : g.Sound)
    (hf : g.stack.frames = .loss seat :: below) :
    (∃ venue, x = { g with venue, stirred := false }) ∨ g.Loses seat below x := by
  obtain ⟨hstill, rfl⟩ | ⟨-, g₁, hidled, hsound, hsettles⟩ := hsettles.split h
  · exact .inl ⟨x.venue, by rw [← hstill]⟩
  · obtain ⟨-, venue, rfl⟩ | ⟨p, slot, venue, hp, hlives, rfl⟩ := hidled.step.of_loss h.hush hf
    · cases hsettles.eq_of_still rfl
      exact .inl ⟨venue, rfl⟩
    · exact .inr ⟨p, slot, venue, hp, hlives, hsound, hsettles⟩

/-- What comes in while a player has to lose a card changes the venue alone, or the player loses
one. -/
theorem AtRest.feed_of_loss (h : g.AtRest) (hf : g.stack.frames = .loss seat :: below)
    (hfeed : g.feed i = .ok x) : (∃ venue, x = { g with venue }) ∨ g.Loses seat below x := by
  obtain ⟨hstay, -⟩ | ⟨_, _, _, g₁, -, -, -, hstep, hsound, hsettles⟩ :=
    feed_cases h hf nofun (fun _ => nofun) hfeed
  · exact .inl hstay
  · obtain ⟨hidle, -⟩ | ⟨p, slot, venue, hp, hlives, rfl⟩ := hstep.of_loss h.toSound hf
    · cases hidle
    · exact .inr ⟨p, slot, venue, hp, hlives, hsound, hsettles⟩

/-- A loss on top has to be taken. -/
theorem isArbitrating_of_loss (hf : g.stack.frames = .loss seat :: below) :
    g.isArbitrating = true := by
  rw [isArbitrating, Stack.top?, hf]
  rfl

/-- A run with a loss on top that is over once it is taken comes to a game after the loss. -/
theorem RunsThrough.of_loss (hrun : RunsThrough (·.isArbitrating = true) g inputs g')
    (h : g.AtRest) (hf : g.stack.frames = .loss seat :: below)
    (hdone : g'.isArbitrating = false) :
    ∃ x rest, g.Loses seat below x ∧ RunsThrough (·.isArbitrating = true) x rest g' := by
  induction hrun with
  | done => cases (isArbitrating_of_loss hf).symm.trans hdone
  | @next g g₁ g' i inputs _ hfeed hrun ih =>
    obtain ⟨venue, rfl⟩ | hloses := h.feed_of_loss hf hfeed
    · -- The venue is the only thing that changed, and the loss does not depend on it.
      exact ih (h.feed hfeed) hf hdone
    · exact ⟨g₁, inputs, hloses, hrun⟩

/-- Wherever a game with a loss on top settles, a run from there that is over once the loss is taken
comes to a game after the loss. -/
theorem Settles.runsThrough_of_loss (hsettles : Settles g x) (h : g.Sound)
    (hf : g.stack.frames = .loss seat :: below) (hx : x.AtRest)
    (hrun : RunsThrough (·.isArbitrating = true) x inputs g') (hdone : g'.isArbitrating = false) :
    ∃ x' rest, g.Loses seat below x' ∧ RunsThrough (·.isArbitrating = true) x' rest g' := by
  obtain ⟨venue, rfl⟩ | hloses := hsettles.of_loss h hf
  · exact hrun.of_loss hx hf hdone
  · exact ⟨x, inputs, hloses, hrun⟩

end CoupTable.Game
