import CoupTable.Proofs.PoolSteps

/-!
# Steps keep a game sound

Together with the shape of the stack and the pool of cards, what is left to follow through the steps
is the table: the seats and the clock never change, and who has the turn, the variant and the end
of the game only change where they should.
-/

namespace CoupTable.Game

variable {g g' g'' : Game} {cause : Cause} {choice seat : Nat} {p q : Player} {f : Frame}
  {below : List Frame}

/-! ## The table -/

/-- What no step touches: the seats, the clock, and how long the table waits. -/
structure SameTable (g g' : Game) : Prop where
  /-- There are as many players. -/
  seats : g'.players.length = g.players.length
  /-- No time passes. -/
  now : g'.venue.alarms.now = g.venue.alarms.now
  /-- The table waits as long. -/
  waitTime : g'.waitTime = g.waitTime

/-- What only the deal and the end of a turn touch: besides the table, whose turn it is, the
variant, and whether the game is over. -/
structure SameTurn (g g' : Game) : Prop extends g.SameTable g' where
  /-- It is the turn of the same player. -/
  current : g'.current = g.current
  /-- The variant stays. -/
  variant : g'.variant = g.variant
  /-- The game goes on as before. -/
  isOver : g'.isOver = g.isOver
  /-- No end is reported. -/
  overAlarm : g'.overAlarm = g.overAlarm

/-- The table is the same as itself. -/
theorem SameTable.refl (g : Game) : g.SameTable g := ⟨rfl, rfl, rfl⟩

/-- The table stays the same over several steps. -/
theorem SameTable.trans (h : g.SameTable g') (h' : g'.SameTable g'') : g.SameTable g'' :=
  ⟨h'.seats.trans h.seats, h'.now.trans h.now, h'.waitTime.trans h.waitTime⟩

/-- At the same table alarms ring at the same time. -/
theorem SameTable.limit_le (h : g.SameTable g') :
    g'.venue.alarms.now + g'.waitTime ≤ g.venue.alarms.now + g.waitTime := by
  have hnow := h.now
  have hwait := h.waitTime
  omega

/-- A claim that goes through leaves the turn where it is. -/
theorem Grant.sameTurn {effect : Effect} (h : Grant g seat effect g') : g.SameTurn g' := by
  have hlen := h.sameCards.length_eq
  cases h with
  | inspectDead => exact ⟨.refl _, rfl, rfl, rfl, rfl⟩
  | block | blockKill => exact ⟨⟨hlen, Venue.now_release _, rfl⟩, rfl, rfl, rfl, rfl⟩
  | _ => exact ⟨⟨hlen, rfl, rfl⟩, rfl, rfl, rfl, rfl⟩

/-- An answer leaves the turn where it is. -/
theorem Answer.sameTurn {r : Reveal} {c : Claim} (h : Answer g r c below choice g') :
    g.SameTurn g' := by
  cases h with
  | proven | shown => exact ⟨⟨List.length_set .., rfl, rfl⟩, rfl, rfl, rfl, rfl⟩
  | caught => exact ⟨⟨List.length_set .., Venue.now_release _, rfl⟩, rfl, rfl, rfl, rfl⟩
  | conceded => exact ⟨⟨rfl, Venue.now_release _, rfl⟩, rfl, rfl, rfl, rfl⟩

/-! ## The hands -/

/-- Everybody stores two cards where everybody has the cards of before. -/
theorem hands_of_sameCards (h : ∀ p ∈ g.players, p.cards.length = handSize)
    (hsame : g.SameCards g') : ∀ p ∈ g'.players, p.cards.length = handSize := by
  intro p hp
  obtain ⟨q, hq, hcards⟩ := hsame.mem hp
  rw [← hcards, h q hq]

/-- Everybody stores two cards where one player was changed who does. -/
theorem hands_of_set (h : ∀ p ∈ g.players, p.cards.length = handSize)
    (hps : g'.players = g.players.set seat q) (hq : q.cards.length = handSize) :
    ∀ p ∈ g'.players, p.cards.length = handSize := by
  intro p hp
  rw [hps] at hp
  rcases List.mem_or_eq_of_mem_set hp with hp | rfl
  · exact h p hp
  · exact hq

/-- Losing all cards keeps their number. -/
theorem length_killAll (p : Player) : p.killAll.cards.length = p.cards.length := by
  simpa [Player.characters] using congrArg List.length (characters_killAll p)

/-- After an answer everybody stores two cards. -/
theorem Answer.hands {r : Reveal} {c : Claim} (h : Answer g r c below choice g')
    (hhands : ∀ p ∈ g.players, p.cards.length = handSize) :
    ∀ p ∈ g'.players, p.cards.length = handSize := by
  cases h with
  | proven hp | shown hp =>
    exact hands_of_set hhands rfl
      ((Player.length_redraw ..).trans (hhands _ (List.mem_of_getElem? hp)))
  | caught hp =>
    exact hands_of_set hhands rfl
      (Player.length_killSlot.trans (hhands _ (List.mem_of_getElem? hp)))
  | conceded => exact hhands

/-- After every step everybody stores two cards, as long as the variant is chosen already. -/
theorem Step.hands (h : g.Sound) (hstep : Step g cause g') (hv : g.variant ≠ none) :
    ∀ p ∈ g'.players, p.cards.length = handSize := by
  have hhands := h.hands hv
  cases hstep with
  | deal hf => exact absurd (h.shape_of hf).variant_eq_none hv
  | income hf hp | coup hf hp => exact hands_of_sameCards hhands (map_cards_set hp rfl)
  | convert hf hr hp hc ht hcost hq =>
    refine hands_of_sameCards hhands ?_
    exact (map_cards_set hq (by rfl)).trans (map_cards_set hp (by rfl))
  | acceptLast hf ha hgrant | unopposed hf ha hgrant =>
    exact hands_of_sameCards (g := g.lifted _ _) hhands hgrant.sameCards
  | timeOut hf hid hgrant => exact hands_of_sameCards (g := { g with .. }) hhands hgrant.sameCards
  | answer hf hanswer | answerLast hf _ _ _ hanswer => exact hanswer.hands hhands
  | lose hf hp =>
    exact hands_of_set hhands rfl
      (Player.length_killSlot.trans (hhands _ (List.mem_of_getElem? hp)))
  | loseAll hf hp =>
    exact hands_of_set hhands rfl ((length_killAll _).trans (hhands _ (List.mem_of_getElem? hp)))
  | keepLast hf hc hlast hp =>
    cases h.shape_of hf with
    | exchange hplayer hhand =>
      refine hands_of_set hhands rfl ?_
      rw [List.length_append, List.length_singleton]
      omega
  | change hf hshown hp =>
    exact hands_of_set hhands rfl
      ((Player.length_redraw ..).trans (hhands _ (List.mem_of_getElem? hp)))
  | claim | askTarget | pass | finish | accept | ask | challenge | block | dropDead | keep
  | showCard | showOnly | allow | askSomebody => exact hhands

/-! ## All steps -/

/-- A step that leaves the turn where it is keeps a game sound. -/
theorem Sound.of_sameTurn (h : g.Sound) (hv : g.variant ≠ none) (hover : g.isOver = false)
    (hstep : Step g cause g') (hturn : g.SameTurn g') : g'.Sound where
  few := by
    rw [hturn.seats]
    exact h.few
  seats := by
    rw [hturn.seats]
    exact h.seats
  current := by
    rw [hturn.current, hturn.seats]
    exact h.current
  shape := hstep.shape h
  hands _ := hstep.hands h hv
  pool v hv' := by
    rw [hturn.variant] at hv'
    exact (hstep.pool_perm h hv).trans (h.pool v hv')
  undealt hnone := by
    rw [hturn.variant] at hnone
    exact absurd hnone hv
  ended h' := by
    rw [hturn.isOver, hover] at h'
    cases h'
  overAlarm h' := by
    rw [hturn.overAlarm] at h'
    rw [hturn.isOver]
    exact h.overAlarm h'

/-- The deal makes a sound game of one whose variant is open. -/
theorem Sound.dealt {v : Variant} {venue : Venue} {built : Deck × Pcg} (h : g.Sound)
    (hover : g.isOver = false) (hperm : built.1.cards.Perm (Deck.full v.cast)) :
    Sound { g.dealt v built with venue, stack := ⟨[.turn]⟩ } := by
  have hbuilt := hperm.length_eq.trans (Deck.length_full _)
  have hlen : (g.dealt v built).players.length = g.players.length := by simp [Game.dealt]
  have hchars := characters_dealt (v := v) hbuilt h.seats
  refine {
    few := hlen.symm ▸ h.few
    seats := hlen.symm ▸ h.seats
    current := hlen.symm ▸ h.current
    shape := .turn ⟨g.current, isAlive_dealt (v := v) hbuilt h.seats h.current⟩
    hands := ?_
    pool := ?_
    undealt := fun hv => absurd hv (Option.some_ne_none v)
    ended := fun h' => absurd (hover.symm.trans h') Bool.false_ne_true
    overAlarm := h.overAlarm }
  · intro _ p hp
    obtain ⟨a, b, hcards⟩ := cards_of_mem_dealt (v := v) hbuilt h.seats hp
    rw [hcards]
    rfl
  · intro v' hv
    cases Option.some.inj hv
    refine (List.Perm.of_eq (pool_of_none ?_)).trans (List.Perm.trans ?_ hperm)
    · rfl
    -- The hands are the first cards of the deck, and the others are the pile.
    · change (built.1.cards.drop _ ++ (g.dealt v built).players.flatMap (·.characters)).Perm _
      rw [hchars]
      refine List.perm_append_comm.trans ?_
      rw [List.take_append_drop]

/-- Every step but the deal and the end of a turn leaves the turn where it is. -/
theorem Step.sameTurn (hstep : Step g cause g') (hf : g.stack.frames = f :: below)
    (hvariant : f ≠ .variantChoice) (hturn : f ≠ .turn) : g.SameTurn g' := by
  have htop : ∀ {f' below'}, g.stack.frames = f' :: below' → f = f' :=
    fun hf' => (List.cons.inj (hf.symm.trans hf')).1
  cases hstep with
  | deal hf' => exact absurd (htop hf') hvariant
  | income hf' | coup hf' | convert hf' | claim hf' | askTarget hf' | pass hf' | finish hf' =>
    exact absurd (htop hf') hturn
  | acceptLast hf ha hgrant | unopposed hf ha hgrant =>
    obtain ⟨⟨hseats, hnow, hwait⟩, hcurrent, hvariant, hover, halarm⟩ := hgrant.sameTurn
    exact ⟨⟨hseats, hnow.trans (Venue.now_release _), hwait⟩, hcurrent, hvariant, hover, halarm⟩
  | timeOut hf hid hgrant =>
    obtain ⟨⟨hseats, hnow, hwait⟩, hcurrent, hvariant, hover, halarm⟩ := hgrant.sameTurn
    exact ⟨⟨hseats, hnow, hwait⟩, hcurrent, hvariant, hover, halarm⟩
  | answer hf hanswer | answerLast hf _ _ _ hanswer => exact hanswer.sameTurn
  | lose | loseAll | keepLast | change =>
    exact ⟨⟨List.length_set .., rfl, rfl⟩, rfl, rfl, rfl, rfl⟩
  | ask | challenge | block | dropDead =>
    exact ⟨⟨rfl, Venue.now_release _, rfl⟩, rfl, rfl, rfl, rfl⟩
  | accept | keep | showCard | showOnly | allow | askSomebody =>
    exact ⟨⟨rfl, rfl, rfl⟩, rfl, rfl, rfl, rfl⟩

/-- Every step from a sound game that is not over leads to a sound game. -/
theorem Step.sound (h : g.Sound) (hstill : g.stirred = false) (hover : g.isOver = false)
    (hstep : Step g cause g') : g'.Sound := by
  have hstep' := hstep
  cases hstep with
  | deal hf _ hdeal =>
    obtain ⟨built, ms', hperm, rfl⟩ := h.of_deal hf hdeal
    exact h.dealt hover hperm
  -- The current player's move leaves the turn, the variant and the number of seats as they are.
  | income hf | coup hf =>
    exact h.of_sameTurn (h.variant_ne_none hf nofun) hover hstep'
      ⟨⟨List.length_set .., rfl, rfl⟩, rfl, rfl, rfl, rfl⟩
  | convert hf =>
    exact h.of_sameTurn (h.variant_ne_none hf nofun) hover hstep'
      ⟨⟨by simp, rfl, rfl⟩, rfl, rfl, rfl, rfl⟩
  | claim hf | askTarget hf =>
    exact h.of_sameTurn (h.variant_ne_none hf nofun) hover hstep'
      ⟨⟨rfl, rfl, rfl⟩, rfl, rfl, rfl, rfl⟩
  -- At the end of a turn the next living player's begins, or the game is over.
  | pass hf =>
    exact { h with
      current := nextSeat_lt h.current
      shape := hstep'.shape h }
  | finish hf =>
    refine { h with
      current := nextSeat_lt h.current
      shape := hstep'.shape h
      ended := fun _ => ⟨?_, hstill⟩
      overAlarm := fun _ => rfl }
    cases h.shape_of hf with
    | turn => exact hf
  | askSomebody => exact { h with shape := hstep'.shape h }
  -- So does whatever happens in the course of the turn.
  | acceptLast hf | unopposed hf | timeOut hf | answer hf | answerLast hf | lose hf | loseAll hf
  | keepLast hf | change hf | accept hf | ask hf | challenge hf | block hf | dropDead hf | keep hf
  | showCard hf | showOnly hf | allow hf =>
    exact h.of_sameTurn (h.variant_ne_none hf nofun) hover hstep' (hstep'.sameTurn hf nofun nofun)

end CoupTable.Game
