import CoupTable.Proofs.ClaimPresses

/-!
# Presses about cards

Revealing a card, losing one, exchanging cards and showing one to the inquisitor: what is pressed
while a player has to choose a card leads to a step or is ignored, and the deck never runs out on
the way.
-/

namespace CoupTable.Game

variable {g g' : Game} {c : Claim} {r : Reveal} {below : List Frame} {seat slot : Nat} {p : Player}

/-! ## Hands -/

/-- A card in a hand is turned face up. -/
theorem killCard_eq (hp : g.players[seat]? = some p) (hslot : slot < p.cards.length) :
    g.killCard seat slot = .ok { g with players := g.players.set seat (p.killSlot slot) } := by
  unfold killCard
  rw [player_eq hp, ok_bind, if_pos hslot, modifyPlayer_eq hp]

/-- The character of a card in a hand is read. -/
theorem characterAt_eq {card : Card} (hp : g.players[seat]? = some p)
    (hcard : p.cards[slot]? = some card) : g.characterAt seat slot = .ok card.character := by
  unfold characterAt
  rw [player_eq hp, ok_bind, hcard]
  rfl

/-- Cards are put back and the draw pile is shuffled. -/
theorem returnCards_eq (g : Game) (cards : List Character) :
    g.returnCards cards = { g with
      deck := (g.reshuffled cards).1, rng := (g.reshuffled cards).2 } := rfl

/-- Slots are filled with what is drawn from the top. -/
theorem drawInto_all {cards : List (Nat × Character)} {drawn rest : List Character}
    (hp : g.players[seat]? = some p) (hdeck : g.deck.cards = drawn ++ rest)
    (hlen : drawn.length = cards.length) :
    cards.foldlM (fun g card => g.drawInto seat card.1) g = .ok { g with
      players := g.players.set seat (p.redraw (cards.map (·.1)) drawn)
      deck := ⟨rest⟩ } := by
  induction cards generalizing g p drawn with
  | nil =>
    rw [List.length_nil, List.length_eq_zero_iff] at hlen
    subst hlen
    obtain ⟨hlt, hget⟩ := List.getElem?_eq_some_iff.1 hp
    have hself : g.players.set seat p = g.players := by rw [← hget, List.set_getElem_self]
    rw [List.nil_append] at hdeck
    simp [hself, ← hdeck]
  | cons card cards ih =>
    match drawn, hlen with
    | c :: drawn, hlen =>
      obtain ⟨hlt, -⟩ := List.getElem?_eq_some_iff.1 hp
      -- The card on top of the pile goes into the first slot, and the others follow from there.
      have hdraw : g.draw = .ok (c, { g with deck := ⟨drawn ++ rest⟩ }) := by
        simp [draw, Deck.draw?, hdeck]
      have hinto : g.drawInto seat card.1 = .ok { g with
          players := g.players.set seat (p.setCharacter card.1 c)
          deck := ⟨drawn ++ rest⟩ } := by
        unfold drawInto
        rw [hdraw, ok_bind]
        exact modifyPlayer_eq (g := { g with deck := ⟨drawn ++ rest⟩ }) hp _
      have hnext := @ih { g with
          players := g.players.set seat (p.setCharacter card.1 c)
          deck := ⟨drawn ++ rest⟩ } _ drawn (List.getElem?_set_self hlt) rfl (Nat.succ.inj hlen)
      rw [List.foldlM_cons, hinto, ok_bind, hnext]
      simp only [List.set_set, List.map_cons, Player.redraw_cons]

/-- Some cards are changed for others from the reshuffled draw pile, which has enough of them. -/
theorem changeCards_eq (hp : g.players[seat]? = some p) (cards : List (Nat × Character)) :
    ∃ drawn rest ms, (∀ m ∈ ms, m.recipient = .player seat)
      ∧ (g.reshuffled (cards.map (·.2))).1.cards = drawn ++ rest
      ∧ drawn.length = cards.length
      ∧ g.changeCards seat cards = .ok { g with
          venue := g.venue.saying ms
          rng := (g.reshuffled (cards.map (·.2))).2
          players := g.players.set seat (p.redraw (cards.map (·.1)) drawn)
          deck := ⟨rest⟩ } := by
  have hlen := (g.reshuffled_perm (cards.map (·.2))).length_eq
  rw [List.length_append, List.length_map] at hlen
  unfold changeCards
  rw [returnCards_eq]
  generalize g.reshuffled (cards.map (·.2)) = shuffled at hlen ⊢
  -- The pile has at least the cards that were put back, so that as many can be drawn.
  have hsplit := (List.take_append_drop cards.length shuffled.1.cards).symm
  have hdrawn : (shuffled.1.cards.take cards.length).length = cards.length := by
    rw [List.length_take]
    omega
  obtain ⟨hlt, -⟩ := List.getElem?_eq_some_iff.1 hp
  have hall := drawInto_all (g := { g with deck := shuffled.1, rng := shuffled.2 }) hp hsplit hdrawn
  obtain ⟨ms, htold, hms⟩ := showCards_eq (g := { g with
      rng := shuffled.2
      players := g.players.set seat
        (p.redraw (cards.map (·.1)) (shuffled.1.cards.take cards.length))
      deck := ⟨shuffled.1.cards.drop cards.length⟩ }) (List.getElem?_set_self hlt)
  refine ⟨_, _, ms, htold, hsplit, hdrawn, ?_⟩
  dsimp only
  rw [hall, ok_bind, hms]

/-- A living card is changed for another. -/
theorem changeCard_eq {card : Card} (hp : g.players[seat]? = some p)
    (hcard : p.cards[slot]? = some card) (hlives : card.dead = false) :
    ∃ drawn rest ms, (∀ m ∈ ms, m.recipient = .player seat)
      ∧ (g.reshuffled [card.character]).1.cards = drawn :: rest
      ∧ g.changeCard seat slot = .ok { g with
          venue := g.venue.saying ms
          rng := (g.reshuffled [card.character]).2
          players := g.players.set seat (p.redraw [slot] [drawn])
          deck := ⟨rest⟩ } := by
  obtain ⟨drawn, rest, ms, htold, hdeck, hlen, hchange⟩ :=
    changeCards_eq (g := g) hp [(slot, card.character)]
  obtain ⟨a, rfl⟩ := List.length_eq_one_iff.1 hlen
  refine ⟨a, rest, ms, htold, hdeck, ?_⟩
  unfold changeCard
  rw [player_eq hp, ok_bind, Player.find?_living hcard hlives]
  exact hchange

/-! ## Answers to a challenge -/

/-- The claim below a challenge stands, and the challenger has to lose a card. -/
theorem uphold_eq (hf : g.stack.frames = .reveal r :: .claim c :: below)
    (hlen : below.length + 1 < Stack.maxDepth) :
    g.uphold r = .ok { g with
      stack := ⟨.loss r.challenger :: .claim { c with challengeable := false } :: below⟩
      stirred := true } := by
  unfold uphold
  rw [pop_eq hf, ok_bind]
  dsimp only [Stack.top?, List.head?_cons]
  rw [@setTop_eq _ (.claim c) below, pushLoss, push_eq]
  · rfl
  · exact hlen
  · rfl

/-- A challenge and the claim below it are dropped. -/
theorem dropClaim_eq (hf : g.stack.frames = .reveal r :: .claim c :: below) :
    g.dropClaim = .ok { g with
      venue := g.venue.release c.alarm, stack := ⟨below⟩, stirred := true } := by
  unfold dropClaim
  rw [@pop_eq g.stir (.reveal r) (.claim c :: below) hf, ok_bind, @pop_eq _ (.claim c) below]
  · rfl
  · rfl

section Answers

variable (h : g.Sound) (hf : g.stack.frames = .reveal r :: .claim c :: below)
include h hf

/-- The two players of a challenge sit at the table, and the stack is not full. -/
theorem Sound.of_challenge : ∃ challenger challenged,
    g.players[r.challenger]? = some challenger ∧ g.players[r.challenged]? = some challenged
      ∧ below.length + 1 < Stack.maxDepth := by
  obtain ⟨hpending, -, -, -, hlives, hactor, -⟩ := (h.shape_of hf).of_reveal
  obtain ⟨challenger, hchallenger⟩ := exists_player (lt_of_isAlive hlives)
  obtain ⟨challenged, hchallenged⟩ := exists_player hpending.actor_lt
  rw [← hactor] at hchallenged
  refine ⟨challenger, challenged, hchallenger, hchallenged, ?_⟩
  have := hpending.length_le
  unfold Stack.maxDepth
  omega

/-- A living card that is revealed settles a challenge. -/
theorem revealCard_eq (hp : g.players[r.challenged]? = some p) (hplain : r.inverted = false)
    (hlives : p.hasLiving slot = true) :
    ∃ g', g.revealCard r slot = .ok g' ∧ Answer g r c below slot g' := by
  obtain ⟨challenger, challenged, hchallenger, hchallenged, hlen⟩ := h.of_challenge hf
  obtain ⟨card, hcard, hdead⟩ := Player.hasLiving_iff.1 hlives
  unfold revealCard
  rw [player_eq hchallenger, ok_bind, player_eq hchallenged, ok_bind, characterAt_eq hp hcard,
    ok_bind]
  split
  next hclan =>
    -- The card is of the clans in question: it is changed, and the claim stands.
    obtain ⟨drawn, rest, ms, htold, hdeck, hchange⟩ :=
      changeCard_eq (g := g.said _) hp hcard hdead
    rw [note_eq]
    dsimp only
    rw [hchange, ok_bind, @uphold_eq _ c r below]
    · refine ⟨_, rfl, ?_⟩
      simp only [said, Venue.saying_saying]
      exact .proven hp hplain hcard hdead hclan hdeck ((remarks_of_told g htold).append
        (remarks_noted (Text.endsCalmly_append _ (Text.endsCalmly_append _ (by decide)))))
    · exact hf
    · exact hlen
  next hclan =>
    -- The card is of another clan: it is lost, and the claim is dropped.
    obtain ⟨hlt, -⟩ := List.getElem?_eq_some_iff.1 hcard
    obtain ⟨hseat, -⟩ := List.getElem?_eq_some_iff.1 hp
    dsimp only
    have hnote : g.Remarks [⟨.everyone,
        Wording.caught challenger.name challenged.name (g.cast.describe r.clans), []⟩] :=
      remarks_noted (Text.endsCalmly_append _ (by decide))
    generalize Wording.caught challenger.name challenged.name (g.cast.describe r.clans) = text
      at hnote ⊢
    obtain ⟨ms, htold, hshow⟩ := showCards_eq (g := { g with
      venue := g.venue.saying [⟨.everyone, text, []⟩]
      players := g.players.set r.challenged (p.killSlot slot) }) (List.getElem?_set_self hseat)
    rw [note_eq, killCard_eq (g := g.said _) hp hlt, ok_bind]
    simp only [said]
    rw [hshow, ok_bind, @dropClaim_eq _ c r below]
    · refine ⟨_, rfl, ?_⟩
      simp only [Venue.saying_saying]
      exact .caught hp hplain hcard hdead (Bool.not_eq_true _ ▸ hclan)
        ((remarks_of_told g htold).append hnote)
    · exact hf

/-- A challenge that is conceded is settled. -/
theorem concede_eq (hinverted : r.inverted = true) :
    ∃ g', g.concede r = .ok g' ∧ Answer g r c below 0 g' := by
  obtain ⟨challenger, challenged, hchallenger, hchallenged, hlen⟩ := h.of_challenge hf
  unfold concede
  rw [player_eq hchallenger, ok_bind, player_eq hchallenged, ok_bind, note_eq,
    dropClaim_eq (g := g.said _) hf, ok_bind, pushLoss, push_eq]
  · exact ⟨_, rfl, .conceded hinverted (remarks_noted (Text.endsCalmly_append _ (by decide)))⟩
  · exact Nat.lt_of_succ_lt hlen

end Answers

/-- A hand that is shown settles a challenge. -/
theorem showHand_eq {challenger : Player} (hf : g.stack.frames = .reveal r :: .claim c :: below)
    (hlen : below.length + 1 < Stack.maxDepth)
    (hchallenger : g.players[r.challenger]? = some challenger)
    (hp : g.players[r.challenged]? = some p) (hinverted : r.inverted = true)
    (hclan : p.holds r.clans = false) :
    ∃ g', g.showHand r = .ok g' ∧ Answer g r c below 1 g' := by
  unfold showHand
  rw [player_eq hchallenger, ok_bind, player_eq hp, ok_bind]
  dsimp only
  unfold changeHand
  rw [note_eq, player_eq (g := g.said _) hp, ok_bind]
  obtain ⟨drawn, rest, ms, htold, hdeck, hdrawn, hchange⟩ :=
    changeCards_eq (g := g.said _) hp p.living
  rw [hchange, ok_bind, @uphold_eq _ c r below]
  · refine ⟨_, rfl, ?_⟩
    simp only [said, Venue.saying_saying]
    exact .shown hp hinverted hclan hdeck hdrawn ((remarks_of_told g htold).append
      (remarks_noted (Text.endsCalmly_append _ (Text.endsCalmly_append _ (by decide)))))
  · exact hf
  · exact hlen

/-- What a challenged player presses settles the challenge or is ignored. -/
theorem revealInput_yields (h : g.Sound) (hf : g.stack.frames = .reveal r :: .claim c :: below)
    (seat : Nat) (m : Move) : g.Yields seat m (g.revealInput r seat m) := by
  obtain ⟨challenger, p, hchallenger, hp, hlen⟩ := h.of_challenge hf
  have hanswered : ∀ {choice : Nat} {x : Except Fault Game},
      (∃ g', x = .ok g' ∧ Answer g r c below choice g') →
        g.Yields r.challenged (.reveal choice) x := by
    rintro choice x ⟨g', rfl, hanswer⟩
    exact .step (.answer hf hanswer)
  -- What is waited for is an answer by the challenged player.
  have hlisted := fun hmem : (seat, m) ∈ g.moves =>
    (mem_revealMoves hp).1 (mem_movesFor hmem hf)
  unfold revealInput
  split
  next choice =>
    rw [player_eq hp, ok_bind]
    split
    next hseat => exact .stay fun hmem => hseat (hlisted hmem).1
    next hseat =>
      rw [ne_eq, not_not] at hseat
      subst hseat
      split
      next hinverted =>
        -- A claim *not* to have a card is conceded with `0`, and a hand is shown with `1`.
        split
        next hchoice =>
          subst hchoice
          exact hanswered (concede_eq h hf hinverted)
        next hchoice =>
          split
          next hclan =>
            simp only [Bool.and_eq_true, decide_eq_true_eq, Bool.not_eq_true'] at hclan
            obtain ⟨rfl, hclan⟩ := hclan
            exact hanswered (showHand_eq hf hlen hchallenger hp hinverted hclan)
          next hclan =>
            refine .stay fun hmem => ?_
            have hanswer := (hlisted hmem).2
            rw [if_pos hinverted] at hanswer
            rcases hanswer with hzero | ⟨hone, hnone⟩
            · exact hchoice (Move.reveal.inj hzero)
            · exact hclan (by rw [hnone, Move.reveal.inj hone]; rfl)
      next hplain =>
        -- A claim to have a card is answered by revealing one that is alive.
        split
        next hlives => exact hanswered (revealCard_eq h hf hp (Bool.not_eq_true _ ▸ hplain) hlives)
        next hdead =>
          refine .stay fun hmem => hdead ?_
          have hanswer := (hlisted hmem).2
          rw [if_neg hplain] at hanswer
          obtain ⟨slot, hlives, hslot⟩ := hanswer
          rwa [Move.reveal.inj hslot]
  next hne =>
    refine .stay fun hmem => ?_
    have hanswer := (hlisted hmem).2
    split at hanswer
    next => exact hanswer.elim (hne _) fun h => hne _ h.1
    next =>
      obtain ⟨slot, -, hslot⟩ := hanswer
      exact hne slot hslot

/-! ## Losses, exchanges and interrogations -/

/-- The loser of a card sits at the table. -/
theorem Sound.of_loss (h : g.Sound) (hf : g.stack.frames = .loss seat :: below) :
    ∃ p, g.players[seat]? = some p ∧ p.isAlive = true := by
  have hlives : g.isAlive seat = true := by
    cases h.shape_of hf with
    | loss hlives => exact hlives
    | upheld _ _ _ _ hlives => exact hlives
  obtain ⟨p, hp⟩ := exists_player (lt_of_isAlive hlives)
  exact ⟨p, hp, (isAlive_eq hp).symm.trans hlives⟩

/-- A player who has to lose a card gives up a living one. -/
theorem lossInput_eq (hf : g.stack.frames = .loss seat :: below) (hp : g.players[seat]? = some p)
    (hlose : p.hasLiving slot = true) :
    ∃ ms, g.Remarks ms ∧ g.lossInput seat seat (.lose slot) = .ok { g with
      venue := g.venue.saying ms
      players := g.players.set seat (p.killSlot slot)
      stack := ⟨below⟩
      stirred := true } := by
  obtain ⟨card, hcard, -⟩ := Player.hasLiving_iff.1 hlose
  obtain ⟨hslot, -⟩ := List.getElem?_eq_some_iff.1 hcard
  obtain ⟨hlt, -⟩ := List.getElem?_eq_some_iff.1 hp
  obtain ⟨ms, htold, hshow⟩ := showCards_eq (g := { g with
    players := g.players.set seat (p.killSlot slot), stirred := true })
    (List.getElem?_set_self hlt)
  refine ⟨ms, remarks_of_told g htold, ?_⟩
  unfold lossInput
  dsimp only
  rw [player_eq hp, ok_bind, hlose, decide_eq_true rfl, Bool.true_and, if_pos rfl,
    killCard_eq (g := g.stir) hp hslot, ok_bind]
  simp only [stir]
  rw [hshow, ok_bind, @pop_eq _ (.loss seat) below]
  · rfl
  · exact hf

/-- Other presses are ignored meanwhile. -/
theorem lossInput_of_not {loser : Nat} {m : Move} (hp : g.players[loser]? = some p)
    (hnot : ¬ ∃ slot, m = .lose slot ∧ seat = loser ∧ p.hasLiving slot = true) :
    g.lossInput loser seat m = .ok g := by
  unfold lossInput
  split
  next slot =>
    rw [player_eq hp, ok_bind]
    split
    next hlose =>
      simp only [Bool.and_eq_true, decide_eq_true_eq] at hlose
      exact absurd ⟨slot, rfl, hlose⟩ hnot
    next => rfl
  next => rfl

/-- What is pressed while a player has to lose a card leads to a step or is ignored. -/
theorem lossInput_yields {loser : Nat} (h : g.Sound) (hf : g.stack.frames = .loss loser :: below)
    (seat : Nat) (m : Move) : g.Yields seat m (g.lossInput loser seat m) := by
  obtain ⟨p, hp, -⟩ := h.of_loss hf
  by_cases hlose : ∃ slot, m = .lose slot ∧ seat = loser ∧ p.hasLiving slot = true
  · obtain ⟨slot, rfl, rfl, hlives⟩ := hlose
    obtain ⟨ms, hms, hlost⟩ := lossInput_eq hf hp hlives
    rw [hlost]
    exact .step (.lose hf hp hlives hms)
  · rw [lossInput_of_not hp hlose]
    refine .stay fun hmem => hlose ?_
    obtain ⟨rfl, slot, hlives, hslot⟩ := mem_slotMoves.1 (mem_movesFor hmem hf)
    rw [livesAt_eq hp] at hlives
    exact ⟨slot, hslot, rfl, hlives⟩

/-- An exchange ends with the cards that were not kept put back. -/
theorem endExchange_eq {e : Exchange} (e' : Exchange) {p : Player}
    (hf : g.stack.frames = .exchange e :: below)
    (hplayer : e'.player = e.player) (hp : g.players[e.player]? = some p) :
    ∃ ms, (∀ m ∈ ms, m.recipient = .player e.player) ∧ g.endExchange e' = .ok { g with
      venue := g.venue.saying ms
      rng := (g.reshuffled e'.offered).2
      players := g.players.set e.player { p with cards := e'.hand }
      deck := (g.reshuffled e'.offered).1
      stack := ⟨below⟩
      stirred := true } := by
  obtain ⟨hlt, -⟩ := List.getElem?_eq_some_iff.1 hp
  obtain ⟨ms, htold, hshow⟩ := showCards_eq (g := { g with
      rng := (g.reshuffled e'.offered).2
      players := g.players.set e.player { p with cards := e'.hand }
      deck := (g.reshuffled e'.offered).1
      stack := ⟨below⟩ }) (List.getElem?_set_self hlt)
  refine ⟨ms, htold, ?_⟩
  unfold endExchange
  rw [pop_eq hf, ok_bind, returnCards_eq, hplayer, @modifyPlayer_eq _ e.player p, ok_bind]
  · exact congrArg (fun x => x >>= fun g : Game => Except.ok g.stir) hshow
  · exact hp

/-- What is pressed during an exchange leads to a step or is ignored. -/
theorem exchangeInput_yields {e : Exchange} (h : g.Sound)
    (hf : g.stack.frames = .exchange e :: below) (seat : Nat) (m : Move) :
    g.Yields seat m (g.exchangeInput e seat m) := by
  have hplayer : e.player = g.current := by
    cases h.shape_of hf with
    | exchange hplayer => exact hplayer
  obtain ⟨p, hp⟩ := h.exists_current
  rw [← hplayer] at hp
  obtain ⟨hlt, -⟩ := List.getElem?_eq_some_iff.1 hp
  have hlisted := fun hmem : (seat, m) ∈ g.moves => mem_movesFor_exchange.1 (mem_movesFor hmem hf)
  unfold exchangeInput
  split
  next index =>
    split
    next c hc =>
      split
      next hseat =>
        subst hseat
        dsimp only
        split
        next hmore =>
          rw [setTop_eq hf]
          exact .step (.keep hf hc (by simpa using hmore))
        next hlast =>
          -- With the last card kept the others go back.
          obtain ⟨ms, htold, hend⟩ := endExchange_eq { e with
            hand := e.hand ++ [⟨c, false⟩], offered := e.offered.eraseIdx index } hf rfl hp
          rw [hend]
          exact .step (.keepLast hf hc (by simpa using hlast) hp (remarks_of_told g htold))
      next hseat => exact .stay fun hmem => hseat (hlisted hmem).1
    next hnone =>
      refine .stay fun hmem => ?_
      obtain ⟨-, index, hlt, hindex⟩ := hlisted hmem
      rw [Move.keep.inj hindex, List.getElem?_eq_getElem hlt] at hnone
      cases hnone
  next hne =>
    refine .stay fun hmem => ?_
    obtain ⟨-, index, -, hindex⟩ := hlisted hmem
    exact hne index hindex

/-- The two players of an interrogation sit at the table, and the card that is shown is alive. -/
theorem Sound.of_interrogation {i : Interrogation} (h : g.Sound)
    (hf : g.stack.frames = .interrogation i :: below) : ∃ inquisitor target,
      g.players[i.inquisitor]? = some inquisitor ∧ g.players[i.target]? = some target
        ∧ ∀ slot, i.shown = some slot → target.hasLiving slot = true := by
  obtain ⟨inquisitor, hinquisitor⟩ := h.exists_current
  cases h.shape_of hf with
  | interrogation hwho hne hlives hshown =>
    obtain ⟨target, htarget⟩ := exists_player (lt_of_isAlive hlives)
    rw [← hwho] at hinquisitor
    refine ⟨inquisitor, target, hinquisitor, htarget, fun slot hslot => ?_⟩
    rw [← livesAt_eq htarget, hshown slot hslot]

/-- The decision about a card that was shown ends an interrogation. -/
theorem keepInput_yields {i : Interrogation} (h : g.Sound)
    (hf : g.stack.frames = .interrogation i :: below) (hshown : i.shown = some slot)
    (allowed : Bool) :
    g.Yields i.inquisitor (.canKeep allowed) (g.keepInput i slot allowed) := by
  obtain ⟨inquisitor, target, hinquisitor, htarget, hlives⟩ := h.of_interrogation hf
  obtain ⟨card, hcard, hdead⟩ := Player.hasLiving_iff.1 (hlives slot hshown)
  unfold keepInput
  rw [player_eq hinquisitor, ok_bind, player_eq htarget, ok_bind]
  cases allowed with
  | true =>
    simp only [if_true, pure_eq_ok, ok_bind, note_eq]
    rw [pop_eq (g := g.said _) hf, ok_bind]
    exact .step (.allow hf hshown (remarks_noted (Text.endsCalmly_append _ (by decide))))
  | false =>
    obtain ⟨drawn, rest, ms, htold, hdeck, hchange⟩ := changeCard_eq htarget hcard hdead
    simp only [Bool.false_eq_true, if_false, hchange, pure_eq_ok, ok_bind, note_eq]
    rw [@pop_eq _ (.interrogation i) below, ok_bind]
    · simp only [said, Venue.saying_saying]
      exact .step (.change hf hshown htarget hcard hdead hdeck
        ((remarks_noted (Text.endsCalmly_append _ (by decide))).append (remarks_of_told g htold)))
    · exact hf

/-- What is pressed during an interrogation leads to a step or is ignored. -/
theorem interrogationInput_yields {i : Interrogation} (h : g.Sound)
    (hf : g.stack.frames = .interrogation i :: below) (seat : Nat) (m : Move) :
    g.Yields seat m (g.interrogationInput i seat m) := by
  obtain ⟨inquisitor, target, hinquisitor, htarget, -⟩ := h.of_interrogation hf
  have hlisted := fun hmem : (seat, m) ∈ g.moves => mem_interrogationMoves.1 (mem_movesFor hmem hf)
  unfold interrogationInput
  split
  next slot hshown =>
    -- The target shows a card, if it has that one.
    split
    next hseat =>
      subst hseat
      unfold showInput
      rw [player_eq hinquisitor, ok_bind, player_eq htarget, ok_bind]
      split
      next hlives =>
        obtain ⟨card, hcard, -⟩ := Player.hasLiving_iff.1 hlives
        rw [characterAt_eq htarget hcard, ok_bind, setTop_eq hf]
        simp only [tell_eq]
        exact .step (.showCard hf hshown ((livesAt_eq htarget).trans hlives)
          (g.remarks_told _ _ _))
      next hdead =>
        refine .stay fun hmem => hdead ?_
        rcases hlisted hmem with ⟨-, -, slot, hlives, hslot⟩ | ⟨hsome, -⟩
        · rw [livesAt_eq htarget] at hlives
          rwa [Move.showCard.inj hslot]
        · exact absurd hshown hsome
    next hseat =>
      refine .stay fun hmem => hseat ?_
      rcases hlisted hmem with ⟨-, hseat, -⟩ | ⟨hsome, -⟩
      · exact hseat
      · exact absurd hshown hsome
  next allowed slot hshown =>
    -- The inquisitor decides on the card that was shown.
    split
    next hseat =>
      subst hseat
      exact keepInput_yields h hf hshown allowed
    next hseat =>
      refine .stay fun hmem => hseat ?_
      rcases hlisted hmem with ⟨hnone, -⟩ | ⟨-, hseat, -⟩
      · cases hshown.symm.trans hnone
      · exact hseat
  next hshow hdecide =>
    -- Any other press is ignored, and is not listed in either phase.
    refine .stay fun hmem => ?_
    rcases hlisted hmem with ⟨hnone, -, slot, -, hslot⟩ | ⟨hsome, -, allowed, hallowed⟩
    · exact hshow slot hslot hnone
    · obtain ⟨slot, hslot⟩ := Option.ne_none_iff_exists'.1 hsome
      exact hdecide allowed slot hallowed hslot

/-! ## All presses -/

/-- Every press between two inputs leads to a step or is ignored. -/
theorem dispatch_yields (h : g.AtRest) (seat : Nat) (m : Move) :
    g.Yields seat m (g.dispatch seat m) := by
  have hshape := h.shape
  unfold dispatch Stack.top?
  cases hf : g.stack.frames with
  | nil =>
    rw [hf] at hshape
    cases hshape
  | cons f below =>
    rw [hf] at hshape
    cases f with
    | turn =>
      cases hshape with
      | turn => exact turnInput_yields h hf seat m
    | variantChoice => exact variantInput_yields h.toSound hf seat m
    | loss loser => exact lossInput_yields h.toSound hf seat m
    | claim c => exact claimInput_yields h.toSound hf seat m
    | reveal r =>
      cases hshape with
      | challenged => exact revealInput_yields h.toSound hf seat m
    | exchange e => exact exchangeInput_yields h.toSound hf seat m
    | interrogation i => exact interrogationInput_yields h.toSound hf seat m

end CoupTable.Game
