import CoupTable.Proofs.TurnPresses

/-!
# Claims that go through, and presses about them

A pending claim that nobody stops is carried out without a fault, whatever it is about. What is
pressed while it waits leads to a step or is ignored.
-/

namespace CoupTable.Game

variable {g g' : Game} {c : Claim} {below : List Frame}

/-! ## Carrying a claim out -/

/-- A target who has died already loses nothing more, and a living one has to lose a card. -/
theorem assassinate_grant {seat target : Nat} {p victim : Player}
    (hp : g.players[seat]? = some p) (hvictim : g.players[target]? = some victim)
    (hne : target ≠ seat) (hlen : g.stack.frames.length < Stack.maxDepth) :
    ∃ g', g.grant seat (.assassinate target) = .ok g' ∧ Grant g seat (.assassinate target) g' := by
  have hlife : ∀ {ms : List Message}, SameLife g { g with
      venue := g.venue.saying ms
      players := g.players.set seat { p with coins := p.coins - assassinationCost } } :=
    SameCards.sameLife (map_cards_set hp rfl)
  have hremarks : g.Remarks
      [⟨.everyone, Wording.assassinateGranted p.name victim.name, []⟩] :=
    remarks_named hne.symm hp hvictim (by decide) (by decide)
  unfold grant
  simp only [player_eq hp, player_eq hvictim, ok_bind, payAssassin, note_eq]
  rw [modifyPlayer_eq (g := g.said _) hp, ok_bind]
  split
  next halive =>
    have halive' := (hlife.isAlive_eq target).symm.trans halive
    rw [pushLoss, push_eq]
    · exact ⟨_, rfl, .assassinate hp halive' hremarks⟩
    · exact hlen
  next halive =>
    have halive' := (hlife.isAlive_eq target).symm.trans (Bool.not_eq_true _ ▸ halive)
    exact ⟨_, rfl, .assassinateDead hp halive' hremarks⟩

/-- The actor takes up to two coins from the target. -/
theorem steal_grant {seat target : Nat} {p victim : Player} (hp : g.players[seat]? = some p)
    (hvictim : g.players[target]? = some victim) (hne : target ≠ seat) :
    ∃ g', g.grant seat (.steal target) = .ok g' ∧ Grant g seat (.steal target) g' := by
  have hp' : (g.players.set target
      { victim with coins := victim.coins - min victim.coins 2 })[seat]? = some p := by
    rw [List.getElem?_set_ne hne, hp]
  unfold grant
  simp only [player_eq hp, player_eq hvictim, ok_bind, note_eq]
  unfold rob
  rw [player_eq (g := g.said _) hvictim, ok_bind]
  dsimp only
  rw [charge_eq (g := g.said _) hvictim (Nat.min_le_left ..), ok_bind, pay_eq hp']
  exact ⟨_, rfl, .steal hp hvictim hne (remarks_noted (Text.endsCalmly_append _ (by decide)))⟩

/-- An exchange is started from a deck with enough cards. -/
theorem exchange_grant {seat : Nat} {p : Player} (hp : g.players[seat]? = some p)
    (hdeck : g.exchangeDraw ≤ g.deck.size) (hlen : g.stack.frames.length < Stack.maxDepth) :
    ∃ g', g.grant seat .exchange = .ok g' ∧ Grant g seat .exchange g' := by
  have hdrawn : (g.deck.cards.take g.exchangeDraw).length = g.exchangeDraw := by
    rw [List.length_take]
    exact Nat.min_eq_left hdeck
  have hcards : g.deck.cards
      = g.deck.cards.take g.exchangeDraw ++ g.deck.cards.drop g.exchangeDraw :=
    (List.take_append_drop ..).symm
  have hdraw := fun ms => drawMany_eq (g := g.said ms) hcards
  rw [hdrawn] at hdraw
  unfold grant
  simp only [player_eq hp, ok_bind, note_eq]
  unfold startExchange
  rw [player_eq (g := g.said _) hp, ok_bind]
  change ∃ g', (drawMany g.exchangeDraw _ >>= _) = _ ∧ _
  rw [hdraw, ok_bind]
  simp only []
  rw [push_eq]
  · exact ⟨_, rfl, .exchange hp hcards hdrawn
      (remarks_noted (Text.endsCalmly_append _ (by decide)))⟩
  · exact hlen

/-- A block drops the claim below, and an assassination is paid for all the same. -/
theorem block_grant {seat : Nat} {p q : Player} (hp : g.players[seat]? = some p)
    (hf : g.stack.frames = .claim c :: below) (hq : g.players[c.actor]? = some q) :
    ∃ g', g.grant seat .block = .ok g' ∧ Grant g seat .block g' := by
  have htop : g.stack.top? = some (.claim c) := by rw [Stack.top?, hf]; rfl
  unfold grant
  simp only [player_eq hp, ok_bind]
  unfold dropBlocked
  rw [htop]
  dsimp only
  split
  next target heffect =>
    rw [payAssassin, modifyPlayer_eq hq, ok_bind, note_eq, @pop_eq _ (.claim c) below, ok_bind]
    · exact ⟨_, rfl, .blockKill hf heffect hq (remarks_noted (by decide))⟩
    · exact hf
  next heffect =>
    rw [pure_eq_ok, ok_bind, note_eq, pop_eq (g := g.said _) hf, ok_bind]
    exact ⟨_, rfl, .block hf heffect (remarks_noted (by decide))⟩

/-- A pending claim whose frame is off the stack is carried out. -/
theorem Pending.grant_eq (h : g.Pending c g.stack.frames) (hdeck : g.exchangeDraw ≤ g.deck.size)
    (hcurrent : g.current < g.players.length) :
    ∃ g', g.grant c.actor c.effect = .ok g' ∧ Grant g c.actor c.effect g' := by
  have hlen : g.stack.frames.length < Stack.maxDepth := by
    have := h.length_le
    unfold Stack.maxDepth
    omega
  obtain ⟨p, hp⟩ := exists_player h.actor_lt
  generalize hf : g.stack.frames = below at h
  cases h with
  | own hc hlives =>
    -- The claim is the current player's, and whoever it is aimed at sits at the table.
    have hvictim := hc.victim
    have hblock := hc.ne_block
    generalize c.effect = effect at hvictim hblock ⊢
    have hplayer : ∀ target, effect.victim? = some target →
        ∃ victim, g.players[target]? = some victim :=
      fun target htarget => exists_player (hvictim target htarget).1
    cases effect with
    | foreignAid | tax =>
      unfold grant
      simp only [player_eq hp, ok_bind, note_eq]
      rw [pay_eq (g := g.said _) hp]
      refine ⟨_, rfl, ?_⟩
      constructor
      · exact hp
      · exact remarks_noted (Text.endsCalmly_append _ (by decide))
    | embezzle =>
      unfold grant
      simp only [player_eq hp, ok_bind, note_eq]
      rw [pay_eq (p := p) (by exact hp)]
      exact ⟨_, rfl, .embezzle hp (remarks_noted (Text.endsCalmly_append _ (by decide)))⟩
    | assassinate target =>
      obtain ⟨victim, hvictim'⟩ := hplayer target rfl
      exact assassinate_grant hp hvictim' (hvictim target rfl).2 hlen
    | steal target =>
      obtain ⟨victim, hvictim'⟩ := hplayer target rfl
      exact steal_grant hp hvictim' (hvictim target rfl).2
    | exchange => exact exchange_grant hp hdeck hlen
    | inspect target =>
      obtain ⟨victim, hvictim'⟩ := hplayer target rfl
      have halive := isAlive_eq hvictim'
      unfold grant
      simp only [player_eq hp, player_eq hvictim', ok_bind, note_eq]
      split
      next ht =>
        rw [push_eq]
        · exact ⟨_, rfl, .inspect (halive.trans ht)
            (remarks_named (hvictim target rfl).2 hvictim' hp (by decide) (by decide))⟩
        · exact hlen
      next ht => exact ⟨_, rfl, .inspectDead (halive.trans (Bool.not_eq_true _ ▸ ht))⟩
    | block => exact absurd rfl hblock
  | block hc halarm hb hlives hactor =>
    -- The claim is a block, and the one below it belongs to the current player.
    rw [hb.effect]
    obtain ⟨q, hq⟩ := exists_player hcurrent
    rw [← hc.actor] at hq
    exact block_grant hp hf hq

/-- The claim on top is carried out, with its frame taken off. -/
theorem Sound.resolve_eq (h : g.Sound) (hf : g.stack.frames = .claim c :: below) (c' : Claim)
    (hactor : c'.actor = c.actor) (heffect : c'.effect = c.effect) :
    ∃ g', (g.setTop (.claim c')).resolve c' = .ok g'
      ∧ Grant (g.lifted c' below) c.actor c.effect g' := by
  have hshape := h.shape_of hf
  have hdeck := h.size_deck (h.variant_ne_none hf nofun)
  have hseats := h.seats
  -- Nobody exchanges cards while a claim waits, so that there are enough to draw.
  have hdraw : g.exchangeDraw ≤ g.deck.size := by
    have hnone : g.drawnOut = 0 := by rw [drawnOut, h.exchange?_eq_none hf nofun]; rfl
    have hle : g.exchangeDraw ≤ 2 := by unfold exchangeDraw; split <;> omega
    unfold handSize at hdeck
    unfold maxPlayers at hseats
    omega
  cases hshape with
  | asked hpending =>
    have hpending' : (g.lifted c' below).Pending c (g.lifted c' below).stack.frames :=
      hpending.congr rfl rfl fun _ => id
    obtain ⟨g', hgrant, hsteps⟩ := hpending'.grant_eq hdraw h.current
    refine ⟨g', ?_, hsteps⟩
    have htail : (g.setTop (.claim c')).stack.frames = .claim c' :: below := by
      rw [setTop_eq hf]
    unfold resolve
    rw [pop_eq htail, ok_bind, hactor, heffect]
    exact hgrant

/-! ## Presses while a claim waits -/

/-- A suspended claim waits without its alarm. -/
theorem suspend_eq (hf : g.stack.frames = .claim c :: below) :
    g.suspend c = { g with
      venue := g.venue.release c.alarm
      stack := ⟨.claim { c with alarm := none } :: below⟩ } := by
  rw [suspend, cancelAlarm_eq, @setTop_eq _ (.claim c) below]
  exact hf

/-- What is pressed while a claim waits leads to a step or is ignored. -/
theorem claimInput_yields (h : g.Sound) (hf : g.stack.frames = .claim c :: below) (seat : Nat)
    (m : Move) : g.Yields seat m (g.claimInput c seat m) := by
  have hlen := h.shape.length_le
  rw [hf, List.length_cons] at hlen
  unfold claimInput
  split
  next =>
    unfold acceptInput
    dsimp only
    split
    next ha =>
      obtain ⟨g', hresolve, hgrant⟩ := h.resolve_eq hf
        { c with accepted := c.accepted.insert seat } rfl rfl
      exact ⟨g', hresolve, .inr (.acceptLast hf ha hgrant)⟩
    next ha =>
      rw [setTop_eq hf]
      exact .step (.accept hf (Bool.not_eq_true _ ▸ ha))
  next =>
    unfold challengeInput
    split
    next hopen =>
      simp only [Bool.and_eq_true, bne_iff_ne] at hopen
      obtain ⟨⟨hc, hne⟩, hlives⟩ := hopen
      -- The alarm of the claim is taken back, and the challenge goes on top of it.
      rw [suspend_eq hf, push_eq]
      · exact .step (.challenge hf hc hne hlives)
      · change below.length + 1 < Stack.maxDepth
        unfold Stack.maxDepth
        omega
    next hclosed =>
      refine .stay fun hmem => hclosed ?_
      obtain ⟨hne, hlives, hmove⟩ := mem_movesFor_claim.1 (mem_movesFor hmem hf)
      have hc : c.challengeable = true := by simpa using hmove
      rw [hc, hlives, bne_iff_ne.2 hne]
      rfl
  next =>
    unfold blockInput
    split
    next hopen =>
      simp only [Bool.and_eq_true, bne_iff_ne] at hopen
      obtain ⟨⟨⟨hc, hne⟩, hlives⟩, hblock⟩ := hopen
      obtain ⟨p, hp⟩ := exists_player (lt_of_isAlive hlives)
      rw [player_eq hp, ok_bind, suspend_eq hf]
      dsimp only
      rw [declare_eq rfl]
      · exact .step (.block hf hc hne hlives hblock)
      · change below.length + 1 < Stack.maxDepth
        unfold Stack.maxDepth
        omega
    next hclosed =>
      refine .stay fun hmem => hclosed ?_
      obtain ⟨hne, hlives, hmove⟩ := mem_movesFor_claim.1 (mem_movesFor hmem hf)
      obtain ⟨hc, hblock⟩ : c.blockable = true ∧ g.canBlock c seat = true := by simpa using hmove
      rw [hc, hlives, hblock, bne_iff_ne.2 hne]
      rfl
  next haccept hchallenge hblock =>
    refine .stay fun hmem => ?_
    obtain ⟨-, -, rfl | ⟨rfl, -⟩ | ⟨rfl, -⟩⟩ := mem_movesFor_claim.1 (mem_movesFor hmem hf)
    · exact haccept rfl
    · exact hchallenge rfl
    · exact hblock rfl

end CoupTable.Game
