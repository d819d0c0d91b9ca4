import CoupTable.Proofs.Aftermath

/-!
# How a game ends

Once at most one player is alive nothing on the stack can wait for anybody else, so that the frames
go on by themselves down to the turn, and the last status is sent: with it the game is over. There
is one exception. If the last opponent loses the last card by challenging an exchange in vain, the
exchange goes through, and the winner is asked which cards to keep before the game is over.
-/

namespace CoupTable.Game

variable {g g' g₁ : Game} {cause : Cause} {c : Claim} {below : List Frame} {i : Input}
  {seat other : Nat}

/-! ## Finished games -/

/-- A game is not finished as long as two players are alive. -/
theorem isFinished_of_two (hne : other ≠ seat) (hseat : g.isAlive seat = true)
    (hother : g.isAlive other = true) : g.isFinished = false := by
  have hliving : ∀ {seat}, g.isAlive seat = true → seat ∈ g.livingSeats := fun hlives =>
    List.mem_filter.2 ⟨List.mem_range.2 (lt_of_isAlive hlives), hlives⟩
  have htwo : 1 < g.livingSeats.length := by
    by_contra hfew
    obtain ⟨a, ha⟩ : ∃ a, g.livingSeats = [a] := by
      refine List.length_eq_one_iff.1 (Nat.le_antisymm (Nat.le_of_not_lt hfew) ?_)
      exact List.length_pos_of_mem (hliving hseat)
    have hseat' := hliving hseat
    have hother' := hliving hother
    rw [ha, List.mem_singleton] at hseat' hother'
    exact hne (hother'.trans hseat'.symm)
  rw [isFinished, decide_eq_false (Nat.not_le.2 htwo), Bool.and_false]

/-- A claim that waits has somebody alive besides its player. -/
theorem exists_of_not_accepted (h : g.isAccepted c = false) :
    ∃ seat, seat ≠ c.actor ∧ g.isAlive seat = true := by
  rw [isAccepted, List.all_eq_false] at h
  obtain ⟨seat, hmem, -⟩ := h
  have hoppose := (List.mem_filter.1 hmem).2
  simp only [canOppose, Bool.and_eq_true, bne_iff_ne] at hoppose
  exact ⟨seat, hoppose.1.1, hoppose.1.2⟩

/-- A finished game at rest is at the beginning of a turn, or the winner exchanges cards. -/
theorem AtRest.frames_of_isFinished (h : g.AtRest) (hfinished : g.isFinished = true) :
    g.stack.frames = [.turn] ∨
      ∃ e, g.stack.frames = [.exchange e, .turn] ∧ e.player = g.current ∧
        g.isAlive g.current = true := by
  have hgoes : ∀ {seat other : Nat}, other ≠ seat → g.isAlive seat = true →
      g.isAlive other = true → False := by
    intro seat other hne hseat hother
    cases (isFinished_of_two hne hseat hother).symm.trans hfinished
  obtain ⟨frames, hf⟩ : ∃ frames, g.stack.frames = frames := ⟨_, rfl⟩
  rw [hf]
  cases h.shape_of hf with
  | turn => exact .inl rfl
  | exchange hplayer _ _ hcurrent => exact .inr ⟨_, rfl, hplayer, hcurrent⟩
  | variantChoice hv =>
    rw [isFinished, hv] at hfinished
    cases hfinished
  | loss hlives hne hother => exact (hgoes hne hlives hother).elim
  | interrogation _ hne hlives _ hcurrent => exact (hgoes hne hcurrent hlives).elim
  | asked hpending =>
    -- the table would not be asked if there were nobody to oppose
    obtain ⟨seat, hne, hlives⟩ := exists_of_not_accepted (h.waiting _ _ hf).2
    exact (hgoes hne hpending.isAlive_actor hlives).elim
  | challenged hpending _ _ hne hlives => exact (hgoes hne hpending.isAlive_actor hlives).elim
  | upheld hpending _ _ hne hlives => exact (hgoes hne hpending.isAlive_actor hlives).elim

/-- The player who is alive in a finished game has won it. -/
theorem winner?_eq (hfinished : g.isFinished = true) (hlives : g.isAlive seat = true) :
    g.winner? = some seat := by
  have hmem : seat ∈ g.livingSeats :=
    List.mem_filter.2 ⟨List.mem_range.2 (lt_of_isAlive hlives), hlives⟩
  have hfew : g.livingSeats.length ≤ 1 := by
    rw [isFinished, Bool.and_eq_true, decide_eq_true_eq] at hfinished
    exact hfinished.2
  obtain ⟨a, ha⟩ : ∃ a, g.livingSeats = [a] :=
    List.length_eq_one_iff.1 (Nat.le_antisymm hfew (List.length_pos_of_mem hmem))
  rw [ha, List.mem_singleton] at hmem
  rw [winner?, if_pos hfinished, ha, hmem]
  rfl

/-- The status of a game that somebody has won closes with the winner. -/
theorem statusClosing_of_winner (h : g.winner? = some seat) :
    g.statusClosing = Wording.won (g.nameOf seat) := by
  have hfinished : g.isFinished = true := by
    by_contra hgoes
    rw [winner?, if_neg hgoes] at h
    cases h
  rw [statusClosing, if_pos hfinished, h]
  rfl

/-! ## The last status -/

/-- The game is over: its last message was the status that names the winner, and the alarm is set
that reports the end. -/
structure Ended (g : Game) : Prop where
  /-- Nothing is taken in any more. -/
  isOver : g.isOver = true
  /-- Nothing waits but the turn. -/
  frames : g.stack.frames = [.turn]
  /-- The status is the last message. -/
  status : g.venue.outbox.head? = some ⟨.everyone, g.statusText, []⟩
  /-- It names the winner. -/
  winner : ∃ winner, g.winner? = some winner ∧ g.statusClosing = Wording.won (g.nameOf winner)
  /-- The alarm is set. -/
  alarm : ∃ id, g.overAlarm = some id ∧ g.venue.alarms.isPending id = true

/-! ## The last step -/

/-- A game settles at once, or the last thing that happens is that a frame goes on by itself. -/
theorem Settles.last (hsettles : Settles g g') (h : g.Sound) :
    g' = g ∨ ∃ g₁, g₁.Sound ∧ g₁.isOver = false ∧ Step g₁ .idle g' := by
  induction hsettles with
  | rest => exact .inl rfl
  | @go g g₁ g' hstirred hidle hsettles ih =>
    obtain ⟨hidled, hsound⟩ := h.idled hstirred hidle
    rcases ih hsound with rfl | hlast
    · exact .inr ⟨_, h.hush, h.isOver_of_stirred hstirred, hidled.step⟩
    · exact .inr hlast

/-- A frame that goes on by itself in a finished game, and leaves the turn alone on the stack with
nothing to stir, ends the game. -/
theorem Step.ended (h : g.Sound) (hover : g.isOver = false) (hstep : Step g .idle g')
    (hf' : g'.stack.frames = [.turn]) (hstill : g'.stirred = false)
    (hfinished : g'.isFinished = true) : g'.Ended := by
  cases hstep with
  | pass _ hgo => cases hover.symm.trans (hgo hfinished)
  | finish hf =>
    obtain ⟨seat, hlives⟩ : ∃ seat, g.isAlive seat = true := by
      cases h.shape_of hf with
      | turn hlives => exact hlives
    exact {
      isOver := rfl
      frames := hf'
      status := congrArg some (status_of_isFinished hfinished)
      winner := ⟨seat, winner?_eq hfinished hlives,
        statusClosing_of_winner (winner?_eq hfinished hlives)⟩
      alarm := ⟨_, rfl, by simp [Venue.arming, Alarms.isPending]⟩ }
  | unopposed _ _ hgrant => cases (hgrant.stirred_eq rfl).symm.trans hstill
  | answerLast _ _ _ _ hanswer => cases hanswer.stirred_eq.symm.trans hstill
  | askSomebody hf hne =>
    rw [hf] at hf'
    exact absurd (List.cons.inj hf').1 hne
  | ask | showOnly => cases hf'
  | dropDead | loseAll => cases hstill

/-- A press or an alarm that is a step, and leaves the turn alone on the stack with nothing to stir,
finishes no game. -/
theorem Step.isFinished_of_still (h : g.Sound) (hstep : Step g cause g')
    (hf' : g'.stack.frames = [.turn]) (hstill : g'.stirred = false) (hcause : cause ≠ .idle)
    (hgoes : g.isFinished = false) : g'.isFinished = false := by
  obtain ⟨v, ms, below, hf, hdeal⟩ | ⟨ms, below, -, -, rfl⟩ | ⟨c, below, seat, -, -, rfl⟩ :=
    hstep.of_still hcause hstill
  · obtain ⟨built, ms', hperm, rfl⟩ := h.of_deal hf hdeal
    exact isFinished_dealt (hperm.length_eq.trans (Deck.length_full _)) h.seats h.few
  · exact hgoes
  · cases hf'

/-- The press or the alarm that finishes a reachable game ends it, unless it has the winner exchange
cards first. -/
theorem Reachable.ended_or_exchanging (h : Reachable g) (hgoes : g.isFinished = false)
    (htime : ∀ time, i ≠ .advance time) (hfeed : g.feed i = .ok g')
    (hfinished : g'.isFinished = true) :
    g'.Ended ∨ g'.isOver = false ∧ ∃ e, g'.stack.frames = [.exchange e, .turn] ∧
      g'.winner? = some e.player := by
  have hrest := h.atRest
  have hrest' := hrest.feed hfeed
  have hchanged : ∀ {venue overAlarm}, g' ≠ { g with venue, overAlarm } := by
    rintro venue overAlarm rfl
    cases hgoes.symm.trans hfinished
  -- An input that finishes the game is not ignored, and so it begins with a step.
  obtain ⟨cause, y, hcause, hstep, hsound, hsettles⟩ : ∃ cause y, cause ≠ .idle ∧
      Step g cause y ∧ y.Sound ∧ Settles y g' := by
    cases i with
    | press seat data =>
      rcases press_cases hrest hfeed with ⟨heq, -⟩ | ⟨m, y, -, -, -, hstep, hsound, hsettles⟩
      · exact absurd heq hchanged
      · exact ⟨.press seat m, y, nofun, hstep, hsound, hsettles⟩
    | expire id =>
      rcases expire_cases hrest hfeed with ⟨-, heq⟩ | heq | ⟨y, hstep, hsound, hsettles⟩
      · exact absurd heq hchanged
      · exact absurd heq hchanged
      · exact ⟨.alarm id, y, nofun, hstep, hsound, hsettles⟩
    | advance time => exact absurd rfl (htime time)
  rcases hrest'.frames_of_isFinished hfinished with hf' | ⟨e, hf', hplayer, hlives⟩
  · left
    -- Back at the turn, the last thing that happened is that the turn passed on, or the step did.
    rcases hsettles.last hsound with rfl | ⟨g₁, hsound₁, hover₁, hlast⟩
    · cases (hstep.isFinished_of_still hrest.toSound hf' hrest'.still hcause hgoes).symm.trans
        hfinished
    · exact hlast.ended hsound₁ hover₁ hf' hrest'.still hfinished
  · right
    refine ⟨hrest'.isOver_eq_false hf' nofun, e, hf', ?_⟩
    rw [hplayer]
    exact winner?_eq hfinished hlives

/-- Bob has one card left and challenges the theft of a proven thief: Ada takes the coins, and the
game is over. -/
theorem ended_or_exchanging_robbed : ∃ g g',
    playOut ["Ada", "Bob"]
        { seed := some 0, startPlayer := some 1, variant := some .classic,
          cardOverrides := [.ambassador, .captain, .contessa, .contessa] }
        [.press 1 "tax", .press 0 "challenge", .press 1 "reveal:0", .press 0 "steal:1",
          .press 1 "challenge"] = some g ∧
      g.isFinished = false ∧ g.feed (.press 0 "reveal:1") = .ok g' ∧ g'.isFinished = true ∧
      g'.Ended := by
  have hrun : ((playOut ["Ada", "Bob"]
      { seed := some 0, startPlayer := some 1, variant := some .classic,
        cardOverrides := [.ambassador, .captain, .contessa, .contessa] }
      [.press 1 "tax", .press 0 "challenge", .press 1 "reveal:0", .press 0 "steal:1",
        .press 1 "challenge"]).bind fun g =>
          (g.feed (.press 0 "reveal:1")).toOption.map fun g' =>
            (g.isFinished, g'.isFinished, g'.isOver)) = some (false, true, true) := by
    decide +kernel
  obtain ⟨g, g', hg, hfeed, hrun⟩ := exists_of_playOut hrun
  simp only [Prod.mk.injEq] at hrun
  obtain ⟨hgoes, hfinished, hover⟩ := hrun
  have htime : ∀ time, Input.press 0 "reveal:1" ≠ .advance time := fun _ => nofun
  refine ⟨g, g', hg, hgoes, hfeed, hfinished, ?_⟩
  rcases (reachable_of_playOut hg).ended_or_exchanging hgoes htime hfeed
      hfinished with hended | ⟨hopen, -⟩
  · exact hended
  · cases hopen.symm.trans hover

/-- Bob has one card left and challenges the exchange of a proven ambassador: the game is finished,
but it is not over, and waits for Ada to choose her cards. -/
theorem finished_not_over : ∃ g g',
    playOut ["Ada", "Bob"]
        { seed := some 0, startPlayer := some 1, variant := some .classic,
          cardOverrides := [.ambassador, .captain, .contessa, .contessa] }
        [.press 1 "tax", .press 0 "challenge", .press 1 "reveal:0", .press 0 "exchange",
          .press 1 "challenge"] = some g ∧
      Reachable g ∧ g.isFinished = false ∧ g.feed (.press 0 "reveal:0") = .ok g' ∧
      g'.isFinished = true ∧ g'.isOver = false ∧ g'.overAlarm = none ∧
      g'.stack.frames.length = 2 := by
  have hrun : ((playOut ["Ada", "Bob"]
      { seed := some 0, startPlayer := some 1, variant := some .classic,
        cardOverrides := [.ambassador, .captain, .contessa, .contessa] }
      [.press 1 "tax", .press 0 "challenge", .press 1 "reveal:0", .press 0 "exchange",
        .press 1 "challenge"]).bind fun g =>
          (g.feed (.press 0 "reveal:0")).toOption.map fun g' =>
            (g.isFinished, g'.isFinished, g'.isOver, g'.overAlarm, g'.stack.frames.length))
      = some (false, true, false, none, 2) := by
    decide +kernel
  obtain ⟨g, g', hg, hfeed, hrun⟩ := exists_of_playOut hrun
  simp only [Prod.mk.injEq] at hrun
  obtain ⟨hgoes, hfinished, hover, halarm, hdepth⟩ := hrun
  exact ⟨g, g', hg, reachable_of_playOut hg, hgoes, hfeed, hfinished, hover, halarm, hdepth⟩

end CoupTable.Game
