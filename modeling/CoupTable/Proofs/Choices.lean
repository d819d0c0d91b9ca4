import CoupTable.Proofs.DataStrings
import CoupTable.Proofs.Losses
import CoupTable.Proofs.Opponents
import CoupTable.Proofs.Quorum

/-!
# There is always something to do

Between two inputs a game that is not over waits for somebody: the list of the moves that it waits
for is not empty, and whoever is on it is alive. At the beginning of a turn there is a target for
the current player, so that even a player who must make a coup can make one. And a claim that is
made, or a block, goes to the table first.
-/

namespace CoupTable

namespace Game

variable {g g' x : Game} {c : Claim} {f : Frame} {below : List Frame} {seat other slot : Nat}
  {p : Player} {m : Move} {data : String}

/-! ## Moves -/

/-- A press from the table is handed to the frame on top, and then the game settles. -/
theorem press_eq (hseat : seat < g.players.length) (hover : g.isOver = false)
    (hdata : Move.parse? data = some m) : g.press seat data = g.dispatch seat m >>= settle := by
  unfold press
  rw [hover, decide_eq_true hseat, hdata]
  rfl

/-- Whoever has a living card has a move about it. -/
theorem slotMoves_ne_nil (hlives : g.isAlive seat = true) (make : Nat → Move) :
    g.slotMoves seat make ≠ [] := by
  obtain ⟨slot, hslot⟩ := isAlive_iff.1 hlives
  exact List.ne_nil_of_mem (mem_slotMoves.2 ⟨rfl, slot, hslot, rfl⟩)

/-- At the beginning of a turn there is a move for somebody who may move against others. -/
theorem turnMoves_ne_nil (htargets : g.targets ≠ []) : g.turnMoves ≠ [] := by
  unfold turnMoves
  dsimp only
  split
  next => simpa using htargets
  next => simp

/-- Somebody has to accept a claim that waits. -/
theorem AtRest.quorum_ne_nil (h : g.AtRest) (hf : g.stack.frames = .claim c :: below) :
    g.quorum c ≠ [] := by
  intro hnobody
  have hwaits := (h.waiting _ _ hf).2
  rw [isAccepted, hnobody] at hwaits
  cases hwaits

/-- A game at rest that is not over waits for a move. -/
theorem AtRest.moves_ne_nil (h : g.AtRest) (hover : g.isOver = false)
    (htargets : g.stack.frames = [.turn] → g.targets ≠ []) : g.moves ≠ [] := by
  have hshape := h.shape
  generalize hf : g.stack.frames = frames at hshape htargets
  -- Each frame on top has somebody who can answer it, and something to answer.
  cases hshape with
  | turn =>
    rw [moves_eq hover hf, movesFor]
    exact fun hnil => turnMoves_ne_nil (htargets rfl) (List.map_eq_nil_iff.1 hnil)
  | variantChoice =>
    have hseat : g.current ∈ g.seats := List.mem_range.2 h.current
    rw [moves_eq hover hf, movesFor]
    refine List.ne_nil_of_mem (a := (g.current, .gameType Variant.classic.index)) ?_
    exact List.mem_flatMap.2 ⟨_, hseat, List.mem_map.2 ⟨.classic, by simp [Variant.all], rfl⟩⟩
  | loss hlives | upheld _ _ _ _ hlives =>
    rw [moves_eq hover hf, movesFor]
    exact slotMoves_ne_nil hlives _
  | exchange _ hhand hcards =>
    rw [moves_eq hover hf, movesFor]
    simp only [ne_eq, List.map_eq_nil_iff, List.range_eq_nil]
    omega
  | @interrogation i hinquisitor hne hlives =>
    rw [moves_eq hover hf, movesFor]
    unfold interrogationMoves
    cases i.shown with
    | none => exact slotMoves_ne_nil hlives _
    | some slot => exact List.cons_ne_nil _ _
  | asked =>
    obtain ⟨seat, hseat⟩ := List.exists_mem_of_ne_nil _ (h.quorum_ne_nil hf)
    obtain ⟨hne, hlives, -⟩ := mem_quorum.1 hseat
    rw [moves_eq hover hf]
    exact List.ne_nil_of_mem (mem_movesFor_claim.2 ⟨hne, hlives, .inl rfl⟩)
  | challenged hpending =>
    rw [moves_eq hover hf, movesFor]
    unfold revealMoves
    dsimp only
    split
    next => exact List.cons_ne_nil _ _
    next => exact slotMoves_ne_nil hpending.isAlive_actor _

/-- Whoever a game at rest waits for is alive, unless it waits for the variant. -/
theorem AtRest.isAlive_of_mem_moves (h : g.AtRest) (hmem : (seat, m) ∈ g.moves) :
    g.isAlive seat = true ∨
      (g.variant = none ∧ seat < g.players.length ∧ ∃ v : Variant, m = .gameType v.index) := by
  have hshape := h.shape
  generalize hf : g.stack.frames = frames at hshape
  -- Whom the frame on top waits for is alive, as the shape of the stack says, or it is before the
  -- deal.
  cases hshape with
  | turn =>
    obtain ⟨_, -, hseat⟩ := List.mem_map.1 (mem_movesFor hmem hf)
    cases hseat
    exact .inl (h.awake hf)
  | variantChoice hv =>
    obtain ⟨other, hother, hmem⟩ := List.mem_flatMap.1 (mem_movesFor hmem hf)
    obtain ⟨v, -, hseat⟩ := List.mem_map.1 hmem
    cases hseat
    exact .inr ⟨hv, List.mem_range.1 hother, v, rfl⟩
  | loss hlives | upheld _ _ _ _ hlives =>
    obtain ⟨rfl, -⟩ := mem_slotMoves.1 (mem_movesFor hmem hf)
    exact .inl hlives
  | exchange hplayer _ _ hcurrent =>
    obtain ⟨_, -, hseat⟩ := List.mem_map.1 (mem_movesFor hmem hf)
    cases hseat
    exact .inl (hplayer ▸ hcurrent)
  | interrogation hinquisitor hne hlives _ hcurrent =>
    rcases mem_interrogationMoves.1 (mem_movesFor hmem hf) with ⟨-, rfl, -⟩ | ⟨-, rfl, -⟩
    · exact .inl hlives
    · exact .inl (hinquisitor ▸ hcurrent)
  | asked => exact .inl (mem_movesFor_claim.1 (mem_movesFor hmem hf)).2.1
  | challenged hpending =>
    obtain ⟨p, hp⟩ := exists_player hpending.actor_lt
    obtain ⟨rfl, -⟩ := (mem_revealMoves hp).1 (mem_movesFor hmem hf)
    exact .inl hpending.isAlive_actor

/-- Whoever a game at rest waits for sits at the table. -/
theorem AtRest.lt_of_mem_moves (h : g.AtRest) (hmem : (seat, m) ∈ g.moves) :
    seat < g.players.length := by
  rcases h.isAlive_of_mem_moves hmem with hlives | ⟨-, hseat, -⟩
  · exact lt_of_isAlive hlives
  · exact hseat

/-- A move that a game waits for is a step, after which the game settles. -/
theorem AtRest.press_of_mem_moves (h : g.AtRest) (hmem : (seat, m) ∈ g.moves)
    (hdata : Move.parse? data = some m) : ∃ x, g.dispatch seat m = .ok x ∧
      Step g (.press seat m) x ∧ x.Sound ∧ g.press seat data = x.settle := by
  have hover := isOver_of_mem_moves hmem
  have hseat := h.lt_of_mem_moves hmem
  obtain ⟨x, hdispatch, ⟨-, hnot⟩ | hstep⟩ := dispatch_yields h seat m
  · exact absurd hmem hnot
  · refine ⟨x, hdispatch, hstep, hstep.sound h.toSound h.still hover, ?_⟩
    rw [press_eq hseat hover hdata, hdispatch, ok_bind]

/-! ## Coups -/

/-- A coup against somebody whom the current player may move against succeeds for whoever has the
coins: they are paid, and the target has one more card dead or to lose. -/
theorem Reachable.coup_succeeds {target : Nat} (h : Reachable g) (hf : g.stack.frames = [.turn])
    (hover : g.isOver = false) (hcoins : coupCost ≤ g.coinsOf g.current)
    (ht : g.isTarget g.current target = true) :
    ∃ g', g.play g.current (.coup (some target)) = .ok g' ∧
      g'.coinsOf g.current + coupCost = g.coinsOf g.current ∧
      g'.toll target = g.toll target + 1 := by
  have hrest := h.atRest
  have hdata : Move.parse? (Move.coup (some target)).data = some (.coup (some target)) := by
    refine Move.parse?_data fun n hn => ?_
    cases hn
    calc target < g.players.length := lt_of_isAlive (isTarget_iff.1 ht).2.1
      _ ≤ maxPlayers := hrest.seats
      _ < Text.wordLimit := by decide
  have hmem : (g.current, .coup (some target)) ∈ g.moves := by
    rw [moves_eq hover hf]
    exact List.mem_map_of_mem (mem_turnMoves.2 ⟨hcoins, ht⟩)
  obtain ⟨x, -, hstep, hsound, hpress⟩ := hrest.press_of_mem_moves hmem hdata
  have hopened := hstep.opened hrest.toSound (underWay_of_turn hf)
  -- A coup claims nothing, and so the game settles whatever the clock shows.
  have hclaim : x.claim? = none := by
    rcases hopened.claim with ⟨_, _, hm, -⟩ | ⟨-, hnone⟩
    · cases hm
    · exact hnone
  have hnow : x.venue.alarms.now < clockEnd := by
    rw [(hstep.sameTable hrest.toSound).now]
    exact h.now_lt
  obtain ⟨g', hsettle, -⟩ := settle_of_unclaimed hsound hopened.inPlay.variant hclaim hnow
  refine ⟨g', hpress.trans hsettle, ?_⟩
  have hchain : Chain (·.underWay = true) x x.settleCalls g' := settle_chain hsound hsettle
  obtain ⟨hunchallenged, hmoney⟩ := hopened.unchallenged rfl hchain
  obtain ⟨-, -, hquiet⟩ := hchain.unclaimed hopened.inPlay.variant hclaim
  have hlosers : losers x.settleCalls = [] := by
    have hcount := hchain.openChallenges_add hopened.inPlay.variant
    rw [hopened.openChallenges, hunchallenged] at hcount
    exact List.length_eq_zero_iff.1 (Nat.eq_zero_of_add_eq_zero_left hcount)
  constructor
  · rw [hmoney.coins, hstep.money_of_coup.1]
  · rw [hchain.toll_eq hopened.inPlay, hlosers, victims?_of_quiet fun k hk => (hquiet k hk).2,
      hopened.toll, victims, List.count_singleton_self]
    rfl

/-! ## The result -/

/-- The claim `c` was just put to the table on top of the frames `below`: its alarm is set,
everybody was asked last of all, an opponent of its player is alive and has to accept it yet, and
nothing of value has moved. -/
structure PutToTable (g : Game) (c : Claim) (below : List Frame) (g' : Game) : Prop where
  /-- The claim is on top, and its alarm is set. -/
  frames : ∃ id, g'.stack.frames = .claim { c with alarm := some id } :: below ∧
    g'.venue.alarms.isPending id = true
  /-- Everybody was asked last of all. -/
  prompt : g'.venue.outbox = ⟨.everyone, g'.claimText c, claimButtons c⟩ :: g.venue.outbox
  /-- Somebody has to accept the claim who is alive, and not its player. -/
  opponent : ∃ seat ∈ g'.quorum c, seat ≠ c.actor ∧ g'.isAlive seat = true ∧
    c.accepted.contains seat = false
  /-- Nobody's cards or coins have changed. -/
  players : g'.players = g.players
  /-- Nor has the draw pile. -/
  deck : g'.deck = g.deck
  /-- Nor has the treasury. -/
  treasury : g'.treasury = g.treasury

/-- A press that puts a claim on top of all frames has the claim put to the table, unless its alarm
would ring after the end of the clock. -/
theorem Reachable.put_to_table (h : Reachable g) (hover : g.isOver = false)
    (hseat : seat < g.players.length) (hdata : Move.parse? data = some m)
    (hdispatch : g.dispatch seat m = .ok x) (hx : x.stack.frames = .claim c :: below)
    (hdepth : below.length = g.stack.depth) :
    (g.press seat data = .error .clockOverflow ∧ clockEnd ≤ g.venue.alarms.now + g.waitTime) ∨
      ∃ g', g.press seat data = .ok g' ∧ g.PutToTable c below g' := by
  have hrest := h.atRest
  have hstep : Step g (.press seat m) x := by
    obtain ⟨y, hy, ⟨rfl, -⟩ | hstep⟩ := dispatch_yields hrest seat m
    · cases hdispatch.symm.trans hy
      rw [Stack.depth, hx, List.length_cons] at hdepth
      omega
    · cases hdispatch.symm.trans hy
      exact hstep
  have hgoes : g.stack.frames = [.turn] → g.isFinished = false := fun hf =>
    (h.isFinished_eq hf).trans hover
  obtain ⟨alarm, heq, haccepted, hfresh, hquorum⟩ := hstep.declared hrest hgoes hx hdepth
  have hsettle : x.settle = _ := settle_of_quorum (by rw [heq]) hx (by rw [heq]; exact hquorum)
  rw [press_eq hseat hover hdata, hdispatch, ok_bind, hsettle]
  subst heq
  dsimp only
  rw [Venue.now_release]
  split
  next hclock =>
    refine .inr ⟨_, rfl, ⟨(g.venue.release alarm).alarms.next, ?_, ?_⟩, ?_, ?_, rfl, rfl, rfl⟩
    · rw [asked, ← haccepted]
    · simp [asked, hfresh, Venue.arming, Venue.saying, Venue.release, Alarms.isPending]
    · exact congrArg (_ :: ·) ((outbox_release _).trans (outbox_release _))
    · obtain ⟨other, hother⟩ := List.exists_mem_of_ne_nil _ hquorum
      obtain ⟨hne, hlives, -⟩ := mem_quorum.1 hother
      exact ⟨other, hother, hne, hlives, by rw [haccepted, SeatSet.contains_empty]⟩
  next hclock => exact .inl ⟨rfl, Nat.not_lt.1 hclock⟩

/-- A reachable game that is not over waits for somebody, and whomever it waits for is alive, unless
it waits for the variant. When a turn begins in a game that is not finished, the current player has
a target, and with the coins for a coup each coup against a target succeeds; with so many coins that
nothing else is waited for there is such a coup. A claim that is made, or a block, is put to the
table, with an opponent alive who has to accept it, unless its alarm would ring after the end of the
clock. -/
theorem Reachable.never_stuck (h : Reachable g) :
    (g.isOver = false → g.moves ≠ [] ∧ ∀ seat m, (seat, m) ∈ g.moves →
      g.isAlive seat = true ∨ g.variant = none ∧ ∃ v : Variant, m = .gameType v.index) ∧
    (g.underWay = false → g.isFinished = false →
      g.targets ≠ [] ∧
      (coupCost ≤ g.coinsOf g.current → ∀ target ∈ g.targets, ∃ g',
        g.play g.current (.coup (some target)) = .ok g' ∧
        g'.coinsOf g.current + coupCost = g.coinsOf g.current ∧
        g'.toll target = g.toll target + 1) ∧
      (forcedCoupCoins ≤ g.coinsOf g.current → g.moves ≠ [] ∧ ∀ seat m, (seat, m) ∈ g.moves →
        seat = g.current ∧ ∃ target ∈ g.targets, m = .coup (some target))) ∧
    (∀ seat data m x c below, g.isOver = false → seat < g.players.length →
      Move.parse? data = some m → g.dispatch seat m = .ok x →
      x.stack.frames = .claim c :: below → below.length = g.stack.depth →
      (g.press seat data = .error .clockOverflow ∧ clockEnd ≤ g.venue.alarms.now + g.waitTime) ∨
        ∃ g', g.press seat data = .ok g' ∧ g.PutToTable c below g') := by
  have hrest := h.atRest
  have htargets : g.stack.frames = [.turn] → g.isFinished = false → g.targets ≠ [] := by
    intro hf hgoes
    obtain ⟨target, htarget⟩ :=
      exists_isTarget (hrest.variant_ne_none hf nofun) hgoes (hrest.awake hf)
    exact List.ne_nil_of_mem (mem_targets.2 htarget)
  have hmoves : g.isOver = false → g.moves ≠ [] := fun hover => hrest.moves_ne_nil hover fun hf =>
    htargets hf ((h.isFinished_eq hf).trans hover)
  refine ⟨fun hover => ⟨hmoves hover, fun seat m hmem => ?_⟩, fun hturn hgoes => ?_, ?_⟩
  · exact (hrest.isAlive_of_mem_moves hmem).imp_right fun ⟨hv, _, hm⟩ => ⟨hv, hm⟩
  · have hf := hrest.frames_of_turn hturn
    have hover : g.isOver = false := (h.isFinished_eq hf).symm.trans hgoes
    refine ⟨htargets hf hgoes, fun hcoins target htarget => ?_, fun hrich => ⟨hmoves hover, ?_⟩⟩
    · exact h.coup_succeeds hf hover hcoins (mem_targets.1 htarget)
    · -- Every other move takes fewer coins.
      intro seat m hmem
      obtain ⟨rfl, hcan⟩ := canTake_of_mem_moves hf hmem
      refine ⟨rfl, ?_⟩
      by_contra hother
      refine Nat.not_lt.2 hrich (hcan.coins_lt ?_)
      rintro (_ | target) rfl
      · exact hcan
      · exact hother ⟨target, mem_targets.2 hcan.2, rfl⟩
  · exact fun _ _ _ _ _ _ hover hseat => h.put_to_table hover hseat

/-- Ada takes tax until she has eleven coins, and then Bob changes sides, so that all are loyalists.
Nobody is protected any more, and Ada has to make a coup, which she can do against Cid. Her first
tax was put to the table. -/
theorem never_stuck_reunified : ∃ g g' x y,
    playOut ["Ada", "Bob", "Cid"]
        { seed := some 0, startPlayer := some 0, variant := some .reformation }
        [.press 0 "tax", .press 1 "accept", .press 2 "accept", .press 1 "income", .press 2 "income",
          .press 0 "tax", .press 1 "accept", .press 2 "accept", .press 1 "income",
          .press 2 "income", .press 0 "tax", .press 1 "accept", .press 2 "accept",
          .press 1 "convert:1", .press 2 "income"] = some g ∧
      g.isReunified = true ∧ g.coinsOf 0 = 11 ∧ g.moves ≠ [] ∧
      g.play 0 (.coup (some 2)) = .ok g' ∧ g'.coinsOf 0 + coupCost = 11 ∧ g'.toll 2 = 1 ∧
      playOut ["Ada", "Bob", "Cid"]
          { seed := some 0, startPlayer := some 0, variant := some .reformation } []
        = some x ∧
      x.press 0 "tax" = .ok y ∧ x.PutToTable (.opening 0 (Wording.tax "Ada") .tax) [.turn] y := by
  have hrun : (playOut ["Ada", "Bob", "Cid"]
      { seed := some 0, startPlayer := some 0, variant := some .reformation }
      [.press 0 "tax", .press 1 "accept", .press 2 "accept", .press 1 "income", .press 2 "income",
        .press 0 "tax", .press 1 "accept", .press 2 "accept", .press 1 "income",
        .press 2 "income", .press 0 "tax", .press 1 "accept", .press 2 "accept",
        .press 1 "convert:1", .press 2 "income"]).map (fun g =>
          ((g.isOver, g.underWay, g.isFinished, g.isReunified),
            g.current, g.coinsOf 0, g.toll 2, g.targets))
      = some ((false, false, false, true), 0, 11, 0, [1, 2]) := by
    decide +kernel
  have hrun' : ((playOut ["Ada", "Bob", "Cid"]
      { seed := some 0, startPlayer := some 0, variant := some .reformation } []).bind fun x =>
        (x.dispatch 0 .tax).toOption.map fun z => (x.isOver, x.players.length, x.stack.depth,
          decide (x.venue.alarms.now + x.waitTime < clockEnd), z.stack.frames))
      = some (false, 3, 1, true, [.claim (.opening 0 (Wording.tax "Ada") .tax), .turn]) := by
    decide +kernel
  obtain ⟨g, hg, hrun⟩ := Option.map_eq_some_iff.1 hrun
  simp only [Prod.mk.injEq] at hrun
  obtain ⟨⟨hover, hturn, hgoes, hreunified⟩, hcurrent, hcoins, htoll, htargets⟩ := hrun
  obtain ⟨x, z, hx, hz, hrun'⟩ := exists_of_playOut hrun'
  simp only [Prod.mk.injEq, decide_eq_true_eq] at hrun'
  obtain ⟨hopen, hseats, hdepth, hclock, hclaim⟩ := hrun'
  obtain ⟨hmoves, hcoup, -⟩ := (reachable_of_playOut hg).never_stuck
  obtain ⟨-, hcoup, -⟩ := hcoup hturn hgoes
  rw [hcurrent] at hcoup
  obtain ⟨g', hplay, hpaid, htoll'⟩ := hcoup (by rw [hcoins]; decide) 2 (by rw [htargets]; decide)
  obtain ⟨-, -, hdeclared⟩ := (reachable_of_playOut hx).never_stuck
  have htax : Move.parse? "tax" = some .tax := by decide +kernel
  rcases hdeclared 0 "tax" .tax z _ _ hopen (by rw [hseats]; decide) htax hz hclaim hdepth.symm with
    ⟨-, hlate⟩ | ⟨y, hpress, hput⟩
  · exact absurd hclock (Nat.not_lt.2 hlate)
  · refine ⟨g, g', x, y, hg, hreunified, hcoins, (hmoves hover).1, hplay, ?_, ?_, hx, hpress, hput⟩
    · rw [hpaid, hcoins]
    · rw [htoll', htoll]

end Game

end CoupTable
