import Mathlib.Algebra.BigOperators.Group.Finset.Basic
import CoupTable.Proofs.Tolls

/-!
# The losses of a turn

A turn costs cards by its challenges, and by the move that it is about if that is a coup or an
assassination. `Step.opened` says what the move does at once, and the calls after it take the tolls
that they take one by one: put together, they are the cards that are dead when the next turn begins.
-/

namespace CoupTable.Game

/-- Who loses a card to a move: the target of a coup, and the target of an assassination if some
call grants it while the target is alive. -/
def victims (m : Move) (ks : List Call) : List Nat :=
  match m with
  | .coup (some target) => [target]
  | .assassinate (some target) => if ks.any (·.grantsOver target) then [target] else []
  | _ => []

variable {P : Game → Prop} {g g' x : Game} {cause : Cause} {c : Claim} {f : Frame}
  {frames below : List Frame} {outcome : Outcome} {effect : Effect} {k : Call} {ks : List Call}
  {inputs : List Input} {seat other slot choice : Nat} {p q : Player} {r : Reveal} {m : Move}
  {data : String}

/-! ## Moves -/

/-- Calls that decide nothing have no victims. -/
theorem victims?_of_quiet (h : ∀ k ∈ ks, Quiet k) : ks.filterMap (·.victim?) = [] := by
  refine List.filterMap_eq_nil_iff.2 fun k hk => Call.victim?_eq_none ?_
  rw [(h k hk).undecided]
  rintro ⟨⟩

/-- Calls that decide nothing grant nothing. -/
theorem not_grantsOver_of_quiet (h : ∀ k ∈ ks, Quiet k) (target : Nat) :
    ks.any (·.grantsOver target) = false := by
  rw [List.any_eq_false]
  intro k hk
  rw [Call.grantsOver, (h k hk).undecided]
  simp

/-- The victims of a move that claims something are those of the call that decides the claim. -/
theorem Deciding.victims_eq (h : Deciding g c ks outcome g') (hm : m.effect? = some c.effect) :
    victims m ks = ks.filterMap (·.victim?) := by
  cases h with
  | @intro early late k c' _ _ hearly _ hcall hclaim heffect _ _ _ hlate =>
    -- All calls but `k` are quiet, so that only `k` can have a victim.
    have hgrants : ∀ target, (early ++ k :: late).any (·.grantsOver target)
        = k.grantsOver target := by
      intro target
      rw [List.any_append, List.any_cons, not_grantsOver_of_quiet hearly,
        not_grantsOver_of_quiet hlate, Bool.or_false, Bool.false_or]
    have hcall : (early ++ k :: late).filterMap (·.victim?) = k.victim?.toList := by
      rw [List.filterMap_append, List.filterMap_cons, victims?_of_quiet hearly,
        victims?_of_quiet hlate]
      cases k.victim? <;> rfl
    rw [hcall, Call.victim?_of_claim? hclaim, heffect]
    unfold victims
    cases m with
    | assassinate target =>
      cases target with
      | none => cases hm
      | some target =>
        rw [← Option.some.inj hm]
        dsimp only
        rw [hgrants]
        split <;> rfl
    | coup target => cases hm
    | foreignAid | tax | exchange | embezzle =>
      rw [← Option.some.inj hm]
      rfl
    | steal target | inspect target =>
      cases target with
      | none => cases hm
      | some target =>
        rw [← Option.some.inj hm]
        rfl
    | _ => cases hm

/-- A claim that is made has no victims so far. -/
theorem victims_nil (hm : m.effect? = some effect) : victims m [] = [] := by
  cases m with
  | assassinate target => cases target <;> rfl
  | coup target => cases hm
  | _ => rfl

/-- A move without a target has no victims. -/
theorem victims_of_lacksTarget (hm : m.lacksTarget = true) : victims m ks = [] := by
  cases m with
  | coup target | assassinate target =>
    cases target with
    | none => rfl
    | some target => cases hm
  | _ => rfl

/-- What the current player's move does at once. -/
structure Opened (g : Game) (m : Move) (g' : Game) : Prop where
  /-- Nobody challenges a turn. -/
  ne_challenge : m ≠ .challenge
  /-- The turn is under way. -/
  inPlay : g'.InPlay
  /-- No challenge waits. -/
  openChallenges : g'.openChallenges = 0
  /-- Only a coup takes a toll at once. -/
  toll : ∀ other, g'.toll other = g.toll other + (victims m []).count other
  /-- The move is claimed, or nothing is. -/
  claim : (∃ effect message, m.effect? = some effect ∧ g.CanOpen effect ∧
    g' = g.claiming message effect) ∨ m.effect? = none ∧ g'.claim? = none

/-- A move that claims nothing opens the turn with nothing on it but losses. -/
theorem Opened.of_losses (hm : m.effect? = none) (hne : m ≠ .challenge) (hv : x.variant ≠ none)
    (losers : List Nat) (hf : x.stack.frames = losers.map .loss ++ [.turn])
    (htoll : ∀ other, x.toll other = g.toll other + (victims m []).count other) :
    g.Opened m x := by
  have hwaits : x.exchange? = none ∧ x.openChallenges = 0 ∧ x.claim? = none := by
    rw [exchange?, Game.openChallenges, claim?, hf]
    clear hf
    induction losers with
    | nil => exact ⟨rfl, rfl, rfl⟩
    | cons loser losers ih => exact ih
  obtain ⟨hexchange, hopen, hclaim⟩ := hwaits
  exact ⟨hne, ⟨hv, .of_none hexchange⟩, hopen, htoll, .inr ⟨hm, hclaim⟩⟩

/-- At the beginning of a turn each step opens the turn with a move. -/
theorem Step.opened (h : g.Sound) (hstep : Step g (.press seat m) g')
    (hturn : g.underWay = false) : g.Opened m g' := by
  have hframes := h.frames_of_turn hturn
  have hv : g.variant ≠ none := h.variant_ne_none hframes (by rintro ⟨⟩)
  cases hstep with
  | income _ hp =>
    refine .of_losses rfl (by rintro ⟨⟩) hv [] hframes fun other => ?_
    exact toll_congr (deadCardsOf_of_set_eq hp rfl (by rfl) other) rfl
  | @coup p ms below target _ hp =>
    refine .of_losses rfl (by rintro ⟨⟩) hv [target] (by simp [hframes]) fun other => ?_
    rw [toll, toll, deadCardsOf_of_set_eq hp rfl (by rfl) other, count_loss_cons, victims,
      List.count_singleton, Nat.add_assoc]
    simp
  | convert _ _ hp _ _ _ hq =>
    refine .of_losses rfl (by rintro ⟨⟩) hv [] hframes fun other => toll_congr ?_ rfl
    apply SameCards.deadCardsOf_eq
    exact (map_cards_set hq (by rfl)).trans (map_cards_set hp (by rfl))
  | @claim below effect message m hf hc hopen hm =>
    -- The claim is on the turn, and nobody has challenged it yet.
    refine ⟨?_, ⟨hv, .of_none ?_⟩, ?_, fun other => ?_, .inl ⟨effect, message, hm, hopen, ?_⟩⟩
    · rintro rfl
      cases hm
    · rw [exchange?, hframes]
      rfl
    · rw [openChallenges, hframes]
      rfl
    · rw [victims_nil hm]
      refine toll_congr rfl ?_
      rw [count_loss_cons_of_ne fun _ => by simp]
    · rw [hframes]
      rfl
  | askTarget _ hlacks =>
    refine .of_losses (Move.effect?_of_lacksTarget hlacks) ?_ hv [] hframes fun other => ?_
    · rintro rfl
      cases hlacks
    · rw [victims_of_lacksTarget hlacks]
      rfl
  | _ hf =>
    rw [hframes] at hf
    cases hf

/-- A coup costs the current player seven coins, and nobody else any. -/
theorem Step.money_of_coup {target : Nat} (hstep : Step g (.press seat (.coup (some target))) g') :
    g'.coinsOf g.current + coupCost = g.coinsOf g.current ∧
      ∀ other ≠ g.current, g'.coinsOf other = g.coinsOf other := by
  cases hstep with
  | coup hf hp hlives hc =>
    have hbefore := coinsOf_eq hp
    constructor
    · rw [coinsOf_of_set hp rfl, if_pos rfl, hbefore]
      exact Nat.sub_add_cancel hc
    · intro other hne
      rw [coinsOf_of_set hp rfl, if_neg hne]
  | claim _ _ _ hm => cases hm
  | askTarget _ hlacks => cases hlacks

/-- A move that claims nothing has the victims that it has at once. -/
theorem victims_of_effect?_eq_none (ks : List Call) (hm : m.effect? = none) :
    victims m ks = victims m [] := by
  cases m with
  | assassinate target =>
    cases target with
    | none => rfl
    | some target => cases hm
  | coup target => cases target <;> rfl
  | _ => rfl

/-! ## Turns -/

/-- Nobody comes or leaves during a turn. -/
theorem Chain.seats_eq (hchain : Chain P g ks g') : g'.players.length = g.players.length := by
  induction hchain with
  | done hlull =>
    obtain ⟨_, _, _, rfl⟩ := hlull
    rfl
  | @next g g' k ks hlull hcall _ ih =>
    have hbefore : k.before.players.length = g.players.length := by
      obtain ⟨_, _, _, hk⟩ := hlull
      rw [hk]
    rcases hcall.step with heq | hstep
    · rw [ih, heq, hbefore]
    · rw [ih, (hstep.sameTable hcall.sound).seats, hbefore]

/-- What is counted for all players together is the sum over the seats. -/
theorem sum_map_eq (count : Player → Nat) (players : List Player) :
    (players.map count).sum
      = ∑ seat ∈ Finset.range players.length, (players[seat]?.map count).getD 0 := by
  induction players using List.reverseRecOn with
  | nil => rfl
  | append_singleton players p ih =>
    have hearly : ∀ seat ∈ Finset.range players.length,
        ((players ++ [p])[seat]?.map count).getD 0 = (players[seat]?.map count).getD 0 := by
      intro seat hseat
      rw [List.getElem?_append_left (Finset.mem_range.1 hseat)]
    rw [List.map_append, List.sum_append, ih, List.length_append, List.length_singleton,
      Finset.sum_range_succ, Finset.sum_congr rfl hearly]
    simp

/-- All dead cards are those of the seats together. -/
theorem deadCards_eq_sum (g : Game) :
    g.deadCards = ∑ seat ∈ Finset.range g.players.length, g.deadCardsOf seat :=
  sum_map_eq (·.deadCount) g.players

/-- Where every seat has as many dead cards more as it occurs in a list, all seats together have as
many more as the list is long. -/
theorem deadCards_of_count (lost : List Nat) (hseats : g'.players.length = g.players.length)
    (h : ∀ seat, g'.deadCardsOf seat = g.deadCardsOf seat + lost.count seat) :
    g'.deadCards = g.deadCards + lost.length := by
  have hmem : ∀ seat ∈ (lost : Multiset Nat), seat ∈ Finset.range g.players.length := by
    intro seat hseat
    rw [Finset.mem_range]
    by_contra hout
    -- beyond the table nobody has cards to lose
    have hnone : g.players[seat]? = none := List.getElem?_eq_none (Nat.le_of_not_lt hout)
    have hnone' : g'.players[seat]? = none :=
      List.getElem?_eq_none (hseats ▸ Nat.le_of_not_lt hout)
    have hcount := h seat
    rw [deadCardsOf, deadCardsOf, hnone, hnone'] at hcount
    have hpos : 0 < lost.count seat := List.count_pos_iff.2 hseat
    simp only [Option.map_none, Option.getD_none] at hcount
    omega
  calc g'.deadCards = ∑ seat ∈ Finset.range g.players.length, g'.deadCardsOf seat := by
        rw [deadCards_eq_sum, hseats]
    _ = ∑ seat ∈ Finset.range g.players.length, (g.deadCardsOf seat + lost.count seat) :=
        Finset.sum_congr rfl fun seat _ => h seat
    _ = g.deadCards + ∑ seat ∈ Finset.range g.players.length, (lost : Multiset Nat).count seat := by
        rw [Finset.sum_add_distrib, deadCards_eq_sum]
        simp
    _ = g.deadCards + lost.length := by rw [Multiset.sum_count_eq_card hmem, Multiset.coe_card]

/-- With the turn alone on the stack nobody has a card to lose. -/
theorem toll_of_turn (hf : g.stack.frames = [.turn]) (seat : Nat) :
    g.toll seat = g.deadCardsOf seat := by
  rw [toll, hf]
  simp

/-- The call of the frame on top of the turn that is not about a challenge: it has no loser and no
victim. -/
theorem Opened.calls_eq (ks : List Call) (h : g.Opened m g') (hturn : g.claim? = none)
    (hf : g.stack.frames = [.turn]) :
    losers (⟨g, .press seat m, g'⟩ :: ks) = losers ks ∧
      (⟨g, .press seat m, g'⟩ :: ks).countP (·.isChallenge) = ks.countP (·.isChallenge) ∧
      victims m (⟨g, .press seat m, g'⟩ :: ks) = victims m ks := by
  have hloser : (⟨g, .press seat m, g'⟩ : Call).loser? = none :=
    Call.loser?_eq_none hf fun _ => by simp
  have hchallenge : (⟨g, .press seat m, g'⟩ : Call).isChallenge = false := by
    unfold Call.isChallenge
    split
    next hcause =>
      cases hcause
      exact absurd rfl h.ne_challenge
    next => rfl
  have hgrants : ∀ target, (⟨g, .press seat m, g'⟩ : Call).grantsOver target = false := by
    intro target
    rw [Call.grantsOver, Call.outcome?_eq_none (.inl hturn)]
    rfl
  refine ⟨?_, ?_, ?_⟩
  · rw [losers, List.filterMap_cons, hloser, losers]
  · rw [List.countP_cons, hchallenge]
    rfl
  · unfold victims
    split
    · rfl
    · rw [List.any_cons, hgrants, Bool.false_or]
    · rfl

/-- Nobody challenges while no claim is on the stack. -/
theorem Regular.isChallenge_eq_false (hcall : Regular P k) (hclaim : k.before.claim? = none) :
    k.isChallenge = false := by
  unfold Call.isChallenge
  split
  next seat hcause =>
    rcases hcall.step with heq | hstep
    · rw [heq, bne_self_eq_false]
    · rw [hcause] at hstep
      generalize k.after = after at hstep
      cases hstep with
      | challenge hf =>
        rw [claim?, hf] at hclaim
        cases hcall.sound.shape_of hf with
        | asked hpending => exact absurd hclaim hpending.ownClaimIn_ne_none
      | claim _ _ _ hm => cases hm
      | askTarget _ hlacks => cases hlacks
  next => rfl

/-- The victims of a move are those that it has at once, and those of the calls that decide what it
claims. -/
theorem Opened.count_victims (h : g.Opened m x) (hchain : Chain (·.underWay = true) x ks g')
    (hdone : g'.claim? = none) (other : Nat) : (victims m ks).count other
      = (victims m []).count other + (ks.filterMap (·.victim?)).count other := by
  rcases h.claim with ⟨effect, message, hm, hopen, rfl⟩ | ⟨hm, hclaim⟩
  · have hclaim : (g.claiming message effect).claim?
        = some (.opening g.current message effect) := ownClaimIn_own hopen.ne_block
    obtain ⟨outcome, hdeciding⟩ := hchain.deciding hclaim hdone
    rw [victims_nil hm, hdeciding.victims_eq hm, List.count_nil, Nat.zero_add]
  · obtain ⟨-, -, hquiet⟩ := hchain.unclaimed h.inPlay.variant hclaim
    rw [victims?_of_quiet fun k hk => (hquiet k hk).2, victims_of_effect?_eq_none ks hm,
      List.count_nil, Nat.add_zero]

/-- After a move that claims nothing nobody challenges, and no money moves. -/
theorem Opened.unchallenged (h : g.Opened m x) (hm : m.effect? = none)
    (hchain : Chain (·.underWay = true) x ks g') :
    ks.countP (·.isChallenge) = 0 ∧ x.SameMoney g' := by
  rcases h.claim with ⟨effect, -, hm', -⟩ | ⟨-, hclaim⟩
  · cases hm.symm.trans hm'
  · obtain ⟨-, hmoney, hquiet⟩ := hchain.unclaimed h.inPlay.variant hclaim
    refine ⟨List.countP_eq_zero.2 fun k hk => ?_, hmoney⟩
    rw [(hchain.regular hk).isChallenge_eq_false (hquiet k hk).1]
    exact Bool.false_ne_true

/-- The calls of a turn of a reachable game, from the current player's move up to the next turn,
cost every seat as many cards as it loses challenges, and the target of a coup, or of an
assassination granted while it is alive, one more. Each challenge that is taken in has one loser. A
coup cannot be challenged, and costs its player seven coins. -/
theorem Reachable.losses_accounted (h : Reachable g) (hturn : g.underWay = false)
    (hdata : Move.parse? data = some m) (hpress : g.press seat data = .ok x) (haccepted : x ≠ g)
    (hrun : RunsThrough (·.underWay = true) x inputs g') (hdone : g'.underWay = false)
    (hks : g.calls (.press seat data :: inputs) = ks) :
    (∀ other, g'.deadCardsOf other
      = g.deadCardsOf other + (losers ks).count other + (victims m ks).count other) ∧
    (losers ks).length = ks.countP (·.isChallenge) ∧
    g'.deadCards = g.deadCards + ks.countP (·.isChallenge) + (victims m ks).length ∧
    ∀ target, m = .coup (some target) → ks.countP (·.isChallenge) = 0 ∧
      g'.coinsOf g.current + coupCost = g.coinsOf g.current ∧
      ∀ other ≠ g.current, g'.coinsOf other = g.coinsOf other := by
  have hrest := h.atRest
  have hx : x.AtRest := hrest.feed (i := .press seat data) hpress
  have hf := hrest.frames_of_turn hturn
  have hsound' := (hrun.atRest hx).toSound
  have hf' := hsound'.frames_of_turn hdone
  -- The move is the first call, and the other ones chain the game after it to the next turn.
  obtain ⟨y, hstep, hsound, hcalls, hchain⟩ :=
    hrest.calls_of_press (P := (·.underWay = true)) hdata hpress haccepted
  have hopened := hstep.opened hrest.toSound hturn
  have hchain := hchain.append (hrun.chain hx)
  generalize hlater : y.settleCalls ++ x.calls inputs = later at hchain
  obtain rfl : ks = ⟨g, .press seat m, y⟩ :: later := by
    rw [← hks, calls_cons (i := .press seat data) hpress, feedCalls, hcalls, List.cons_append,
      hlater]
  obtain ⟨hlosers, hchallenges, hvictims⟩ :=
    hopened.calls_eq later (hrest.claim?_of_turn hf) hf
  rw [hlosers, hchallenges, hvictims]
  -- The toll of a seat, its dead cards with the losses that are still to come, is balanced along
  -- the chain, and at a turn no loss is to come.
  have hseat : ∀ other, g'.deadCardsOf other
      = g.deadCardsOf other + (losers later).count other + (victims m later).count other := by
    intro other
    have htoll := hchain.toll_eq hopened.inPlay other
    rw [toll_of_turn hf', hopened.toll, toll_of_turn hf] at htoll
    have hvictims := hopened.count_victims hchain (hsound'.claim?_of_turn hf') other
    omega
  -- So are the challenges without an answer, of which there is none at a turn.
  have hone : (losers later).length = later.countP (·.isChallenge) := by
    have hcount := hchain.openChallenges_add hopened.inPlay.variant
    rw [hopened.openChallenges, openChallenges, hf', Nat.zero_add] at hcount
    simpa [Frame.isReveal] using hcount
  have hseats : g'.players.length = g.players.length := by
    rw [hchain.seats_eq, (hstep.sameTable hrest.toSound).seats]
  refine ⟨hseat, hone, ?_, ?_⟩
  · have htotal := deadCards_of_count (losers later ++ victims m later) hseats
      fun other => by rw [hseat, List.count_append, Nat.add_assoc]
    rw [htotal, List.length_append, hone, Nat.add_assoc]
  · -- A coup makes no claim: its price is all that moves in the turn, and nothing is challenged.
    rintro target rfl
    obtain ⟨hunchallenged, hmoney⟩ := hopened.unchallenged rfl hchain
    obtain ⟨hpaid, hothers⟩ := hstep.money_of_coup
    refine ⟨hunchallenged, ?_, fun other hother => ?_⟩
    · rw [hmoney.coins, hpaid]
    · rw [hmoney.coins, hothers other hother]

/-- Bob challenges Ada, who is an assassin, and loses a card. He lets the assassination pass, and
loses the other one. -/
theorem losses_accounted_assassination :
    ∃ g x g', playOut ["Ada", "Bob"]
        { seed := some 0, startPlayer := some 1, variant := some .classic,
          cardOverrides := [.assassin, .duke] }
        [.press 1 "income", .press 0 "income", .press 1 "income"] = some g ∧
      g.press 0 "assassinate:1" = .ok x ∧ RunsThrough (·.underWay = true) x
        [.press 1 "challenge", .press 0 "reveal:0", .press 1 "lose:0", .press 1 "accept"] g' ∧
      g'.deadCardsOf 0 = g.deadCardsOf 0 ∧ g'.deadCardsOf 1 = g.deadCardsOf 1 + 2 ∧
      g'.deadCards = g.deadCards + 2 := by
  have hrun : ((playOut ["Ada", "Bob"]
      { seed := some 0, startPlayer := some 1, variant := some .classic,
        cardOverrides := [.assassin, .duke] }
      [.press 1 "income", .press 0 "income", .press 1 "income"]).bind
        fun g => (g.runThrough? (fun _ => true) [.press 0 "assassinate:1"]).bind fun x =>
          (x.runThrough? underWay [.press 1 "challenge", .press 0 "reveal:0", .press 1 "lose:0",
            .press 1 "accept"]).map fun g' =>
              (fun ks : List Call => ((g.underWay, x.underWay, g'.underWay), losers ks,
                victims (.assassinate (some 1)) ks, ks.countP (·.isChallenge)))
                  (g.calls [.press 0 "assassinate:1", .press 1 "challenge", .press 0 "reveal:0",
                    .press 1 "lose:0", .press 1 "accept"]))
      = some ((false, true, false), [1], [1], 1) := by
    decide +kernel
  obtain ⟨g, hg, hrun⟩ := Option.bind_eq_some_iff.1 hrun
  obtain ⟨x, hx, hrun⟩ := Option.bind_eq_some_iff.1 hrun
  obtain ⟨g', hg', hrun⟩ := Option.map_eq_some_iff.1 hrun
  simp only [Prod.mk.injEq] at hrun
  obtain ⟨⟨hturn, hasked, hdone⟩, hlosers, hvictims, hone⟩ := hrun
  have hpress : g.press 0 "assassinate:1" = .ok x := feed_of_runThrough? hx
  have haccepted : x ≠ g := by
    rintro rfl
    cases hturn.symm.trans hasked
  have hdata : Move.parse? "assassinate:1" = some (.assassinate (some 1)) := by decide
  obtain ⟨hseat, -, hall, -⟩ := (reachable_of_playOut hg).losses_accounted hturn hdata hpress
    haccepted (runsThrough_of_runThrough? hg') hdone rfl
  rw [hone, hvictims] at hall
  simp only [hlosers, hvictims] at hseat
  exact ⟨g, x, g', hg, hpress, runsThrough_of_runThrough? hg', hseat 0, hseat 1, hall⟩

end CoupTable.Game
