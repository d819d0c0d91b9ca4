import CoupTable.Proofs.Choices
import CoupTable.Proofs.Outcomes

/-!
# What the rules allow

The moves on the list of a game are the ones that it heeds. Each of them changes something on the
board, with the exception of an acceptance, which may only be noted. Any other press is ignored,
again but for acceptances, and but for moves against somebody that do not say against whom: these
lead to a question for those who could afford them.
-/

namespace CoupTable

/-- The place of the variant that is found at a place. -/
theorem Variant.index_of_ofIndex? {i : Nat} {v : Variant} (h : ofIndex? i = some v) :
    v.index = i := by
  obtain ⟨hlt, hget⟩ := List.getElem?_eq_some_iff.1 h
  match i, hlt with
  | 0, _ | 1, _ | 2, _ | 3, _ =>
    rw [← hget]
    rfl

namespace Game

variable {g g' x : Game} {c : Claim} {r : Reveal} {f : Frame} {below : List Frame}
  {seat choice : Nat} {p : Player} {m : Move} {data : String} {effect : Effect}

/-! ## Steps are on the list -/

/-- Whoever can open a turn with a claim has what the move takes. -/
theorem CanOpen.canTake (h : g.CanOpen effect) (hcoins : g.coinsOf g.current < forcedCoupCoins)
    (hm : m.effect? = some effect) : g.CanTake m := by
  cases m with
  | foreignAid | tax | exchange => exact hcoins
  | embezzle =>
    cases hm
    exact ⟨hcoins, h.treasury rfl⟩
  | assassinate target | steal target | inspect target =>
    cases target with
    | none => cases hm
    | some target =>
      cases hm
      have htarget := h.target target rfl
      first
      | exact ⟨hcoins, htarget⟩
      | exact ⟨hcoins, h.coins target rfl, htarget⟩
      | exact ⟨hcoins, h.inquisitor target rfl, htarget⟩
  | _ => cases hm

/-- What answers a challenge is on the list. -/
theorem Answer.mem_movesFor (h : Answer g r c below choice g')
    (hp : g.players[r.challenged]? = some p) :
    (r.challenged, .reveal choice) ∈ g.movesFor (.reveal r) := by
  refine (mem_revealMoves hp).2 ⟨rfl, ?_⟩
  cases h with
  | proven hp' hplain hcard hlives | caught hp' hplain hcard hlives =>
    cases hp.symm.trans hp'
    rw [if_neg (by simp [hplain])]
    exact ⟨choice, Player.hasLiving_iff.2 ⟨_, hcard, hlives⟩, rfl⟩
  | shown hp' hinverted hclan =>
    cases hp.symm.trans hp'
    rw [if_pos hinverted]
    exact .inr ⟨rfl, hclan⟩
  | conceded hinverted =>
    rw [if_pos hinverted]
    exact .inl rfl

/-- A press that is a step is on the list, unless it accepts a claim, or the current player is asked
for a target. -/
theorem Step.mem_moves (h : g.AtRest) (hstep : Step g (.press seat m) g')
    (hover : g.isOver = false) (hseat : seat < g.players.length) :
    (seat, m) ∈ g.moves ∨ (m = .accept ∧ ∃ c below, g.stack.frames = .claim c :: below) ∨
      (m.lacksTarget = true ∧ seat = g.current ∧ g.underWay = false) := by
  -- At the beginning of a turn it is enough that the current player has what the move takes.
  have hturn : ∀ {below}, g.stack.frames = .turn :: below → g.CanTake m →
      (g.current, m) ∈ g.moves := by
    intro below hf hcan
    rw [moves_eq hover hf]
    exact List.mem_map_of_mem (mem_turnMoves.2 hcan)
  cases hstep with
  | @deal v _ _ _ _ _ hf hv =>
    -- Anybody may choose the variant, and each variant is listed for each seat.
    left
    rw [moves_eq hover hf]
    refine List.mem_flatMap.2 ⟨seat, List.mem_range.2 hseat, List.mem_map.2 ⟨v, ?_, ?_⟩⟩
    · exact List.mem_of_getElem? hv
    · rw [Variant.index_of_ofIndex? hv]
  | income hf hp hc => exact .inl (hturn hf (by rwa [CanTake, coinsOf_eq hp]))
  | coup hf hp _ hc ht => exact .inl (hturn hf ⟨by rwa [coinsOf_eq hp], ht⟩)
  | convert hf hr hp hc ht hcost =>
    have hcoins := coinsOf_eq hp
    exact .inl (hturn hf ⟨hcoins.symm ▸ hc, hr, ht, hcoins.symm ▸ hcost⟩)
  | claim hf hc hopen hm => exact .inl (hturn hf (hopen.canTake hc hm))
  -- The two kinds of presses that may be taken in without being listed.
  | askTarget hf hm => exact .inr (.inr ⟨hm, rfl, underWay_of_turn hf⟩)
  | accept hf | acceptLast hf => exact .inr (.inl ⟨rfl, _, _, hf⟩)
  -- Everybody else answers the frame on top, and its list of moves asks for what the step does.
  | challenge hf hc hne hlives =>
    left
    rw [moves_eq hover hf]
    exact mem_movesFor_claim.2 ⟨hne, hlives, .inr (.inl ⟨rfl, hc⟩)⟩
  | block hf hc hne hlives hblock =>
    left
    rw [moves_eq hover hf]
    exact mem_movesFor_claim.2 ⟨hne, hlives, .inr (.inr ⟨rfl, hc, hblock⟩)⟩
  | answer hf hanswer =>
    left
    obtain ⟨-, p, -, hp, -⟩ := h.of_challenge hf
    rw [moves_eq hover hf]
    exact hanswer.mem_movesFor hp
  | lose hf hp hlives =>
    left
    rw [moves_eq hover hf]
    exact mem_slotMoves.2 ⟨rfl, _, (livesAt_eq hp).trans hlives, rfl⟩
  | keep hf hc | keepLast hf hc =>
    left
    rw [moves_eq hover hf]
    exact mem_movesFor_exchange.2 ⟨rfl, _, (List.getElem?_eq_some_iff.1 hc).1, rfl⟩
  | showCard hf hshown hlives =>
    left
    rw [moves_eq hover hf]
    exact mem_interrogationMoves.2 (.inl ⟨hshown, rfl, _, hlives, rfl⟩)
  | allow hf hshown | change hf hshown =>
    left
    rw [moves_eq hover hf]
    exact mem_interrogationMoves.2 (.inr ⟨by simp [hshown], rfl, _, rfl⟩)

/-! ## Moves without a target -/

/-- What it takes to be asked for the target of a move that does not say against whom. -/
def CanAim (g : Game) : Move → Prop
  | .coup none => coupCost ≤ g.coinsOf g.current
  | .assassinate none => g.coinsOf g.current < forcedCoupCoins ∧
      assassinationCost ≤ g.coinsOf g.current
  | .steal none => g.coinsOf g.current < forcedCoupCoins
  | .convert none => g.coinsOf g.current < forcedCoupCoins ∧ g.isReformation = true ∧
      0 < g.coinsOf g.current
  | .inspect none => g.coinsOf g.current < forcedCoupCoins ∧ g.usesInquisitor = true
  | _ => False

/-- The game once the current player was asked for the target of a move. -/
def aiming (g : Game) : Move → Game
  | .coup none => g.askTarget g.targets Wording.whomToCoup .coup
  | .assassinate none => g.askTarget g.targets Wording.whomToAssassinate .assassinate
  | .steal none => g.askTarget g.targets Wording.whomToRob .steal
  | .convert none => g.askTarget g.livingSeats Wording.whomToConvert .convert
  | .inspect none => g.askTarget g.targets Wording.whomToInspect .inspect
  | _ => g

/-- Only for a move without a target the player can be asked for one. -/
theorem CanAim.lacksTarget (h : g.CanAim m) : m.lacksTarget = true := by
  cases m with
  | coup target | assassinate target | steal target | convert target | inspect target =>
    cases target with
    | none => rfl
    | some target => exact h.elim
  | _ => exact h.elim

/-- The question for a target is one message to everyone. -/
theorem CanAim.aiming_eq (h : g.CanAim m) :
    ∃ text buttons, g.aiming m = g.said [⟨.everyone, text, buttons⟩] := by
  have hm := h.lacksTarget
  unfold Move.lacksTarget at hm
  split at hm
  case h_6 => cases hm
  all_goals exact ⟨_, _, rfl⟩

/-- A move without a target leads to the question for one if the current player has what it takes.
-/
theorem turnInput_of_lacksTarget (hp : g.players[g.current]? = some p)
    (hm : m.lacksTarget = true) :
    (g.CanAim m → g.turnInput g.current m = .ok (g.aiming m)) ∧
      (¬ g.CanAim m → g.turnInput g.current m = .ok g) := by
  have hcoins := coinsOf_eq hp
  unfold turnInput
  rw [if_neg (by simp), player_eq hp, ok_bind]
  cases m with
  | coup target | assassinate target | steal target | convert target | inspect target =>
    cases target with
    | none =>
      simp only [CanAim, aiming, coup, claimAssassination, claimSteal, convert, claimInspection,
        withTarget, hcoins, pure_eq_ok]
      grind
    | some target => cases hm
  | _ => cases hm

/-! ## Presses that are not on the list -/

/-- A press that stands for no move is ignored. -/
theorem press_of_parse?_eq_none (hdata : Move.parse? data = none) (seat : Nat) :
    g.press seat data = .ok g := by
  unfold press
  rw [hdata]
  split <;> rfl

/-- At the beginning of a turn a move without its target leads to the question for one if the
current player has what it takes, and is ignored otherwise. -/
theorem AtRest.press_of_lacksTarget (h : g.AtRest) (hover : g.isOver = false)
    (hdata : Move.parse? data = some m) (hm : m.lacksTarget = true) (hturn : g.underWay = false) :
    (g.CanAim m → g.press g.current data = .ok (g.aiming m)) ∧
      (¬ g.CanAim m → g.press g.current data = .ok g) := by
  obtain ⟨p, hp⟩ := h.exists_current
  obtain ⟨hasks, hstays⟩ := turnInput_of_lacksTarget hp hm
  have hturned : g.dispatch g.current m = g.turnInput g.current m := by
    unfold dispatch Stack.top?
    rw [h.frames_of_turn hturn]
    rfl
  rw [press_eq h.current hover hdata, hturned]
  refine ⟨fun hcan => ?_, fun hcan => ?_⟩
  · obtain ⟨text, buttons, haim⟩ := hcan.aiming_eq
    rw [hasks hcan, ok_bind, haim, settle_eq]
    exact h.still
  · rw [hstays hcan, ok_bind, settle_eq h.still]

/-- A press that is not on the list is ignored, but for an acceptance of somebody who has no say,
which is noted, and for a move for which the current player can be asked for a target. -/
theorem AtRest.press_of_not_mem (h : g.AtRest) (hover : g.isOver = false)
    (hdata : Move.parse? data = some m) (hnot : (seat, m) ∉ g.moves) :
    g.press seat data = .ok g ∨
    (∃ c below, m = .accept ∧ g.stack.frames = .claim c :: below ∧ seat ∉ g.quorum c ∧
      g.press seat data = .ok { g with stack := ⟨.claim (c.acceptedBy [seat]) :: below⟩ }) ∨
    (seat = g.current ∧ g.underWay = false ∧ g.CanAim m) := by
  by_cases hseat : seat < g.players.length
  · obtain ⟨x, hdispatch, ⟨rfl, -⟩ | hstep⟩ := dispatch_yields h seat m
    · left
      rw [press_eq hseat hover hdata, hdispatch, ok_bind, settle_eq h.still]
    · rcases hstep.mem_moves h hover hseat with hmem | ⟨rfl, c, below, hf⟩ | ⟨hm, rfl, hturn⟩
      · exact absurd hmem hnot
      · -- Whoever has no say about the claim does not make the acceptances complete.
        have hout : seat ∉ g.quorum c := by
          intro hmem
          obtain ⟨hne, hlives, -⟩ := mem_quorum.1 hmem
          rw [moves_eq hover hf] at hnot
          exact hnot (mem_movesFor_claim.2 ⟨hne, hlives, .inl rfl⟩)
        have hwaits : g.isAccepted (c.acceptedBy [seat]) = false := by
          by_contra haccepted
          rw [Bool.not_eq_false, isAccepted_acceptedBy] at haccepted
          have hall : g.isAccepted c = true := by
            rw [isAccepted, List.all_eq_true]
            intro other hother
            rcases haccepted other hother with hdone | hself
            · exact hdone
            · exact absurd (List.mem_singleton.1 hself ▸ hother) hout
          cases (h.waiting _ _ hf).2.symm.trans hall
        refine .inr (.inl ⟨c, below, rfl, hf, hout, ?_⟩)
        rw [h.press_accept hf hdata hseat, hwaits, if_neg Bool.false_ne_true]
      · by_cases hcan : g.CanAim m
        · exact .inr (.inr ⟨rfl, hturn, hcan⟩)
        · exact .inl ((h.press_of_lacksTarget hover hdata hm hturn).2 hcan)
  · exact .inl (press_eq_of_le (Nat.not_lt.1 hseat) data)

/-! ## Presses on the list -/

/-- Everybody has the same cards and coins, and the draw pile, the stack, the treasury, the turn and
the variant are the same. -/
structure SameBoard (g g' : Game) : Prop where
  /-- The players are the same. -/
  players : g'.players = g.players
  /-- The draw pile is the same. -/
  deck : g'.deck = g.deck
  /-- The stack is the same. -/
  stack : g'.stack = g.stack
  /-- The treasury is the same. -/
  treasury : g'.treasury = g.treasury
  /-- It is the same player's turn. -/
  current : g'.current = g.current
  /-- The variant is the same. -/
  variant : g'.variant = g.variant

/-- A frame that goes on by itself, and after which nothing stirs, leaves a stack of the same
weight. -/
theorem Step.weight_eq_of_still (hstep : Step g .idle g') (hstill : g'.stirred = false) :
    g'.weight = g.weight := by
  cases hstep with
  | pass | finish | askSomebody => rfl
  | ask hf | showOnly hf => simp [weight, hf, Frame.weight]
  | unopposed _ _ hgrant => cases (hgrant.stirred_eq rfl).symm.trans hstill
  | answerLast _ _ _ _ hanswer => cases hanswer.stirred_eq.symm.trans hstill
  | dropDead | loseAll => cases hstill

/-- Frames that go on by themselves do not make the stack heavier. -/
theorem Settles.weight_le (hsettles : Settles g g') (h : g.Sound) : g'.weight ≤ g.weight := by
  induction hsettles with
  | rest => exact Nat.le_refl _
  | @go g g₁ g' hstirred hidle hsettles ih =>
    obtain ⟨hidled, hsound⟩ := h.idled hstirred hidle
    refine Nat.le_trans (ih hsound) ?_
    cases hstirred₁ : g₁.stirred with
    | true => exact Nat.le_of_lt (hidled.lighter hstirred₁)
    | false => exact Nat.le_of_eq (hidled.step.weight_eq_of_still hstirred₁)

/-- Once the stack is lighter the board is not the same. -/
theorem Settles.not_sameBoard_of_weight (hsettles : Settles x g') (h : x.Sound)
    (hlight : x.weight < g.weight) : ¬ g.SameBoard g' := by
  intro hsame
  have hle := hsettles.weight_le h
  have hweight : g'.weight = g.weight := by rw [weight, weight, hsame.stack]
  omega

/-- An exchange, or an interrogation in which a card was shown, stays on the stack as it is when the
game settles. -/
theorem Settles.stack_eq (hsettles : Settles x g') (h : x.Sound) (hf : x.stack.frames = f :: below)
    (hasks : (∃ e, f = .exchange e) ∨ ∃ i slot, f = .interrogation i ∧ i.shown = some slot) :
    g'.stack = x.stack := by
  obtain ⟨-, rfl⟩ | ⟨-, g₁, hidled, -, hsettles⟩ := hsettles.split h
  · rfl
  · have hstep := hidled.step
    cases hstep with
    | askSomebody =>
      cases hsettles.eq_of_still rfl
      rfl
    | showOnly hf' hshown =>
      cases hf.symm.trans hf'
      rcases hasks with ⟨_, hf⟩ | ⟨_, _, hf, hsome⟩
      · cases hf
      · cases hf
        cases hshown.symm.trans hsome
    | pass hf' | finish hf' | unopposed hf' | ask hf' | answerLast hf' | dropDead hf'
    | loseAll hf' =>
      cases hf.symm.trans hf'
      rcases hasks with ⟨_, hf⟩ | ⟨_, _, hf, -⟩ <;> cases hf

/-- An answer leaves no claim on the frames below that could be challenged. -/
theorem Answer.not_mem_openTails (h : Answer g r c below choice g') :
    below ∉ openTails g'.stack.frames := by
  cases h with
  | proven | shown | conceded => simpa [openTails, Frame.isOpen] using not_mem_openTails_self
  | caught => exact not_mem_openTails_self

/-- A claim that is challenged is not as it was when the game has settled: it waits for the answer,
or cannot be challenged any more. -/
theorem Settles.not_sameBoard_of_reveal (hsettles : Settles x g') (h : x.Sound)
    (hf : g.stack.frames = .claim c :: below) (hopen : c.challengeable = true) {c' : Claim}
    (hx : x.stack.frames = .reveal r :: .claim c' :: below) : ¬ g.SameBoard g' := by
  intro hsame
  obtain ⟨-, rfl⟩ | ⟨-, g₁, hidled, hsound, hsettles⟩ := hsettles.split h
  · rw [hsame.stack, hf] at hx
    cases hx
  · obtain ⟨-, p, -, hp, -⟩ := h.of_challenge hx
    rcases hidled.step.of_reveal h.hush hx hp with ⟨-, venue, rfl⟩ | ⟨choice, hanswer, -⟩
    · cases hsettles.eq_of_still rfl
      have hframes : x.stack.frames = g.stack.frames := congrArg (·.frames) hsame.stack
      rw [hx, hf] at hframes
      cases hframes
    · -- The challenge is answered at once. The claim was open to challenges before.
      refine hanswer.not_mem_openTails (hsettles.openTails_subset hsound ?_)
      rw [hsame.stack, hf]
      exact mem_openTails.2 ⟨[], c, rfl, hopen⟩

/-- A claim that is made lies on the stack when the game has settled. -/
theorem not_sameBoard_of_declared (hsettle : x.settle = .ok g') (hstirred : x.stirred = true)
    (hx : x.stack.frames = .claim c :: below) (hquorum : x.quorum c ≠ [])
    (hdepth : below.length = g.stack.depth) : ¬ g.SameBoard g' := by
  intro hsame
  rw [settle_of_quorum hstirred hx hquorum] at hsettle
  split at hsettle
  next =>
    cases hsettle
    have hlen := congrArg (·.depth) hsame.stack
    simp only [asked, Stack.depth, List.length_cons] at hlen hdepth
    omega
  next => cases hsettle

/-- A move on the list that is no acceptance changes something on the board. -/
theorem Step.not_sameBoard (h : g.AtRest) (hgoes : g.stack.frames = [.turn] → g.isFinished = false)
    (hstep : Step g (.press seat m) x) (hmem : (seat, m) ∈ g.moves) (haccept : m ≠ .accept)
    (hsettle : x.settle = .ok g') : ¬ g.SameBoard g' := by
  have hstep' := hstep
  obtain ⟨hsound, hsettles⟩ := hstep.settles h (isOver_of_mem_moves hmem) hsettle
  -- A move that makes no claim costs or earns what it does at once: no money moves when the game
  -- settles after it.
  have hmoney : ∀ {below}, g.stack.frames = .turn :: below → m.effect? = none →
      x.SameMoney g' := by
    intro below hf hm
    have hopened := hstep'.opened h.toSound (underWay_of_turn hf)
    exact (hopened.unchallenged hm (settle_chain hsound hsettle)).2
  cases hstep with
  | deal hf _ hdeal =>
    -- The variant is chosen now, and was not.
    intro hsame
    obtain ⟨built, ms', -, rfl⟩ := h.of_deal hf hdeal
    cases hsettles.eq_of_still h.still
    cases hsame.variant.trans (h.shape_of hf).variant_eq_none
  -- After an income, a coup or a conversion somebody's coins or the treasury's are not the same.
  | @income p _ _ hf hp =>
    intro hsame
    have hcoins := ((hmoney hf rfl).coins g.current).trans (coinsOf_of_set hp rfl g.current)
    rw [coinsOf, hsame.players, ← coinsOf, if_pos rfl, coinsOf_eq hp] at hcoins
    exact Nat.succ_ne_self _ hcoins.symm
  | coup hf =>
    intro hsame
    have hcoins := (hmoney hf rfl).coins g.current
    have hpaid := hstep'.money_of_coup.1
    rw [coinsOf, hsame.players, ← coinsOf] at hcoins
    rw [← hcoins] at hpaid
    exact absurd hpaid (by simp [coupCost])
  | convert hf =>
    intro hsame
    have htreasury := (hmoney hf rfl).treasury
    rw [hsame.treasury] at htreasury
    simp only [conversionCost] at htreasury
    split at htreasury <;> omega
  | claim hf =>
    -- Somebody has a say about a claim that is made, so that it stays on the stack.
    obtain ⟨_, -, -, -, hquorum⟩ := hstep'.declared h hgoes rfl rfl
    exact not_sameBoard_of_declared hsettle rfl rfl hquorum rfl
  | askTarget hf hm => cases (canTake_of_mem_moves hf hmem).2.hasTarget.symm.trans hm
  | accept | acceptLast => exact absurd rfl haccept
  | challenge hf hopen => exact hsettles.not_sameBoard_of_reveal hsound hf hopen rfl
  | block hf =>
    obtain ⟨_, -, -, -, hquorum⟩ := hstep'.declared h hgoes rfl (by simp [Stack.depth, hf])
    exact not_sameBoard_of_declared hsettle rfl rfl hquorum (by simp [Stack.depth, hf])
  -- An answer, a loss and the end of an exchange or of an interrogation make the stack lighter.
  | answer hf hanswer => exact hsettles.not_sameBoard_of_weight hsound (hanswer.weight_lt hf)
  | lose hf | keepLast hf | allow hf | change hf =>
    refine hsettles.not_sameBoard_of_weight hsound ?_
    simp [weight, hf, Frame.weight]
  -- What is left changes the frame on top and leaves it there: one card more is kept, or one is
  -- shown.
  | keep hf =>
    intro hsame
    have hstack := hsettles.stack_eq hsound rfl (.inl ⟨_, rfl⟩)
    have hframes := congrArg (·.frames) (hsame.stack.symm.trans hstack)
    rw [hf] at hframes
    injection hframes with hframe
    injection hframe with hsame
    exact absurd (congrArg (·.hand.length) hsame) (by simp)
  | showCard hf hshown =>
    intro hsame
    have hstack := hsettles.stack_eq hsound rfl (.inr ⟨_, _, rfl, rfl⟩)
    have hframes := congrArg (·.frames) (hsame.stack.symm.trans hstack)
    rw [hf] at hframes
    injection hframes with hframe
    injection hframe with hsame
    cases hshown.symm.trans (congrArg (·.shown) hsame)

/-! ## The result -/

/-- Whoever is dead can do nothing once the cards are dealt, but have an acceptance noted. -/
theorem AtRest.press_of_dead (h : g.AtRest) (hover : g.isOver = false) (hv : g.variant ≠ none)
    (hdead : g.isAlive seat = false) (data : String) :
    g.press seat data = .ok g ∨
      ∃ c below, Move.parse? data = some .accept ∧ g.stack.frames = .claim c :: below ∧
        seat ∉ g.quorum c ∧
        g.press seat data = .ok { g with stack := ⟨.claim (c.acceptedBy [seat]) :: below⟩ } := by
  cases hdata : Move.parse? data with
  | none => exact .inl (press_of_parse?_eq_none hdata seat)
  | some m =>
    have hnot : (seat, m) ∉ g.moves := by
      intro hmem
      rcases h.isAlive_of_mem_moves hmem with hlives | ⟨hnone, -⟩
      · cases hdead.symm.trans hlives
      · exact hv hnone
    rcases h.press_of_not_mem hover hdata hnot with
      hstay | ⟨c, below, rfl, hf, hout, hnoted⟩ | ⟨rfl, hturn, -⟩
    · exact .inl hstay
    · exact .inr ⟨c, below, rfl, hf, hout, hnoted⟩
    · cases hdead.symm.trans (h.awake (h.frames_of_turn hturn))

/-- In a reachable game that is not over the moves on the list are heeded: a move that is no
acceptance changes the board, unless the alarm of a claim would ring after the end of the clock, and
an acceptance by somebody who could oppose the claim, and has not accepted it yet, is noted, or the
claim goes through. Any other press is ignored, with two exceptions: an acceptance of somebody who
could not oppose the claim may be noted, and the current player is asked for a target, and no more,
for a move that lacks one if the player has what it takes. Dead players can have acceptances noted
at most. -/
theorem Reachable.heeds_listed (h : Reachable g) (hover : g.isOver = false) (seat : Nat)
    (data : String) :
    (∀ m, Move.parse? data = some m → (seat, m) ∈ g.moves → m ≠ .accept →
      (g.press seat data = .error .clockOverflow ∧ clockEnd ≤ g.venue.alarms.now + g.waitTime) ∨
        ∃ g', g.press seat data = .ok g' ∧ ¬ g.SameBoard g') ∧
    (∀ c below, Move.parse? data = some .accept → g.stack.frames = .claim c :: below →
      seat ∈ g.quorum c → c.accepted.contains seat = false →
      (seat, .accept) ∈ g.moves ∧
      ∃ g', g.press seat data = .ok g' ∧
        (g' = { g with stack :=
            ⟨.claim { c with accepted := c.accepted.insert seat } :: below⟩ } ∨
          (g.resolve c >>= settle) = .ok g')) ∧
    (Move.parse? data = none ∨ g.players.length ≤ seat → g.press seat data = .ok g) ∧
    (∀ m, Move.parse? data = some m → (seat, m) ∉ g.moves →
      g.press seat data = .ok g ∨
      (∃ c below, m = .accept ∧ g.stack.frames = .claim c :: below ∧ seat ∉ g.quorum c ∧
        g.press seat data = .ok { g with stack :=
          ⟨.claim { c with accepted := c.accepted.insert seat } :: below⟩ }) ∨
      (seat = g.current ∧ g.underWay = false ∧ g.CanAim m)) ∧
    (∀ m, Move.parse? data = some m → seat = g.current → g.underWay = false → g.CanAim m →
      ∃ text buttons, g.press seat data = .ok (g.said [⟨.everyone, text, buttons⟩])) ∧
    (g.variant ≠ none → g.isAlive seat = false →
      g.press seat data = .ok g ∨
      ∃ c below, Move.parse? data = some .accept ∧ g.stack.frames = .claim c :: below ∧
        seat ∉ g.quorum c ∧
        g.press seat data = .ok { g with stack :=
          ⟨.claim { c with accepted := c.accepted.insert seat } :: below⟩ }) := by
  have hrest := h.atRest
  refine ⟨fun m hdata hmem haccept => ?_, fun c below hdata hf hmem hnew => ?_, ?_, ?_, ?_, ?_⟩
  · -- A listed move is a step, after which the game settles, unless the clock ends.
    obtain ⟨x, -, hstep, -, hpress⟩ := hrest.press_of_mem_moves hmem hdata
    have hgoes : g.stack.frames = [.turn] → g.isFinished = false := fun hf =>
      (h.isFinished_eq hf).trans hover
    have hsettles := hstep.settle_rests hrest hover
    rw [hpress]
    cases hsettle : x.settle with
    | ok g' => exact .inr ⟨g', rfl, hstep.not_sameBoard hrest hgoes hmem haccept hsettle⟩
    | error fault =>
      rw [hsettle] at hsettles
      obtain ⟨rfl, hlate⟩ := hsettles
      exact .inl ⟨rfl, hlate⟩
  · -- An acceptance is the last one, and the claim goes through, or it is noted.
    obtain ⟨hne, hlives, -⟩ := mem_quorum.1 hmem
    refine ⟨?_, ?_⟩
    · rw [moves_eq hover hf]
      exact mem_movesFor_claim.2 ⟨hne, hlives, .inl rfl⟩
    · rw [hrest.press_accept hf hdata (lt_of_isAlive hlives)]
      split
      next =>
        obtain ⟨y, hy, -⟩ := hrest.resolve_settles hf h.now_lt
        exact ⟨y, hy, .inr hy⟩
      next => exact ⟨_, rfl, .inl rfl⟩
  · -- Without a move or without a player nothing reads the press.
    rintro (hdata | hseat)
    · exact press_of_parse?_eq_none hdata seat
    · exact press_eq_of_le hseat data
  · exact fun m hdata hnot => hrest.press_of_not_mem hover hdata hnot
  · -- The question for a target is all that comes of a move without one.
    rintro m hdata rfl hturn hcan
    obtain ⟨text, buttons, haim⟩ := hcan.aiming_eq
    refine ⟨text, buttons, ?_⟩
    rw [(hrest.press_of_lacksTarget hover hdata hcan.lacksTarget hturn).1 hcan, haim]
  · exact fun hv hdead => hrest.press_of_dead hover hv hdead data

/-- Ada may take tax, which changes the board, and Bob may not. For a steal that lacks its target
Ada is asked whom to rob. Once Ada takes tax, Bob's acceptance is noted, since Cid has to accept as
well. -/
theorem heeds_listed_tax : ∃ g g' x,
    playOut ["Ada", "Bob", "Cid"]
        { seed := some 0, startPlayer := some 0, variant := some .classic } [] = some g ∧
      g.press 0 "tax" = .ok g' ∧ ¬ g.SameBoard g' ∧ g.press 1 "tax" = .ok g ∧
      (∃ text buttons, g.press 0 "steal" = .ok (g.said [⟨.everyone, text, buttons⟩])) ∧
      playOut ["Ada", "Bob", "Cid"]
          { seed := some 0, startPlayer := some 0, variant := some .classic }
          [.press 0 "tax"] = some x ∧
      x.press 1 "accept" = .ok { x with stack := ⟨[.claim { Claim.opening 0 (Wording.tax "Ada") .tax
        with accepted := ⟨2⟩, alarm := some 0 }, .turn]⟩ } := by
  have hrun : (playOut ["Ada", "Bob", "Cid"]
      { seed := some 0, startPlayer := some 0, variant := some .classic } []).map (fun g =>
        ((g.isOver, g.underWay, g.current, g.coinsOf 0), decide ((0, .tax) ∈ g.moves),
          decide ((1, .tax) ∈ g.moves), decide (g.venue.alarms.now + g.waitTime < clockEnd)))
      = some ((false, false, 0, 2), true, false, true) := by
    decide +kernel
  have hrun' : (playOut ["Ada", "Bob", "Cid"]
      { seed := some 0, startPlayer := some 0, variant := some .classic }
      [.press 0 "tax"]).map (fun x =>
        ((x.isOver, x.stack.frames),
          (x.quorum { Claim.opening 0 (Wording.tax "Ada") .tax with alarm := some 0 },
            (x.resolve { Claim.opening 0 (Wording.tax "Ada") .tax with alarm := some 0 }
              >>= settle).toOption.map (·.stack.depth)),
          (x.press 1 "accept").toOption.map (·.stack.depth)))
      = some ((false, [.claim { Claim.opening 0 (Wording.tax "Ada") .tax with
          alarm := some 0 }, .turn]), ([1, 2], some 1), some 2) := by
    decide +kernel
  have htax : Move.parse? "tax" = some .tax := by decide +kernel
  have hsteal : Move.parse? "steal" = some (.steal none) := by decide +kernel
  have haccept : Move.parse? "accept" = some .accept := by decide +kernel
  obtain ⟨g, hg, hrun⟩ := Option.map_eq_some_iff.1 hrun
  simp only [Prod.mk.injEq, decide_eq_true_eq, decide_eq_false_iff_not] at hrun
  obtain ⟨⟨hover, hturn, hcurrent, hcoins⟩, hlisted, hunlisted, hclock⟩ := hrun
  have hg' := reachable_of_playOut hg
  obtain ⟨x, hx, hrun'⟩ := Option.map_eq_some_iff.1 hrun'
  simp only [Prod.mk.injEq] at hrun'
  obtain ⟨⟨hover', hf⟩, ⟨hquorum, hresolved⟩, hdepth⟩ := hrun'
  obtain ⟨htakes, -⟩ := hg'.heeds_listed hover 0 "tax"
  obtain ⟨-, -, -, hignored, -⟩ := hg'.heeds_listed hover 1 "tax"
  obtain ⟨-, -, -, -, hasked, -⟩ := hg'.heeds_listed hover 0 "steal"
  obtain ⟨-, hnoted, -⟩ := (reachable_of_playOut hx).heeds_listed hover' 1 "accept"
  have hstay : g.press 1 "tax" = .ok g := by
    rcases hignored _ htax hunlisted with hstay | ⟨_, _, hm, -⟩ | ⟨hseat, -⟩
    · exact hstay
    · cases hm
    · rw [hcurrent] at hseat
      cases hseat
  have hcan : g.CanAim (.steal none) := by
    rw [CanAim, hcurrent, hcoins]
    decide
  obtain ⟨-, y, hy, hend⟩ := hnoted _ _ haccept hf (by rw [hquorum]; decide) (by decide)
  rcases htakes _ htax hlisted nofun with ⟨-, hlate⟩ | ⟨g', hpress, hchanged⟩
  · exact absurd hclock (Nat.not_lt.2 hlate)
  · refine ⟨g, g', x, hg, hpress, hchanged, hstay, hasked _ hsteal hcurrent.symm hturn hcan, hx, ?_⟩
    rcases hend with rfl | hend
    · exact hy
    · -- The claim would no longer be on the stack.
      rw [hy] at hdepth
      rw [hend] at hresolved
      cases hresolved.symm.trans hdepth

end Game

end CoupTable
