import Mathlib.Algebra.Order.BigOperators.Group.Finset
import CoupTable.Proofs.Losses
import CoupTable.Proofs.Resting

/-!
# What the coins of a table come to

The wealth of a table is all its coins with those of the treasury. A theft, a change of sides and
an embezzlement move coins about; only an income, foreign aid and a tax bring new ones, and they
bring three at most. What a claim brings is counted when it is made (`stake`), so that the wealth
together with the stake grows by at most three for every press and every alarm, and not at all when
a frame goes on by itself (`Step.wealth_le`). `Funded` is what is known of the coins of a claim from
the time it is made: its player has too few to be forced to a coup, and an assassin has the price.
-/

namespace CoupTable

/-- The coins that a claim to the effect brings to the table when it goes through. -/
def Effect.minted : Effect → Nat
  | foreignAid => 2
  | tax => 3
  | embezzle | assassinate _ | exchange | steal _ | inspect _ | block => 0

/-- Whether a claim to the effect is about coins that are on the table already. -/
def Effect.isTransfer : Effect → Bool
  | steal _ | embezzle => true
  | foreignAid | tax | assassinate _ | exchange | inspect _ | block => false

namespace Game

/-- The most coins that a player has in a game without a treasury. -/
def purseLimit : Nat := 12

/-- All coins on the table, those in the treasury included. -/
def wealth (g : Game) : Nat := (g.players.map (·.coins)).sum + g.treasury

/-- What the claim before the table brings if it goes through. -/
def stake (g : Game) : Nat := (g.claim?.map (·.effect.minted)).getD 0

/-- How many presses and alarms the frames are called for while some inputs come in. -/
def events (g : Game) (inputs : List Input) : Nat := (g.calls inputs).countP (!·.isIdle)

/-- The treasury is empty, and nobody has more than the limit. -/
structure Modest (g : Game) : Prop where
  /-- The treasury is empty. -/
  treasury : g.treasury = 0
  /-- Nobody has more than the limit. -/
  coins : ∀ seat, g.coinsOf seat ≤ purseLimit

/-- What is known of the coins while a claim is before the table, and in a game without a
treasury. -/
structure Funded (g : Game) : Prop where
  /-- Whoever made the claim need not make a coup. -/
  unforced : ∀ c, g.claim? = some c → g.coinsOf c.actor < forcedCoupCoins
  /-- An assassin has the price. -/
  assassin : ∀ c target, g.claim? = some c → c.effect = .assassinate target →
    assassinationCost ≤ g.coinsOf c.actor
  /-- In a game without a treasury everybody has a limit. -/
  modest : g.isReformation = false → g.Modest

/-- What a step does to the money while no claim is before the table. -/
inductive Turnover (g : Game) : Cause → Game → Prop where
  /-- Nobody gains anything. -/
  | thrift {cause : Cause} {g' : Game} (hclaim : g'.claim? = none)
      (hcoins : ∀ seat, g'.coinsOf seat ≤ g.coinsOf seat) (htreasury : g'.treasury = g.treasury) :
    Turnover g cause g'
  /-- The current player takes a coin. -/
  | income {p : Player} {g' : Game} (hclaim : g'.claim? = none)
      (hp : g.players[g.current]? = some p) (hc : p.coins < forcedCoupCoins)
      (hps : g'.players = g.players.set g.current { p with coins := p.coins + 1 })
      (htreasury : g'.treasury = g.treasury) : Turnover g (.press g.current .income) g'
  /-- The current player pays the treasury. -/
  | convert {target : Nat} {g' : Game} (hclaim : g'.claim? = none)
      (hr : g'.isReformation = true) (hwealth : g'.wealth = g.wealth) :
    Turnover g (.press g.current (.convert (some target))) g'
  /-- The current player makes a claim. -/
  | claim {effect : Effect} {message : String} {m : Move} {g' : Game}
      (hclaim : g'.claim? = some (.opening g.current message effect)) (hm : m.effect? = some effect)
      (hc : g.coinsOf g.current < forcedCoupCoins) (hopen : g.CanOpen effect)
      (hmoney : g.SameMoney g') : Turnover g (.press g.current m) g'

variable {P : Game → Prop} {g g' g₀ : Game} {cause : Cause} {c : Claim} {f : Frame}
  {below : List Frame} {effect : Effect} {outcome : Outcome} {k : Call} {ks : List Call} {i : Input}
  {inputs : List Input} {seat other : Nat} {target : Option Nat} {p q r r' : Player}
  {names : List String} {s : Settings}

/-! ## Wealth -/

/-- No claim brings more than three coins. -/
theorem minted_le (effect : Effect) : effect.minted ≤ 3 := by
  cases effect <;> simp [Effect.minted]

/-- The stake is never more than three coins. -/
theorem stake_le (g : Game) : g.stake ≤ 3 := by
  unfold stake
  cases g.claim? with
  | none => exact Nat.zero_le 3
  | some c => exact minted_le c.effect

/-- The stake is what the claim before the table brings. -/
theorem stake_eq (h : g.claim? = some c) : g.stake = c.effect.minted := by
  rw [stake, h]
  rfl

/-- Without a claim there is no stake. -/
theorem stake_eq_zero (h : g.claim? = none) : g.stake = 0 := by
  rw [stake, h]
  rfl

/-- The wealth is what the seats have, and the treasury. -/
theorem wealth_eq_sum (g : Game) :
    g.wealth = ∑ seat ∈ Finset.range g.players.length, g.coinsOf seat + g.treasury :=
  congrArg (· + g.treasury) (sum_map_eq (·.coins) g.players)

/-- Where one player is changed, the table gains no more than that one and the treasury do. -/
theorem wealth_le_of_set {gain : Nat} (hp : g.players[seat]? = some p)
    (hps : g'.players = g.players.set seat q)
    (hmoney : q.coins + g'.treasury ≤ p.coins + g.treasury + gain) :
    g'.wealth ≤ g.wealth + gain := by
  have hset := sum_map_set (·.coins) (q := q) hp
  unfold wealth
  rw [hps]
  omega

/-- Where two players are changed one after the other, and pay only each other or the treasury, the
wealth stays the same. -/
theorem wealth_eq_of_set_set (hp : g.players[seat]? = some p)
    (hr : (g.players.set seat q)[other]? = some r)
    (hps : g'.players = (g.players.set seat q).set other r')
    (hmoney : q.coins + r'.coins + g'.treasury = p.coins + r.coins + g.treasury) :
    g'.wealth = g.wealth := by
  have hfirst := sum_map_set (·.coins) (q := q) hp
  have hsecond := sum_map_set (·.coins) (q := r') hr
  unfold wealth
  rw [hps]
  omega

/-- Where nobody gains anything the table does not. -/
theorem wealth_le_of_coins (hseats : g'.players.length = g.players.length)
    (hcoins : ∀ seat, g'.coinsOf seat ≤ g.coinsOf seat) (htreasury : g'.treasury = g.treasury) :
    g'.wealth ≤ g.wealth := by
  rw [wealth_eq_sum, wealth_eq_sum, hseats, htreasury]
  apply Nat.add_le_add_right
  exact Finset.sum_le_sum fun seat _ => hcoins seat

/-- With the same money for everybody the wealth is the same. -/
theorem SameMoney.wealth_eq (h : g.SameMoney g') (hseats : g'.players.length = g.players.length) :
    g'.wealth = g.wealth := by
  apply Nat.le_antisymm
  · exact wealth_le_of_coins hseats (fun seat => (h.coins seat).le) h.treasury
  · exact wealth_le_of_coins hseats.symm (fun seat => (h.coins seat).ge) h.treasury.symm

/-- Nobody has more than the table. -/
theorem coinsOf_le_wealth (g : Game) (seat : Nat) : g.coinsOf seat ≤ g.wealth := by
  unfold coinsOf wealth
  cases hp : g.players[seat]? with
  | none => exact Nat.zero_le _
  | some p =>
    have hmem : p.coins ∈ g.players.map (·.coins) := List.mem_map_of_mem (List.mem_of_getElem? hp)
    have hle : p.coins ≤ (g.players.map (·.coins)).sum := List.le_sum_of_mem hmem
    exact hle.trans (Nat.le_add_right ..)

/-! ## The deal -/

/-- Cards are dealt for nothing. -/
theorem map_coins_dealHands (players : List Player) (cards : List Character) :
    (dealHands players cards).map (·.coins) = players.map (·.coins) := by
  fun_induction dealHands players cards with
  | case1 p players a b cards ih => rw [List.map_cons, List.map_cons, ih]
  | case2 => rfl

/-- Nobody gains anything by the handicap. -/
theorem coins_handicap_le (players : List Player) (first seat : Nat) :
    ((handicap players first)[seat]?.map (·.coins)).getD 0
      ≤ (players[seat]?.map (·.coins)).getD 0 := by
  unfold handicap
  split
  next =>
    rw [List.getElem?_modify]
    cases players[seat]? with
    | none => exact Nat.le_refl _
    | some p =>
      by_cases hfirst : first = seat
      · simp [hfirst]
      · simp [hfirst]
  next => exact Nat.le_refl _

/-- Nobody gains anything by the deal. -/
theorem coinsOf_dealt_le (g : Game) (v : Variant) (built : Deck × Pcg) (seat : Nat) :
    (g.dealt v built).coinsOf seat ≤ g.coinsOf seat := by
  have hsame := congrArg (·[seat]?.getD 0)
    (map_coins_dealHands g.players (built.1.cards.take (2 * g.players.length)))
  simp only [List.getElem?_map] at hsame
  calc (g.dealt v built).coinsOf seat
      ≤ ((dealHands g.players
          (built.1.cards.take (2 * g.players.length)))[seat]?.map (·.coins)).getD 0 :=
        coins_handicap_le ..
    _ = g.coinsOf seat := hsame

/-! ## Steps without a claim -/

/-- A change of sides leaves the wealth as it is. -/
theorem Step.wealth_of_convert (hstep : Step g (.press seat (.convert target)) g') :
    g'.wealth = g.wealth := by
  cases hstep with
  | convert hf hr hp hc ht hcost hq =>
    -- What is charged is paid to the treasury, and whoever is converted pays nothing.
    refine wealth_eq_of_set_set hp hq rfl ?_
    dsimp only
    omega
  | claim hf hc hopen hm => cases hm
  | askTarget => rfl

/-- While no claim is before the table, somebody takes a coin, pays the treasury, makes a claim, or
nobody gains anything. -/
theorem Step.turnover (h : g.Sound) (hstep : Step g cause g') (hnone : g.claim? = none) :
    Turnover g cause g' := by
  -- Once the turn is under way no step moves money.
  have hquiet : ∀ {f below}, g.stack.frames = f :: below → f ≠ .turn → f ≠ .variantChoice →
      Turnover g cause g' := by
    intro f below hf hturn hchoice
    have hv := h.variant_ne_none hf hchoice
    have hway : g.underWay = true := by simp [underWay, Stack.top?, hf, hturn]
    obtain ⟨hnone', hmoney⟩ := hstep.unclaimed h hv (fun _ _ _ => hway) hnone
    exact .thrift hnone' (fun seat => (hmoney.coins seat).le) hmoney.treasury
  have hstep' := hstep
  cases hstep with
  | @deal v ms below seat index g' hf _ hdeal =>
    obtain ⟨built, ms', -, rfl⟩ := h.of_deal hf hdeal
    exact .thrift rfl (fun seat => coinsOf_dealt_le g v built seat) rfl
  | income hf hp hc => exact .income hnone hp hc rfl rfl
  | coup hf hp =>
    refine .thrift ?_ (fun seat => ?_) rfl
    · exact (ownClaimIn_cons rfl).trans hnone
    · rw [coinsOf_of_set hp rfl]
      split
      next heq =>
        rw [heq, coinsOf_eq hp]
        exact Nat.sub_le ..
      next => exact Nat.le_refl _
  | convert hf hr => exact .convert hnone hr hstep'.wealth_of_convert
  | claim hf hc hopen hm =>
    exact .claim (ownClaimIn_own hopen.ne_block) hm hc hopen (.of_eq rfl rfl)
  | askTarget | pass | finish | askSomebody =>
    exact .thrift hnone (fun _ => Nat.le_refl _) rfl
  | accept hf | acceptLast hf | unopposed hf | timeOut hf | ask hf | challenge hf | block hf
  | answer hf | answerLast hf | dropDead hf | lose hf | loseAll hf | keep hf | keepLast hf
  | showCard hf | showOnly hf | allow hf | change hf =>
    exact hquiet hf (by simp) (by simp)

/-! ## Claims that go through -/

/-- A theft or an embezzlement that goes through leaves the wealth as it is. -/
theorem Grant.wealth_of_transfer (h : Grant g seat effect g')
    (htransfer : effect.isTransfer = true) : g'.wealth = g.wealth := by
  cases h with
  | @steal p q ms target hp hq hne =>
    have hp' : (g.players.set target { q with coins := q.coins - min q.coins 2 })[seat]?
        = some p := by rwa [List.getElem?_set_ne hne]
    refine wealth_eq_of_set_set hq hp' rfl ?_
    dsimp only
    omega
  | @embezzle p ms hp =>
    have hset := sum_map_set (·.coins) (q := { p with coins := p.coins + g.treasury }) hp
    unfold wealth
    dsimp only at hset ⊢
    omega
  | _ => cases htransfer

/-- A claim that goes through brings what its effect does, and no more. -/
theorem Grant.wealth_le (h : Grant g seat effect g') : g'.wealth ≤ g.wealth + effect.minted := by
  have hgrant := h
  cases h with
  | steal | embezzle => exact (hgrant.wealth_of_transfer rfl).le
  | foreignAid hp | tax hp | assassinate hp | assassinateDead hp =>
    refine wealth_le_of_set hp rfl ?_
    dsimp only [Effect.minted]
    omega
  | blockKill _ _ hp =>
    refine wealth_le_of_set hp rfl ?_
    dsimp only [Effect.minted]
    omega
  | exchange | inspect | inspectDead | block => exact Nat.le_refl _

/-- A step that decides a claim brings what the claim does, and no more. -/
theorem Decided.wealth_le (h : Decided g c outcome g')
    (hseats : g'.players.length = g.players.length) : g'.wealth ≤ g.wealth + c.effect.minted := by
  cases h with
  | granted venue _ hgrant => exact hgrant.wealth_le
  | caught _ hanswer =>
    rw [hanswer.sameMoney.wealth_eq hseats]
    exact Nat.le_add_right ..
  | blocked venue _ _ hgrant =>
    have hnone : g'.wealth ≤ g.wealth + 0 := hgrant.wealth_le
    exact hnone.trans (Nat.le_add_right ..)

/-- A step that decides a theft or an embezzlement leaves the wealth as it is. -/
theorem Decided.wealth_of_transfer (h : Decided g c outcome g')
    (hseats : g'.players.length = g.players.length) (htransfer : c.effect.isTransfer = true) :
    g'.wealth = g.wealth := by
  cases h with
  | granted venue _ hgrant => exact hgrant.wealth_of_transfer htransfer
  | caught _ hanswer => exact hanswer.sameMoney.wealth_eq hseats
  | blocked venue _ _ hgrant =>
    cases hgrant with
    | block => rfl
    | blockKill hf he =>
      cases hf
      rw [he] at htransfer
      cases htransfer

/-- Nobody but its player gains anything by the end of a claim, and the player gains three coins at
most where the treasury is empty. -/
theorem gain_le (htreasury : g.treasury = 0) (actor : Nat) (effect : Effect) (outcome : Outcome)
    (seat : Nat) : effect.gain g actor outcome seat ≤ if seat = actor then 3 else 0 := by
  unfold Effect.gain
  split <;> split <;> omega

/-! ## Steps -/

/-- Without a treasury after a step there was none before. -/
theorem Step.isReformation_eq_false (h : g.Sound) (hstep : Step g cause g')
    (hr : g'.isReformation = false) : g.isReformation = false := by
  by_cases hv : g.variant = none
  · rw [isReformation, hv]
    rfl
  · rw [isReformation, hstep.variant_eq h hv] at hr
    exact hr

/-- A step of a frame that goes on by itself brings no more than the stake. Any other step brings
three coins at most, the stake included. -/
theorem Step.wealth_le (h : g.Sound) (hstep : Step g cause g') :
    g'.wealth + g'.stake ≤ g.wealth + if cause.isIdle then g.stake else 3 := by
  have hseats := (hstep.sameTable h).seats
  -- What a claim may mint is at stake from when it is made to when it is decided.
  cases hclaim : g.claim? with
  | some c =>
    have hstake := stake_eq hclaim
    have hthree := minted_le c.effect
    have hone : g'.wealth + g'.stake ≤ g.wealth + c.effect.minted := by
      rcases hstep.held_or_decided h hclaim with ⟨⟨c', hc', heffect, -⟩, hmoney⟩ | ⟨_, hdecided⟩
      · rw [hmoney.wealth_eq hseats, stake_eq hc', heffect]
      · rw [stake_eq_zero (hdecided.claim?_eq_none h)]
        exact hdecided.wealth_le hseats
    split
    · omega
    · omega
  | none =>
    -- Without a claim a move spends or moves coins, or takes one, or makes a claim.
    have hnone := stake_eq_zero hclaim
    cases hstep.turnover h hclaim with
    | thrift hclaim' hcoins htreasury =>
      rw [stake_eq_zero hclaim']
      exact (wealth_le_of_coins hseats hcoins htreasury).trans (Nat.le_add_right ..)
    | income hclaim' hp _ hps htreasury =>
      rw [stake_eq_zero hclaim']
      refine wealth_le_of_set hp hps ?_
      rw [htreasury, Cause.isIdle, if_neg Bool.false_ne_true]
      dsimp only
      omega
    | convert hclaim' _ hwealth =>
      rw [stake_eq_zero hclaim', hwealth]
      exact Nat.le_add_right ..
    | claim _ _ _ _ hmoney =>
      rw [hmoney.wealth_eq hseats]
      exact Nat.add_le_add_left (stake_le g') _

/-- Where nobody gains anything the limit is kept. -/
theorem Modest.of_le (h : g.Modest) (hcoins : ∀ seat, g'.coinsOf seat ≤ g.coinsOf seat)
    (htreasury : g'.treasury = g.treasury) : g'.Modest :=
  ⟨htreasury.trans h.treasury, fun seat => (hcoins seat).trans (h.coins seat)⟩

/-- With the same money the limit is kept. -/
theorem SameMoney.modest (hmoney : g.SameMoney g') (h : g.Modest) : g'.Modest :=
  h.of_le (fun seat => (hmoney.coins seat).le) hmoney.treasury

/-- A claim that is decided leaves everybody within the limit. -/
theorem Decided.modest (h : Decided g c outcome g') (hg : g.Funded) (hclaim : g.claim? = some c)
    (hmodest : g.Modest) : g'.Modest := by
  have hpays : ∀ target, c.effect = .assassinate target → assassinationCost ≤ g.coinsOf c.actor :=
    fun target => hg.assassin c target hclaim
  obtain ⟨hgains, htreasury⟩ := h.money hpays (ne_block_of_claim? hclaim)
  have hempty := hmodest.treasury
  refine ⟨?_, fun seat => ?_⟩
  · have hnone : c.effect.treasuryGain g outcome = 0 := by
      unfold Effect.treasuryGain
      split <;> omega
    omega
  · have hgain := gain_le hempty c.actor c.effect outcome seat
    have hseat := hgains seat
    have hbefore := hmodest.coins seat
    unfold purseLimit at hbefore ⊢
    split at hgain
    next heq =>
      -- Whoever makes a claim has nine coins at most.
      have hfew : g.coinsOf seat < forcedCoupCoins := heq ▸ hg.unforced c hclaim
      unfold forcedCoupCoins at hfew
      omega
    next => omega

/-- Without a claim there is only the limit to be kept. -/
theorem Funded.of_unclaimed (hnone : g.claim? = none) (h : g.isReformation = false → g.Modest) :
    g.Funded where
  unforced _ hc := nomatch hnone.symm.trans hc
  assassin _ _ hc := nomatch hnone.symm.trans hc
  modest := h

/-- With a claim its player is to have the coins. -/
theorem Funded.of_claimed (hclaim : g.claim? = some c)
    (hfew : g.coinsOf c.actor < forcedCoupCoins)
    (hpays : ∀ target, c.effect = .assassinate target → assassinationCost ≤ g.coinsOf c.actor)
    (h : g.isReformation = false → g.Modest) : g.Funded := by
  have hsame : ∀ c', g.claim? = some c' → c' = c :=
    fun c' hc' => Option.some.inj (hc'.symm.trans hclaim)
  refine ⟨fun c' hc' => ?_, fun c' target hc' htarget => ?_, h⟩
  · rw [hsame c' hc']
    exact hfew
  · rw [hsame c' hc'] at htarget ⊢
    exact hpays target htarget

/-- Every step keeps what is known of the coins. -/
theorem Step.funded (h : g.Sound) (hg : g.Funded) (hstep : Step g cause g') : g'.Funded := by
  -- The variant does not change while there are coins, so that the bound holds before the step.
  have hmodest : g'.isReformation = false → g.Modest :=
    fun hr => hg.modest (hstep.isReformation_eq_false h hr)
  cases hclaim : g.claim? with
  | some c =>
    rcases hstep.held_or_decided h hclaim with ⟨⟨c', hc', heffect, hactor⟩, hmoney⟩ | ⟨_, hdecided⟩
    · refine .of_claimed hc' ?_ (fun target htarget => ?_) fun hr => hmoney.modest (hmodest hr)
      · rw [hmoney.coins, hactor]
        exact hg.unforced c hclaim
      · rw [hmoney.coins, hactor]
        exact hg.assassin c target hclaim (heffect.symm.trans htarget)
    · refine .of_unclaimed (hdecided.claim?_eq_none h) fun hr => ?_
      exact hdecided.modest hg hclaim (hmodest hr)
  | none =>
    cases hstep.turnover h hclaim with
    | thrift hnone hcoins htreasury =>
      exact .of_unclaimed hnone fun hr => (hmodest hr).of_le hcoins htreasury
    | income hnone hp hc hps htreasury =>
      refine .of_unclaimed hnone fun hr => ⟨htreasury.trans (hmodest hr).treasury, fun seat => ?_⟩
      rw [coinsOf_of_set hp hps]
      split
      next =>
        have hten : forcedCoupCoins ≤ purseLimit := by decide
        exact (Nat.succ_le_of_lt hc).trans hten
      next => exact (hmodest hr).coins seat
    | convert hnone hr => exact .of_unclaimed hnone fun hr' => nomatch hr.symm.trans hr'
    | claim hc' _ hfew hopen hmoney =>
      refine .of_claimed hc' ?_ (fun target htarget => ?_) fun hr => hmoney.modest (hmodest hr)
      · rw [hmoney.coins]
        exact hfew
      · rw [hmoney.coins]
        exact hopen.coins target htarget

/-! ## Calls -/

/-- What a call leaves of the coins is accounted for. -/
structure Balances (k : Call) : Prop where
  /-- An assassin pays the price when the claim goes through, or is blocked, and has it before. -/
  assassin : ∀ c target, k.before.claim? = some c → c.effect = .assassinate target →
    assassinationCost ≤ k.before.coinsOf c.actor ∧
      (k.outcome? = some .granted ∨ k.outcome? = some .blocked →
        k.after.coinsOf c.actor + assassinationCost = k.before.coinsOf c.actor)
  /-- A change of sides leaves the wealth as it is. -/
  converted : ∀ seat target, k.cause = .press seat (.convert target) →
    k.after.wealth = k.before.wealth
  /-- So does everything that becomes of a theft or an embezzlement. -/
  transferred : ∀ c, k.before.claim? = some c → c.effect.isTransfer = true →
    k.after.wealth = k.before.wealth

/-- In a lull nothing becomes of the coins. -/
theorem Lull.wealth_eq (h : g.Lull g') : g'.wealth = g.wealth ∧ g'.stake = g.stake := by
  obtain ⟨_, _, _, rfl⟩ := h
  exact ⟨rfl, rfl⟩

/-- In a lull all is kept that is known of the coins. -/
theorem Lull.funded (h : g.Lull g') (hg : g.Funded) : g'.Funded := by
  obtain ⟨_, _, _, rfl⟩ := h
  exact ⟨hg.unforced, hg.assassin, fun hr => ⟨(hg.modest hr).treasury, (hg.modest hr).coins⟩⟩

namespace Regular

/-- Every call keeps what is known of the coins. -/
theorem funded (hcall : Regular P k) (hg : k.before.Funded) : k.after.Funded := by
  rcases hcall.step with heq | hstep
  · rwa [heq]
  · exact hstep.funded hcall.sound hg

/-- A call of a frame that goes on by itself brings no more than the stake, and any other call three
coins at most. -/
theorem wealth_le (hcall : Regular P k) : k.after.wealth + k.after.stake
    ≤ k.before.wealth + if k.isIdle then k.before.stake else 3 := by
  rcases hcall.step with heq | hstep
  · rw [heq]
    apply Nat.add_le_add_left
    split
    next => exact Nat.le_refl _
    next => exact stake_le _
  · exact hstep.wealth_le hcall.sound

/-- With the stake, a call of a frame that goes on by itself brings nothing, and any other call
three coins at most. -/
theorem wealth_add_stake_le (hcall : Regular P k) : k.after.wealth + k.after.stake
    ≤ k.before.wealth + k.before.stake + if k.isIdle then 0 else 3 := by
  have hone := hcall.wealth_le
  split at hone
  next hidle =>
    rw [if_pos hidle]
    exact hone
  next hcalled =>
    rw [if_neg hcalled]
    omega

/-- What a call leaves of the coins is accounted for. -/
theorem balances (hcall : Regular P k) (hg : k.before.Funded) : Balances k := by
  have hseats : Step k.before k.cause k.after →
      k.after.players.length = k.before.players.length :=
    fun hstep => (hstep.sameTable hcall.sound).seats
  constructor
  · -- The assassin has the price since the claim was made, and pays it whatever the outcome is.
    intro c target hclaim htarget
    have hpays := hg.assassin c target hclaim htarget
    refine ⟨hpays, fun hout => ?_⟩
    obtain ⟨outcome, hpaid, hout⟩ : ∃ outcome, (outcome = .granted ∨ outcome = .blocked) ∧
        k.outcome? = some outcome := by
      rcases hout with hout | hout
      · exact ⟨_, .inl rfl, hout⟩
      · exact ⟨_, .inr rfl, hout⟩
    obtain ⟨c', hclaim', hdecided⟩ := hcall.decided hout
    cases hclaim.symm.trans hclaim'
    obtain ⟨hgains, -⟩ := hdecided.money (fun _ _ => hpays) (ne_block_of_claim? hclaim)
    have hactor := hgains c.actor
    have hcost : c.effect.gain k.before c.actor outcome c.actor = -(assassinationCost : Int) := by
      rw [htarget]
      rcases hpaid with rfl | rfl <;> exact if_pos rfl
    omega
  · -- A conversion moves coins from a player to the treasury.
    intro seat target hcause
    rcases hcall.step with heq | hstep
    · rw [heq]
    · rw [hcause] at hstep
      exact hstep.wealth_of_convert
  · -- A claim whose effect is a transfer moves coins when it is decided, and none before.
    intro c hclaim htransfer
    rcases hcall.step with heq | hstep
    · rw [heq]
    · rcases hstep.held_or_decided hcall.sound hclaim with ⟨-, hmoney⟩ | ⟨_, hdecided⟩
      · exact hmoney.wealth_eq (hseats hstep)
      · exact hdecided.wealth_of_transfer (hseats hstep) htransfer

end Regular

/-- No press and no alarm is taken in while a game settles. -/
theorem countP_settleCalls (g : Game) : g.settleCalls.countP (!·.isIdle) = 0 := by
  rw [List.countP_eq_zero]
  intro k hk
  simp [isIdle_of_mem_settleInCalls hk]

/-- No input has frames called for more than one press or alarm. -/
theorem Single.countP_le (h : Single ks) : ks.countP (!·.isIdle) ≤ 1 := by
  cases h with
  | none => exact Nat.zero_le 1
  | @event x y cause _ hcause _ =>
    rw [List.countP_cons, countP_settleCalls]
    split <;> decide

namespace Chain

/-- All along a chain the table gains no more than the stake and three coins for every press and
every alarm. -/
theorem wealth_le (hchain : Chain P g ks g') : ∀ x ∈ g' :: stages ks,
    x.wealth + x.stake ≤ g.wealth + g.stake + 3 * ks.countP (!·.isIdle) := by
  induction hchain with
  | done hlull =>
    obtain ⟨hwealth, hstake⟩ := hlull.wealth_eq
    refine List.forall_mem_singleton.2 ?_
    rw [hwealth, hstake]
    exact Nat.le_add_right ..
  | @next g g' k ks hlull hcall _ ih =>
    obtain ⟨hwealth, hstake⟩ := hlull.wealth_eq
    have hone := hcall.wealth_add_stake_le
    have hcount : 3 * (k :: ks).countP (!·.isIdle)
        = 3 * ks.countP (!·.isIdle) + if k.isIdle then 0 else 3 := by
      rw [List.countP_cons, Nat.mul_add]
      cases k.isIdle <;> rfl
    rw [hwealth, hstake] at hone
    rw [stages_cons, hcount]
    simp only [List.forall_mem_cons] at ih ⊢
    obtain ⟨hend, hlater⟩ := ih
    refine ⟨?_, ?_, ?_, fun x hx => ?_⟩
    · omega
    · rw [hwealth, hstake]
      exact Nat.le_add_right ..
    · omega
    · have hx := hlater x hx
      omega

/-- One press or one alarm brings three coins at most. -/
theorem wealth_le_of_single (hchain : Chain P g ks g') (hsingle : Single ks) :
    g'.wealth ≤ g.wealth + 3 := by
  cases hsingle with
  | none =>
    cases hchain with
    | done hlull =>
      rw [hlull.wealth_eq.1]
      exact Nat.le_add_right ..
  | @event x y cause _ hcause _ =>
    cases hchain with
    | next hlull hcall hrest =>
      have hevent := hcall.wealth_le
      have hcalled : (⟨x, cause, y⟩ : Call).isIdle = false := hcause
      rw [hcalled, if_neg Bool.false_ne_true] at hevent
      -- After that only frames that go on by themselves are called.
      have hlater := hrest.wealth_le g' List.mem_cons_self
      rw [countP_settleCalls] at hlater
      calc g'.wealth ≤ g'.wealth + g'.stake := Nat.le_add_right ..
        _ ≤ y.wealth + y.stake := hlater
        _ ≤ x.wealth + 3 := hevent
        _ = g.wealth + 3 := by rw [← hlull.wealth_eq.1]

end Chain

/-! ## Runs -/

/-- No more presses and alarms are taken in than inputs come in. -/
theorem RunsThrough.events_le (hrun : RunsThrough P g inputs g') (h : g.AtRest) :
    g.events inputs ≤ inputs.length := by
  induction hrun with
  | done => exact Nat.le_refl 0
  | @next g g₁ g' i inputs hp hfeed _ ih =>
    have hone := (h.feedCalls_single i).countP_le
    have hrest := ih (h.feed hfeed)
    unfold events at hrest ⊢
    rw [calls_cons hfeed, List.countP_append, List.length_cons]
    omega

/-- What the coins of a game at a table of some players come to after some presses and alarms. -/
structure Bounded (g : Game) (players events : Nat) : Prop where
  /-- Without a treasury nobody has more than twelve coins. -/
  modest : g.isReformation = false → g.Modest
  /-- All coins are those of the beginning and three for each press and each alarm. -/
  wealth : g.wealth ≤ 2 * players + 3 * events
  /-- Unless there were very many of them, every count of coins fits into a word of 32 bits. -/
  words : 3 * events < 2 ^ 32 - 12 → g.treasury < 2 ^ 32 ∧ ∀ seat, g.coinsOf seat < 2 ^ 32

namespace Begun

/-- At the beginning nobody has more coins than to start with. -/
theorem coins_le (hbegun : Begun names s entropy g) :
    g.treasury = 0 ∧ ∀ seat, g.coinsOf seat ≤ startCoins := by
  have hopened : ∀ seat, (opened names s entropy).coinsOf seat ≤ startCoins := by
    intro seat
    unfold coinsOf
    cases hp : (opened names s entropy).players[seat]? with
    | none => exact Nat.zero_le _
    | some p => exact (mem_newPlayers (List.mem_of_getElem? hp)).2.le
  cases hbegun with
  | asking => exact ⟨rfl, hopened⟩
  | @dealt v built =>
    exact ⟨rfl, fun seat =>
      (coinsOf_dealt_le (opened names s entropy) v built seat).trans (hopened seat)⟩

/-- At the beginning all is known of the coins that is to be kept. -/
theorem funded (hbegun : Begun names s entropy g) : g.Funded := by
  obtain ⟨htreasury, hcoins⟩ := hbegun.coins_le
  have hlimit : startCoins ≤ purseLimit := by decide
  have hmodest : g.Modest := ⟨htreasury, fun seat => (hcoins seat).trans hlimit⟩
  cases hbegun with
  | asking => exact .of_unclaimed rfl fun _ => hmodest
  | dealt => exact .of_unclaimed rfl fun _ => hmodest

/-- At the beginning there are two coins for each player, and nobody has made a claim. -/
theorem wealth_le (hbegun : Begun names s entropy g) : g.wealth + g.stake ≤ 2 * names.length := by
  obtain ⟨htreasury, hcoins⟩ := hbegun.coins_le
  have hnew : (newPlayers names).length = names.length := by simp [newPlayers]
  obtain ⟨hseats, hnone⟩ : g.players.length = names.length ∧ g.claim? = none := by
    cases hbegun with
    | asking => exact ⟨hnew, rfl⟩
    | dealt => exact ⟨(length_handicap ..).trans ((length_dealHands ..).trans hnew), rfl⟩
  rw [stake_eq_zero hnone, wealth_eq_sum, htreasury, hseats]
  calc ∑ seat ∈ Finset.range names.length, g.coinsOf seat
      ≤ ∑ _seat ∈ Finset.range names.length, startCoins :=
        Finset.sum_le_sum fun seat _ => hcoins seat
    _ = names.length * startCoins := by
        rw [Finset.sum_const_nat fun _ _ => rfl, Finset.card_range]
    _ = 2 * names.length := Nat.mul_comm ..

end Begun

/-- No table is refused for a fault. -/
theorem start_ne_fault (names : List String) (s : Settings) (entropy : Pcg) (cause : Fault) :
    start names s entropy ≠ .error (.fault cause) := by
  intro hfault
  obtain ⟨reason, hrefusal, hstart⟩ | ⟨-, g, hstart, -⟩ := start_eq names s entropy
  · cases hstart.symm.trans hfault
    unfold refusal? at hrefusal
    split at hrefusal
    next => cases hrefusal
    next =>
      split at hrefusal
      next => cases hrefusal
      next => cases hrefusal
      next =>
        split at hrefusal
        next => cases hrefusal
        next => cases hrefusal
  · cases hstart.symm.trans hfault

/-- What is known of the coins of a game bounds them. -/
theorem Funded.bounded {players events : Nat} (hg : g.Funded)
    (hwealth : g.wealth + g.stake ≤ 2 * players + 3 * events) (hplayers : players ≤ maxPlayers) :
    g.Bounded players events := by
  have htotal : g.wealth ≤ 2 * players + 3 * events := (Nat.le_add_right ..).trans hwealth
  refine ⟨hg.modest, htotal, fun hfew => ?_⟩
  have hsmall : g.wealth < 2 ^ 32 := by
    unfold maxPlayers at hplayers
    omega
  have htreasury : g.treasury ≤ g.wealth := Nat.le_add_left ..
  exact ⟨htreasury.trans_lt hsmall, fun seat => (g.coinsOf_le_wealth seat).trans_lt hsmall⟩

/-! ## The result -/

/-- Nobody is ever charged more coins than there are, neither when a game starts nor when anything
comes in. An assassin has the price from the claim on and pays it in full. One input brings three
coins at most to the table, and a theft, a change of sides and an embezzlement bring none. Whatever
games come up in a run, nobody has more than twelve coins in them where there is no treasury, all
coins are at most two for each player and three for each press or alarm so far, and as long as these
do not come near the limit every count of coins is a number of 32 bits. -/
theorem coins_accounted (names : List String) (s : Settings) (entropy : Pcg)
    (inputs : List Input) :
    (∀ seat, start names s entropy ≠ .error (.fault (.overdrawn seat))) ∧
    ∀ g₀ g, start names s entropy = .ok g₀ → g₀.feedAll inputs = .ok g →
      (∀ i seat, g.feed i ≠ .error (.overdrawn seat)) ∧
      (∀ i g', g.feed i = .ok g' → g'.wealth ≤ g.wealth + 3) ∧
      (∀ k ∈ g₀.calls inputs, Balances k) ∧
      g₀.events inputs ≤ inputs.length ∧
      ∀ x ∈ g :: stages (g₀.calls inputs), x.Bounded names.length (g₀.events inputs) := by
  refine ⟨fun seat => start_ne_fault names s entropy _, fun g₀ g hstart hrun => ?_⟩
  obtain ⟨hrefusal, hbegun⟩ := begun_of_start hstart
  have hseats := (count_of_refusal?_eq_none hrefusal).2.1
  have hrest₀ := (rests_of_start hstart).1
  have hthrough := runsThrough_of_feedAll hrun
  have hrest := hthrough.atRest hrest₀
  have hchain := hthrough.chain hrest₀
  have hfunded := hchain.invariant Lull.funded Regular.funded hbegun.funded
  refine ⟨fun i seat hfault => ?_, fun i g' hfeed => ?_, fun k hk => ?_, hthrough.events_le hrest₀,
    fun x hx => ?_⟩
  · have hrests := feed_rests hrest i
    rw [hfault] at hrests
    cases hrests.1
  · have hnext := feed_chain (P := fun _ => True) hrest trivial hfeed
    exact hnext.wealth_le_of_single (hrest.feedCalls_single i)
  · refine (hchain.regular hk).balances (hfunded _ (List.mem_cons_of_mem _ ?_))
    exact List.mem_flatMap.2 ⟨k, hk, List.mem_cons_self⟩
  · have hwealth := hchain.wealth_le x hx
    refine (hfunded x hx).bounded (hwealth.trans ?_) hseats
    exact Nat.add_le_add_right hbegun.wealth_le _

/-- Ada pays for a change of sides, Bob takes a tax, and Cid embezzles what Ada paid. Of the nine
coins three are Cid's then, none is in the treasury, and every count of coins fits into a word. -/
theorem coins_accounted_embezzled : ∃ g₀ g,
    start ["Ada", "Bob", "Cid"]
        { seed := some 0, startPlayer := some 0, variant := some .reformation } = .ok g₀ ∧
      g₀.feedAll [.press 0 "convert:0", .press 1 "tax", .press 0 "accept", .press 2 "accept",
        .press 2 "embezzle", .press 0 "accept", .press 1 "accept"] = .ok g ∧
      g.wealth = 9 ∧ g.coinsOf 2 = 3 ∧ g.treasury = 0 ∧ g.Bounded 3 7 ∧
      (∀ seat, g.coinsOf seat < 2 ^ 32) ∧ ∀ i seat, g.feed i ≠ .error (.overdrawn seat) := by
  have hplay : ((start ["Ada", "Bob", "Cid"]
      { seed := some 0, startPlayer := some 0, variant := some .reformation }).toOption.bind
      fun g₀ =>
        (g₀.feedAll [.press 0 "convert:0", .press 1 "tax", .press 0 "accept", .press 2 "accept",
          .press 2 "embezzle", .press 0 "accept", .press 1 "accept"]).toOption.map fun g =>
            (g.wealth, g.coinsOf 2, g.treasury,
              g₀.events [.press 0 "convert:0", .press 1 "tax", .press 0 "accept",
                .press 2 "accept", .press 2 "embezzle", .press 0 "accept", .press 1 "accept"]))
      = some (9, 3, 0, 7) := by
    decide +kernel
  obtain ⟨g₀, hg₀, hplay⟩ := Option.bind_eq_some_iff.1 hplay
  obtain ⟨g, hg, hcoins⟩ := Option.map_eq_some_iff.1 hplay
  simp only [Prod.mk.injEq] at hcoins
  obtain ⟨hwealth, hCid, htreasury, hevents⟩ := hcoins
  have hstart := eq_ok_of_toOption hg₀
  have hrun := eq_ok_of_toOption hg
  obtain ⟨hpays, -, -, -, hbounds⟩ := (coins_accounted _ _ _ _).2 g₀ g hstart hrun
  have hbounded : g.Bounded 3 7 := by
    rw [← hevents]
    exact hbounds g List.mem_cons_self
  have hwords := hbounded.words (by decide)
  exact ⟨g₀, g, hstart, hrun, hwealth, hCid, htreasury, hbounded, hwords.2, hpays⟩

end Game

end CoupTable
