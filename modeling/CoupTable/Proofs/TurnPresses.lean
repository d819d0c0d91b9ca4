import CoupTable.Proofs.Listing
import CoupTable.Proofs.SoundSteps

/-!
# Presses at the beginning of a turn

Whatever the current player presses at the beginning of a turn, the game takes a step or ignores it,
and meets no fault. The same is shown for the choice of the variant.
-/

namespace CoupTable.Game

variable {g g' : Game} {seat : Nat} {m : Move} {p : Player} {below : List Frame}

/-- What comes of a press: the game takes one step, or stays, if it does not wait for the move. -/
def Yields (g : Game) (seat : Nat) (m : Move) (x : Except Fault Game) : Prop :=
  ∃ g', x = .ok g' ∧ ((g' = g ∧ (seat, m) ∉ g.moves) ∨ Step g (.press seat m) g')

/-- A press that is ignored. -/
theorem Yields.stay (h : (seat, m) ∉ g.moves) : g.Yields seat m (.ok g) :=
  ⟨g, rfl, .inl ⟨rfl, h⟩⟩

/-- A press that leads to a step. -/
theorem Yields.step (h : Step g (.press seat m) g') : g.Yields seat m (.ok g') :=
  ⟨g', rfl, .inr h⟩

/-- At the beginning of a turn a move is waited for if the current player has what it takes. -/
theorem canTake_of_mem_moves (hf : g.stack.frames = .turn :: below) (h : (seat, m) ∈ g.moves) :
    seat = g.current ∧ g.CanTake m := by
  obtain ⟨_, hmem, hseat⟩ := List.mem_map.1 (mem_movesFor h hf)
  cases hseat
  exact ⟨rfl, mem_turnMoves.1 hmem⟩

/-- A move that lacks its target takes more than any player has. -/
theorem CanTake.hasTarget (h : g.CanTake m) : m.lacksTarget = false := by
  cases m with
  | coup target | assassinate target | steal target | convert target | inspect target =>
    cases target with
    | none => exact h.elim
    | some target => rfl
  | _ => rfl

/-- The coins of a player in a seat. -/
theorem coinsOf_eq (hp : g.players[seat]? = some p) : g.coinsOf seat = p.coins := by
  rw [coinsOf, hp]
  rfl

/-! ## Claims -/

/-- A claim that is open to some objection goes on top of a stack that is not full. -/
theorem declare_eq {c : Claim} (hopen : (c.challengeable || c.blockable) = true)
    (hlen : g.stack.frames.length < Stack.maxDepth) :
    g.declare c = .ok { g with stack := ⟨.claim c :: g.stack.frames⟩, stirred := true } := by
  have hclosed : (!c.challengeable && !c.blockable) = false := by
    rw [← Bool.not_or, hopen]
    rfl
  unfold declare
  simp only [hclosed, Bool.false_eq_true, if_false, push_eq hlen, ok_bind]
  rfl

/-- The current player, alive and with few coins, makes a claim. -/
theorem declare_opening (hf : g.stack.frames = [.turn]) (effect : Effect)
    (hcoins : g.coinsOf g.current < forcedCoupCoins) (h : g.CanOpen effect)
    (hm : m.effect? = some effect) (message : String) :
    g.Yields g.current m (g.declare (.opening g.current message effect)) := by
  have hopen : ((Claim.opening g.current message effect).challengeable
      || (Claim.opening g.current message effect).blockable) = true := by
    cases effect with
    | block => exact absurd rfl h.ne_block
    | _ => rfl
  rw [declare_eq hopen (by rw [hf]; decide)]
  exact .step (.claim hf hcoins h hm)

/-! ## Targets -/

/-- A move against somebody goes on with a legal target, and otherwise asks for one or is
ignored. -/
theorem withTarget_yields (hf : g.stack.frames = [.turn]) {target : Option Nat} {question : String}
    {make : Option Nat → Move} {act : Nat → Player → Except Fault Game}
    (hquestion : Text.endsCalmly question = true) (hmake : ∀ seat, (make (some seat)).arg ≠ none)
    (hnone : (make none).lacksTarget = true)
    (hlisted : ∀ seat, g.CanTake (make (some seat)) → g.isTarget g.current seat = true)
    (hact : ∀ seat victim, g.players[seat]? = some victim → g.isTarget g.current seat = true →
      g.Yields g.current (make (some seat)) (act seat victim)) :
    g.Yields g.current (make target) (g.withTarget target question make act) := by
  unfold withTarget
  cases target with
  | none =>
    simp only [askTarget, broadcast_eq]
    exact .step (.askTarget hf hnone (remarks_askTarget _ hquestion hmake))
  | some target =>
    by_cases ht : g.isTarget g.current target = true
    · have hlives : g.isAlive target = true := by
        simp only [isTarget, Bool.and_eq_true] at ht
        exact ht.1.2
      obtain ⟨victim, hvictim⟩ := exists_player (lt_of_isAlive hlives)
      simp only [ht, if_true, player_eq hvictim, ok_bind]
      exact hact target victim hvictim ht
    · simp only [ht]
      exact .stay fun hmem => ht (hlisted target (canTake_of_mem_moves hf hmem).2)

/-! ## Moves -/

/-- Income is taken. -/
theorem income_yields (hf : g.stack.frames = [.turn]) (hp : g.players[g.current]? = some p)
    (hc : p.coins < forcedCoupCoins) : g.Yields g.current .income (g.income p) := by
  unfold income
  rw [note_eq, pay_eq (g := g.said _) hp, ok_bind]
  exact .step (.income hf hp hc (remarks_noted (Text.endsCalmly_append _ (by decide))))

/-- A coup is made by whoever has the coins. -/
theorem coup_yields (hf : g.stack.frames = [.turn]) (hp : g.players[g.current]? = some p)
    (hlives : g.isAlive g.current = true) (target : Option Nat) :
    g.Yields g.current (.coup target) (g.coup p target) := by
  have hlen : g.stack.frames.length < Stack.maxDepth := by rw [hf]; decide
  unfold coup
  by_cases hc : p.coins < coupCost
  · simp only [hc, if_true]
    refine .stay fun hmem => ?_
    have hcan := (canTake_of_mem_moves hf hmem).2
    cases target with
    | none => exact hcan
    | some target => exact Nat.not_le.2 hc (coinsOf_eq hp ▸ hcan.1)
  · simp only [hc, if_false]
    refine withTarget_yields hf (by decide) (fun _ => nofun) rfl (fun _ hcan => hcan.2)
      fun target victim hvictim ht => ?_
    have hne : g.current ≠ target := fun heq => by simp [isTarget, heq] at ht
    rw [note_eq, charge_eq (g := g.said _) hp (Nat.not_lt.1 hc), ok_bind, pushLoss, push_eq]
    · exact .step (.coup hf hp hlives (Nat.not_lt.1 hc) ht
        (remarks_named hne hp hvictim (by decide) (by decide)))
    · exact hlen

/-- A change of sides is paid for by whoever has the coins. -/
theorem convert_yields (hf : g.stack.frames = [.turn]) (hp : g.players[g.current]? = some p)
    (hc : p.coins < forcedCoupCoins) (target : Option Nat) :
    g.Yields g.current (.convert target) (g.convert p target) := by
  unfold convert
  by_cases hclosed : (!g.isReformation || decide (p.coins = 0)) = true
  · simp only [hclosed, if_true]
    refine .stay fun hmem => ?_
    have hcan := (canTake_of_mem_moves hf hmem).2
    simp only [Bool.or_eq_true, Bool.not_eq_true', decide_eq_true_eq] at hclosed
    cases target with
    | none => exact hcan
    | some target =>
      obtain ⟨-, hr, -, hcost⟩ := hcan
      rcases hclosed with hclosed | hclosed
      · cases hclosed.symm.trans hr
      · -- nobody changes sides for nothing
        rw [coinsOf_eq hp, hclosed, conversionCost] at hcost
        split at hcost <;> omega
  · simp only [hclosed]
    have hr : g.isReformation = true := by
      simp only [Bool.or_eq_true, Bool.not_eq_true', not_or] at hclosed
      simpa using hclosed.1
    cases target with
    | none =>
      simp only [askTarget, broadcast_eq]
      exact .step (.askTarget hf rfl (remarks_askTarget _ (by decide) fun _ => nofun))
    | some target =>
      by_cases ht : (g.isAlive target && decide (conversionCost g.current target ≤ p.coins)) = true
      · simp only [ht, if_true]
        simp only [Bool.and_eq_true, decide_eq_true_eq] at ht
        obtain ⟨hlives, hcost⟩ := ht
        obtain ⟨other, hother⟩ := exists_player (lt_of_isAlive hlives)
        -- The player who changes sides may be the one who has just paid.
        obtain ⟨q, hq⟩ : ∃ q, (g.players.set g.current
            { p with coins := p.coins - conversionCost g.current target })[target]? = some q :=
          ⟨_, List.getElem?_eq_getElem (by simpa using lt_of_isAlive hlives)⟩
        rw [player_eq hother, ok_bind, note_eq, charge_eq (g := g.said _) hp hcost, ok_bind,
          modifyPlayer_eq hq, ok_bind]
        refine .step (.convert hf hr hp hc hlives hcost hq (remarks_noted ?_))
        split
        · exact Text.endsCalmly_append _ (by decide)
        · exact Text.endsCalmly_append _ (by decide)
      · simp only [ht]
        refine .stay fun hmem => ht ?_
        obtain ⟨-, -, hlives, hcost⟩ := (canTake_of_mem_moves hf hmem).2
        rw [hlives, decide_eq_true (coinsOf_eq hp ▸ hcost)]
        rfl

/-- An assassination is claimed by whoever has the coins. -/
theorem claimAssassination_yields (hf : g.stack.frames = [.turn])
    (hp : g.players[g.current]? = some p) (hlives : g.isAlive g.current = true)
    (hc : g.coinsOf g.current < forcedCoupCoins) (target : Option Nat) :
    g.Yields g.current (.assassinate target) (g.claimAssassination p target) := by
  unfold claimAssassination
  split
  next hpoor =>
    refine .stay fun hmem => ?_
    have hcan := (canTake_of_mem_moves hf hmem).2
    cases target with
    | none => exact hcan
    | some target => exact Nat.not_le.2 hpoor (coinsOf_eq hp ▸ hcan.2.1)
  next hrich =>
    refine withTarget_yields hf (by decide) (fun _ => nofun) rfl (fun _ hcan => hcan.2.2)
      fun target victim _ ht => ?_
    refine declare_opening hf (.assassinate target) hc ⟨hlives, nofun, ?_, ?_, nofun, nofun⟩ rfl _
    · rintro _ ⟨⟩
      exact ht
    · rw [coinsOf_eq hp]
      exact fun _ _ => Nat.not_lt.1 hrich

/-- A theft is claimed from a legal target. -/
theorem claimSteal_yields (hf : g.stack.frames = [.turn]) (hlives : g.isAlive g.current = true)
    (hc : g.coinsOf g.current < forcedCoupCoins) (target : Option Nat) :
    g.Yields g.current (.steal target) (g.claimSteal p target) := by
  refine withTarget_yields hf (by decide) (fun _ => nofun) rfl (fun _ hcan => hcan.2)
    fun target victim _ ht => ?_
  refine declare_opening hf (.steal target) hc ⟨hlives, nofun, ?_, nofun, nofun, nofun⟩ rfl _
  rintro _ ⟨⟩
  exact ht

/-- The treasury is claimed where there is one. -/
theorem claimEmbezzlement_yields (hf : g.stack.frames = [.turn])
    (hlives : g.isAlive g.current = true) (hc : g.coinsOf g.current < forcedCoupCoins) :
    g.Yields g.current .embezzle (g.claimEmbezzlement p) := by
  unfold claimEmbezzlement
  split
  next hr =>
    exact declare_opening hf .embezzle hc ⟨hlives, nofun, nofun, nofun, fun _ => hr, nofun⟩ rfl _
  next hr => exact .stay fun hmem => hr (canTake_of_mem_moves hf hmem).2.2

/-- A look at a card is claimed from a legal target, where there is an inquisitor. -/
theorem claimInspection_yields (hf : g.stack.frames = [.turn]) (hlives : g.isAlive g.current = true)
    (hc : g.coinsOf g.current < forcedCoupCoins) (target : Option Nat) :
    g.Yields g.current (.inspect target) (g.claimInspection p target) := by
  unfold claimInspection
  split
  next hi =>
    refine withTarget_yields hf (by decide) (fun _ => nofun) rfl (fun _ hcan => hcan.2.2)
      fun target victim _ ht => ?_
    refine declare_opening hf (.inspect target) hc
      ⟨hlives, nofun, ?_, nofun, nofun, fun _ _ => hi⟩ rfl _
    rintro _ ⟨⟩
    exact ht
  next hi =>
    refine .stay fun hmem => ?_
    have hcan := (canTake_of_mem_moves hf hmem).2
    cases target with
    | none => exact hcan
    | some target => exact hi hcan.2.1

/-- The current player's move leads to a step or is ignored. -/
theorem turnInput_yields (h : g.AtRest) (hf : g.stack.frames = [.turn]) (seat : Nat) (m : Move) :
    g.Yields seat m (g.turnInput seat m) := by
  obtain ⟨p, hp⟩ := h.exists_current
  have hlives := h.awake hf
  unfold turnInput
  split
  next hseat => exact .stay fun hmem => hseat (canTake_of_mem_moves hf hmem).1
  next hseat =>
    rw [ne_eq, not_not] at hseat
    subst hseat
    rw [player_eq hp, ok_bind]
    split
    next target => exact coup_yields hf hp hlives target
    next =>
      split
      next hcoup hrich =>
        -- With too many coins nothing but a coup is waited for.
        refine .stay fun hmem => ?_
        have hcan := (canTake_of_mem_moves hf hmem).2
        have hfew := hcan.coins_lt hcoup
        exact Nat.not_lt.2 hrich (coinsOf_eq hp ▸ hfew)
      next hrich =>
        have hc : p.coins < forcedCoupCoins := Nat.lt_of_not_le hrich
        have hfew : g.coinsOf g.current < forcedCoupCoins := (coinsOf_eq hp).symm ▸ hc
        -- Claims that need neither a target nor coins can be made by anybody.
        have hopen : ∀ {effect : Effect}, effect = .foreignAid ∨ effect = .tax ∨
            effect = .exchange → g.CanOpen effect := by
          rintro _ (rfl | rfl | rfl) <;> exact ⟨hlives, nofun, nofun, nofun, nofun, nofun⟩
        split
        next => exact income_yields hf hp hc
        next => exact declare_opening hf .foreignAid hfew (hopen (.inl rfl)) rfl _
        next => exact declare_opening hf .tax hfew (hopen (.inr (.inl rfl))) rfl _
        next target _ => exact claimAssassination_yields hf hp hlives hfew target
        next => exact declare_opening hf .exchange hfew (hopen (.inr (.inr rfl))) rfl _
        next target _ => exact claimSteal_yields hf hlives hfew target
        next target _ => exact convert_yields hf hp hc target
        next => exact claimEmbezzlement_yields hf hlives hfew
        next target _ => exact claimInspection_yields hf hlives hfew target
        next =>
          refine .stay fun hmem => ?_
          -- no other move is one of a turn
          have hcan := (canTake_of_mem_moves hf hmem).2
          cases m <;> simp_all [CanTake]

/-! ## The choice of the variant -/

/-- A choice of the variant leads to the deal or is ignored. -/
theorem variantInput_yields (h : g.Sound) (hf : g.stack.frames = .variantChoice :: below)
    (seat : Nat) (m : Move) : g.Yields seat m (g.variantInput m) := by
  cases h.shape_of hf with
  | variantChoice hv =>
    unfold variantInput
    split
    next index =>
      split
      next v hindex =>
        obtain ⟨ms, hms⟩ :=
          h.deal_eq hv v [.turn] [⟨.everyone, Wording.variantChosen v.name, []⟩]
        rw [pop_eq hf, ok_bind, note_eq]
        exact ⟨_, hms, .inr (.deal hf hindex hms)⟩
      next hindex =>
        refine .stay fun hmem => ?_
        obtain ⟨_, -, hmem⟩ := List.mem_flatMap.1 (mem_movesFor hmem hf)
        obtain ⟨v, -, hmove⟩ := List.mem_map.1 hmem
        cases hmove
        cases (Variant.ofIndex?_index v).symm.trans hindex
    next hne =>
      refine .stay fun hmem => ?_
      obtain ⟨_, -, hmem⟩ := List.mem_flatMap.1 (mem_movesFor hmem hf)
      obtain ⟨v, -, hmove⟩ := List.mem_map.1 hmem
      cases hmove
      exact hne _ rfl

end CoupTable.Game
