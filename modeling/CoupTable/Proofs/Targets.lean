import CoupTable.Proofs.DataStrings
import CoupTable.Proofs.Objections
import CoupTable.Proofs.Rules
import Mathlib.Data.List.Nodup

/-!
# Whom a player is asked about

A player who moves against somebody, but does not say against whom, is asked. Who comes into
question is worked out three times over: for the buttons of the question, for the list of moves, and
when the move comes with its target. The question offers what the list has (`Game.Aims`), with one
exception: whoever has a single coin is asked for a conversion of anybody alive, and can only pay
the own one.
-/

namespace CoupTable

namespace Move

variable {m : Move}

/-! ## Aiming -/

/-- The move against somebody. -/
def aimedAt (m : Move) (target : Nat) : Move :=
  match m with
  | coup _ => coup (some target)
  | assassinate _ => assassinate (some target)
  | steal _ => steal (some target)
  | convert _ => convert (some target)
  | inspect _ => inspect (some target)
  | other => other

end Move

namespace Game

variable {g g' x : Game} {m listed : Move} {prompt : Message} {below : List Frame} {seat : Nat}
  {data : String}

/-- Who comes into question for a move that does not say against whom. -/
def candidates (g : Game) : Move → List Nat
  | .convert _ => g.livingSeats
  | _ => g.targets

/-- The moves on the list that are the move `m`, aimed at somebody. -/
def listedLike (g : Game) (m : Move) : List Move :=
  g.turnMoves.filter (·.command == m.command)

/-- The question for a target goes to everyone, with a button for everybody who comes into
question. -/
theorem CanAim.aiming_offers (h : g.CanAim m) : ∃ prompt : Message,
    prompt.recipient = .everyone ∧ g.aiming m = g.said [prompt] ∧
      prompt.offers = (g.candidates m).map fun target => (m.aimedAt target).data := by
  have hm := h.lacksTarget
  unfold Move.lacksTarget at hm
  split at hm
  case h_6 => cases hm
  all_goals
    refine ⟨_, rfl, rfl, ?_⟩
    simp [Message.offers, candidates, Move.aimedAt, Function.comp_def]

/-- Whoever is asked about another move than a coup need not make one. -/
theorem CanAim.coins_lt (h : g.CanAim m) (hm : m ≠ .coup none) :
    g.coinsOf g.current < forcedCoupCoins := by
  unfold CanAim at h
  split at h
  next => exact absurd rfl hm
  next => exact h.1
  next => exact h
  next => exact h.1
  next => exact h.1
  next => exact h.elim

/-- Whatever the current player can be asked about is on the list for everybody who comes into
question, unless it is a conversion. -/
theorem CanAim.listedLike_eq (h : g.CanAim m) (hm : m ≠ .convert none) :
    g.listedLike m = (g.candidates m).map m.aimedAt := by
  have hlacks := h.lacksTarget
  unfold listedLike turnMoves
  cases m with
  | coup target =>
    cases target with
    | some target => cases hlacks
    | none =>
      simp only [CanAim] at h
      simp [apply_ite (List.filter _), List.filter_map, Function.comp_def, Move.command, candidates,
        Move.aimedAt, h]
  | assassinate target | steal target | inspect target =>
    cases target with
    | some target => cases hlacks
    | none =>
      have hpoor := Nat.not_le.2 (h.coins_lt (by simp))
      simp only [CanAim] at h
      simp [apply_ite (List.filter _), List.filter_map, Function.comp_def, Move.command, candidates,
        Move.aimedAt, h, hpoor]
  | convert target =>
    cases target with
    | some target => cases hlacks
    | none => exact absurd rfl hm
  | _ => cases hlacks

/-- Conversions are on the list for everybody who is alive and whose conversion the current player
can pay. -/
theorem CanAim.listedLike_convert (h : g.CanAim (.convert none)) :
    g.listedLike (.convert none) =
      (g.livingSeats.filter fun target => conversionCost g.current target ≤ g.coinsOf g.current).map
        (Move.convert none).aimedAt := by
  have hpoor := Nat.not_le.2 (h.coins_lt nofun)
  obtain ⟨-, hsides, -⟩ := h
  unfold listedLike turnMoves
  simp [apply_ite (List.filter _), List.filter_map, Function.comp_def, Move.command, Move.aimedAt,
    hpoor, hsides]

/-- Whatever the current player can be asked about is on the list for everybody who comes into
question, unless it is a conversion and there is a single coin to pay for it. -/
theorem CanAim.listedLike_of_not (h : g.CanAim m)
    (hm : ¬ (m = .convert none ∧ g.coinsOf g.current = 1)) :
    g.listedLike m = (g.candidates m).map m.aimedAt := by
  by_cases hconvert : m = .convert none
  · subst hconvert
    -- Nobody's conversion costs more than two coins.
    have hcoins : 2 ≤ g.coinsOf g.current := by
      have hpos := h.2.2
      have hne : g.coinsOf g.current ≠ 1 := fun hone => hm ⟨rfl, hone⟩
      omega
    have hpays : ∀ target, conversionCost g.current target ≤ g.coinsOf g.current := by
      intro target
      unfold conversionCost
      split <;> omega
    rw [h.listedLike_convert, List.filter_eq_self.2 fun target _ => decide_eq_true (hpays target)]
    rfl
  · exact h.listedLike_eq hconvert

/-- With a single coin a living player can only convert himself. -/
theorem CanAim.listedLike_single (h : g.CanAim (.convert none)) (hcoins : g.coinsOf g.current = 1)
    (hlives : g.isAlive g.current = true) :
    g.listedLike (.convert none) = [.convert (some g.current)] := by
  have hnodup : g.livingSeats.Nodup := List.nodup_range.filter _
  have hpays : ∀ target, decide (conversionCost g.current target ≤ g.coinsOf g.current)
      = (target == g.current) := by
    intro target
    rw [hcoins, conversionCost]
    by_cases hsame : g.current = target
    · simp [hsame]
    · simp [hsame, Ne.symm hsame]
  rw [h.listedLike_convert]
  simp only [hpays]
  rw [List.filter_beq, List.count_eq_one_of_mem hnodup (mem_livingSeats.2 hlives)]
  rfl

/-! ## The next press -/

/-- A move that can be made against somebody is made against a living player. -/
theorem CanTake.isAlive_arg (h : g.CanTake m) (harg : m.arg = some seat) :
    g.isAlive seat = true := by
  cases m with
  | coup target | assassinate target | steal target | inspect target =>
    subst harg
    have htarget : g.isTarget g.current seat = true := by
      simp only [CanTake] at h
      grind
    exact (isTarget_iff.1 htarget).2.1
  | convert target =>
    subst harg
    exact h.2.2.1
  | income | foreignAid | tax | exchange | embezzle => cases harg
  | _ => exact h.elim

/-- The data of a move whose number is the seat of a living player stands for the move. -/
theorem AtRest.parse?_of_isAlive (h : g.AtRest)
    (hm : ∀ seat, m.arg = some seat → g.isAlive seat = true) : Move.parse? m.data = some m := by
  refine Move.parse?_data fun seat hseat => ?_
  calc
    seat < g.players.length := lt_of_isAlive (hm seat hseat)
    _ ≤ maxPlayers := h.seats
    _ < Text.wordLimit := by decide

/-- The current player's move takes effect: it is a step of the turn, and once the game has settled
the board has changed, unless the alarm of a claim would ring after the end of the clock. -/
def Starts (g : Game) (m : Move) : Prop :=
  ∃ x, g.dispatch g.current m = .ok x ∧ Step g (.press g.current m) x ∧
    ((g.press g.current m.data = .error .clockOverflow ∧
        clockEnd ≤ g.venue.alarms.now + g.waitTime) ∨
      ∃ g', g.press g.current m.data = .ok g' ∧ Settles x g' ∧ ¬ g.SameBoard g')

/-- The moves on the list of a turn take effect. -/
theorem Reachable.starts (h : Reachable g) (hover : g.isOver = false)
    (hf : g.stack.frames = .turn :: below) (hmem : m ∈ g.turnMoves) : g.Starts m := by
  have hrest := h.atRest
  have hlisted : (g.current, m) ∈ g.moves := by
    rw [moves_eq hover hf]
    exact List.mem_map_of_mem hmem
  have hcan := mem_turnMoves.1 hmem
  have haccept : m ≠ .accept := by
    rintro rfl
    exact hcan
  have hgoes : g.stack.frames = [.turn] → g.isFinished = false := fun hf =>
    (h.isFinished_eq hf).trans hover
  obtain ⟨x, hdispatch, hstep, -, hpress⟩ :=
    hrest.press_of_mem_moves hlisted (hrest.parse?_of_isAlive fun _ => hcan.isAlive_arg)
  have hsettles := hstep.settle_rests hrest hover
  refine ⟨x, hdispatch, hstep, ?_⟩
  rw [hpress]
  cases hsettle : x.settle with
  | ok g' =>
    rw [hsettle] at hsettles
    exact .inr ⟨g', rfl, hsettles.2.2, hstep.not_sameBoard hrest hgoes hlisted haccept hsettle⟩
  | error fault =>
    rw [hsettle] at hsettles
    obtain ⟨rfl, hlate⟩ := hsettles
    exact .inl ⟨rfl, hlate⟩

/-- A move against somebody that is not on the list of a turn is ignored. -/
theorem AtRest.press_of_not_mem_turnMoves (h : g.AtRest) (hover : g.isOver = false)
    (hf : g.stack.frames = .turn :: below) (hdata : Move.parse? data = some m)
    (hnot : m ∉ g.turnMoves) (hm : m.lacksTarget = false) : g.press g.current data = .ok g := by
  have hunlisted : (g.current, m) ∉ g.moves := by
    rw [moves_eq hover hf]
    intro hmem
    obtain ⟨m', hmem, heq⟩ := List.mem_map.1 hmem
    cases heq
    exact hnot hmem
  rcases h.press_of_not_mem hover hdata hunlisted with hstay | ⟨c, below', -, hf', -⟩ | ⟨-, -, hcan⟩
  · exact hstay
  · cases hf.symm.trans hf'
  · cases hm.symm.trans hcan.lacksTarget

/-! ## The result -/

/-- A game that is over ignores presses. -/
theorem press_of_isOver (hover : g.isOver = true) : g.press seat data = .ok g := by
  unfold press
  rw [hover, Bool.not_true, Bool.and_false, if_neg Bool.false_ne_true]

/-- When the current player presses a move that does not say against whom, in a reachable game at
the beginning of a turn, and that is not ignored, then everybody is told one question. Its buttons
have the data of the moves on the list with the same command, in order, and each of these takes
effect when the player presses it next. There is one exception: with a single coin, the question
whom to convert has a button for everybody who is alive, while only the own conversion is on the
list, and the others are ignored. -/
theorem Reachable.targets_offered (h : Reachable g) (hf : g.stack.frames = .turn :: below)
    (hdata : Move.parse? data = some m) (hm : m.lacksTarget = true)
    (hpress : g.press g.current data = .ok g') (hasked : g' ≠ g) :
    ∃ prompt : Message, prompt.recipient = .everyone ∧ g' = g.said [prompt] ∧
      (∀ listed ∈ g.listedLike m, listed.data ∈ prompt.offers ∧ g'.Starts listed) ∧
      (¬ (m = .convert none ∧ g.coinsOf g.current = 1) →
        prompt.offers = (g.listedLike m).map (·.data)) ∧
      (m = .convert none → g.coinsOf g.current = 1 →
        prompt.offers = g.livingSeats.map (fun seat => (Move.convert (some seat)).data) ∧
        g.listedLike m = [.convert (some g.current)] ∧
        ∀ seat, g.isAlive seat = true → seat ≠ g.current →
          g'.press g'.current (Move.convert (some seat)).data = .ok g') := by
  have hrest := h.atRest
  have hg' : Reachable g' := h.fed (i := .press g.current data) hpress
  have hover : g.isOver = false := by
    by_contra hover
    rw [press_of_isOver (Bool.not_eq_false _ ▸ hover)] at hpress
    exact hasked (Except.ok.inj hpress).symm
  obtain ⟨hasks, hstays⟩ := hrest.press_of_lacksTarget hover hdata hm (underWay_of_turn hf)
  have hcan : g.CanAim m := by
    by_contra hcannot
    exact hasked (Except.ok.inj ((hstays hcannot).symm.trans hpress)).symm
  have hlives := hrest.awake hf
  obtain ⟨prompt, hrecipient, haiming, hoffers⟩ := hcan.aiming_offers
  have heq : g' = g.said [prompt] := by
    rw [← haiming]
    exact Except.ok.inj (hpress.symm.trans (hasks hcan))
  subst heq
  have hsame : ¬ (m = .convert none ∧ g.coinsOf g.current = 1) →
      prompt.offers = (g.listedLike m).map (·.data) := by
    intro hnot
    rw [hoffers, hcan.listedLike_of_not hnot, List.map_map]
    rfl
  refine ⟨prompt, hrecipient, rfl, fun listed hlisted => ⟨?_, ?_⟩, hsame, ?_⟩
  · by_cases hone : m = .convert none ∧ g.coinsOf g.current = 1
    · obtain ⟨rfl, hcoins⟩ := hone
      rw [hcan.listedLike_single hcoins hlives, List.mem_singleton] at hlisted
      subst hlisted
      rw [hoffers]
      exact List.mem_map_of_mem (mem_livingSeats.2 hlives)
    · rw [hsame hone]
      exact List.mem_map_of_mem hlisted
  · exact hg'.starts hover hf (List.mem_filter.1 hlisted).1
  · rintro rfl hcoins
    refine ⟨hoffers, hcan.listedLike_single hcoins hlives, fun seat hseat hne => ?_⟩
    have hparse : Move.parse? (Move.convert (some seat)).data = some (.convert (some seat)) :=
      hrest.parse?_of_isAlive fun _ harg => Option.some.inj harg ▸ hseat
    refine hg'.atRest.press_of_not_mem_turnMoves hover hf hparse (fun hmem => ?_) rfl
    -- Another player's conversion costs two coins.
    obtain ⟨-, -, -, hcost⟩ := mem_turnMoves.1 hmem
    change conversionCost g.current seat ≤ g.coinsOf g.current at hcost
    rw [hcoins, conversionCost, if_neg (Ne.symm hne)] at hcost
    exact absurd hcost (by decide)

/-- Ada, who is a loyalist like Cid, is asked whom to rob, and can only rob Bob. -/
theorem targets_offered_steal : ∃ g g' prompt,
    playOut ["Ada", "Bob", "Cid"]
        { seed := some 0, startPlayer := some 0, variant := some .reformation } []
        = some g ∧
      g.press 0 "steal" = .ok g' ∧ g' = g.said [prompt] ∧ prompt.offers = ["steal:1"] ∧
      g'.Starts (.steal (some 1)) := by
  have hrun : ((playOut ["Ada", "Bob", "Cid"]
      { seed := some 0, startPlayer := some 0, variant := some .reformation } []).bind fun g =>
        (g.press 0 "steal").toOption.map fun g' =>
          ((g.stack.frames, g.current), g.listedLike (.steal none),
            g'.venue.outbox.length - g.venue.outbox.length))
      = some (([.turn], 0), [.steal (some 1)], 1) := by
    decide +kernel
  have hsteal : Move.parse? "steal" = some (.steal none) := by decide +kernel
  obtain ⟨g, hg, hrun⟩ := Option.bind_eq_some_iff.1 hrun
  obtain ⟨g', hg', hrun⟩ := Option.map_eq_some_iff.1 hrun
  simp only [Prod.mk.injEq] at hrun
  obtain ⟨⟨hf, hcurrent⟩, hlisted, hsent⟩ := hrun
  have hpress := eq_ok_of_toOption hg'
  have hasked : g' ≠ g := by
    rintro rfl
    cases (Nat.sub_self _).symm.trans hsent
  obtain ⟨prompt, -, heq, hstarts, hoffers, -⟩ :=
    (reachable_of_playOut hg).targets_offered hf hsteal rfl (hcurrent.symm ▸ hpress) hasked
  rw [hlisted] at hstarts hoffers
  have hoffers := hoffers fun hconvert => nomatch hconvert.1
  have hstarts := (hstarts _ (List.mem_singleton.2 rfl)).2
  exact ⟨g, g', prompt, hg, hpress, heq, hoffers, hstarts⟩

/-- Ada has a single coin and is asked whom to convert, with a button for Bob, whose conversion is
not on the list: when she presses it, nothing happens. -/
theorem conversion_offered_unpaid : ∃ g g' prompt,
    playOut ["Ada", "Bob"]
        { seed := some 1, startPlayer := some 0, variant := some .reformation } [] = some g ∧
      Reachable g ∧ g.stack.frames = [.turn] ∧ g.current = 0 ∧ g.coinsOf 0 = 1 ∧
      g.press 0 "convert" = .ok g' ∧ g'.venue.lastBroadcast? = some prompt ∧
      prompt.offers = ["convert:0", "convert:1"] ∧
      (g'.turnMoves.filter (·.command == "convert")).map (·.data) = ["convert:0"] ∧
      g'.press 0 "convert:1" = .ok g' := by
  have hrun : ((playOut ["Ada", "Bob"]
      { seed := some 1, startPlayer := some 0, variant := some .reformation } []).bind fun g =>
        (g.press 0 "convert").toOption.bind fun g' => g'.venue.lastBroadcast?.map fun prompt =>
          ((g.stack.frames, g.current, g.coinsOf 0), prompt.offers,
            (g'.turnMoves.filter (·.command == "convert")).map (·.data),
            (g'.press 0 "convert:1").toOption == some g'))
      = some (([.turn], 0, 1), ["convert:0", "convert:1"], ["convert:0"], true) := by
    decide +kernel
  obtain ⟨g, hg, hrun⟩ := Option.bind_eq_some_iff.1 hrun
  obtain ⟨g', hg', hrun⟩ := Option.bind_eq_some_iff.1 hrun
  obtain ⟨prompt, hprompt, hrun⟩ := Option.map_eq_some_iff.1 hrun
  simp only [Prod.mk.injEq, beq_iff_eq] at hrun
  obtain ⟨⟨hf, hcurrent, hcoins⟩, hoffers, hlisted, hstay⟩ := hrun
  exact ⟨g, g', prompt, hg, reachable_of_playOut hg, hf, hcurrent, hcoins, eq_ok_of_toOption hg',
    hprompt, hoffers, hlisted, eq_ok_of_toOption hstay⟩

end Game

end CoupTable
