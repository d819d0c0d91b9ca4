import CoupTable.Game.Moves
import CoupTable.Proofs.Basics

/-!
# The moves that a game waits for

Which moves are on the list of a game, frame by frame: whose they are, and what it takes to make
them. The rules of a turn come down to `Game.CanTake`.
-/

namespace CoupTable.Game

variable {g : Game} {c : Claim} {r : Reveal} {i : Interrogation} {f : Frame} {below : List Frame}
  {seat other : Nat} {m : Move} {p : Player}

/-! ## Frames -/

/-- The moves that a frame on top waits for. -/
def movesFor (g : Game) : Frame → List (Nat × Move)
  | .variantChoice =>
    g.seats.flatMap fun seat => Variant.all.map fun v => (seat, .gameType v.index)
  | .turn => g.turnMoves.map fun m => (g.current, m)
  | .loss loser => g.slotMoves loser .lose
  | .claim c => (g.livingSeats.filter (· != c.actor)).flatMap (g.claimMoves c)
  | .reveal r => g.revealMoves r
  | .exchange e => (List.range e.offered.length).map fun index => (e.player, .keep index)
  | .interrogation i => g.interrogationMoves i

/-- A game that is not over waits for what the frame on top waits for. -/
theorem moves_eq (hover : g.isOver = false) (hf : g.stack.frames = f :: below) :
    g.moves = g.movesFor f := by
  unfold moves Stack.top?
  rw [hover, hf]
  cases f <;> rfl

/-- A game that is over waits for nothing. -/
theorem isOver_of_mem_moves (h : (seat, m) ∈ g.moves) : g.isOver = false := by
  cases hover : g.isOver with
  | false => rfl
  | true =>
    rw [moves, if_pos hover] at h
    cases h

/-- What a game waits for the frame on top waits for. -/
theorem mem_movesFor (h : (seat, m) ∈ g.moves) (hf : g.stack.frames = f :: below) :
    (seat, m) ∈ g.movesFor f := by
  rwa [moves_eq (isOver_of_mem_moves h) hf] at h

/-! ## Cards -/

/-- A player's moves about the own living cards. -/
theorem mem_slotMoves {make : Nat → Move} : (other, m) ∈ g.slotMoves seat make ↔
    other = seat ∧ ∃ slot, g.livesAt seat slot = true ∧ m = make slot := by
  unfold slotMoves livesAt
  cases g.players[seat]? with
  | none => simp
  | some p =>
    simp only [List.mem_map, Prod.mk.injEq, Player.mem_livingSlots, Option.any_some]
    constructor
    · rintro ⟨slot, hlives, rfl, rfl⟩
      exact ⟨rfl, slot, hlives, rfl⟩
    · rintro ⟨rfl, slot, hlives, rfl⟩
      exact ⟨slot, hlives, rfl, rfl⟩

/-- A challenged player reveals a living card, or, having claimed *not* to have something, concedes
or shows the hand. -/
theorem mem_revealMoves (hp : g.players[r.challenged]? = some p) :
    (seat, m) ∈ g.revealMoves r ↔ seat = r.challenged ∧
      if r.inverted then m = .reveal 0 ∨ m = .reveal 1 ∧ p.holds r.clans = false
      else ∃ slot, p.hasLiving slot = true ∧ m = .reveal slot := by
  unfold revealMoves
  cases r.inverted with
  | false =>
    simp only [Bool.false_eq_true, if_false, mem_slotMoves, livesAt_eq hp]
  | true =>
    rw [hp]
    cases hholds : p.holds r.clans <;> simp [hholds, and_or_left]

/-- The target of an interrogation shows a living card, and then the inquisitor decides. -/
theorem mem_interrogationMoves : (seat, m) ∈ g.interrogationMoves i ↔
    (i.shown = none ∧ seat = i.target ∧ ∃ slot, g.livesAt i.target slot = true ∧
      m = .showCard slot) ∨
    (i.shown ≠ none ∧ seat = i.inquisitor ∧ ∃ allowed, m = .canKeep allowed) := by
  unfold interrogationMoves
  cases i.shown with
  | none => simp [mem_slotMoves]
  | some slot => simp [and_or_left, or_comm]

/-- A player who exchanges cards keeps one of those on offer. -/
theorem mem_movesFor_exchange {e : Exchange} : (seat, m) ∈ g.movesFor (.exchange e) ↔
    seat = e.player ∧ ∃ index < e.offered.length, m = .keep index := by
  simp only [movesFor, List.mem_map, List.mem_range, Prod.mk.injEq]
  constructor
  · rintro ⟨index, hlt, rfl, rfl⟩
    exact ⟨rfl, index, hlt, rfl⟩
  · rintro ⟨rfl, index, hlt, rfl⟩
    exact ⟨index, hlt, rfl, rfl⟩

/-! ## Claims -/

/-- A player's moves about a claim. -/
theorem mem_claimMoves : (other, m) ∈ g.claimMoves c seat ↔ other = seat ∧
    (m = .accept ∨ (m = .challenge ∧ c.challengeable = true) ∨
      (m = .block ∧ c.blockable = true ∧ g.canBlock c seat = true)) := by
  unfold claimMoves
  cases c.challengeable <;> cases c.blockable <;> cases g.canBlock c seat <;>
    simp [and_or_left]

/-- All living players but the own one may have a say about a claim. -/
theorem mem_movesFor_claim : (seat, m) ∈ g.movesFor (.claim c) ↔
    seat ≠ c.actor ∧ g.isAlive seat = true ∧
    (m = .accept ∨ (m = .challenge ∧ c.challengeable = true) ∨
      (m = .block ∧ c.blockable = true ∧ g.canBlock c seat = true)) := by
  rw [movesFor, List.mem_flatMap]
  constructor
  · rintro ⟨other, hother, hmem⟩
    obtain ⟨rfl, hmove⟩ := mem_claimMoves.1 hmem
    obtain ⟨hliving, hne⟩ := List.mem_filter.1 hother
    exact ⟨bne_iff_ne.1 hne, (List.mem_filter.1 hliving).2, hmove⟩
  · rintro ⟨hne, hlives, hmove⟩
    refine ⟨seat, List.mem_filter.2 ⟨?_, bne_iff_ne.2 hne⟩, mem_claimMoves.2 ⟨rfl, hmove⟩⟩
    exact List.mem_filter.2 ⟨List.mem_range.2 (lt_of_isAlive hlives), hlives⟩

/-! ## Turns -/

/-- What it takes for a move at the beginning of a turn. -/
def CanTake (g : Game) : Move → Prop
  | .coup (some target) => coupCost ≤ g.coinsOf g.current ∧ g.isTarget g.current target = true
  | .income | .foreignAid | .tax | .exchange => g.coinsOf g.current < forcedCoupCoins
  | .embezzle => g.coinsOf g.current < forcedCoupCoins ∧ g.isReformation = true
  | .assassinate (some target) => g.coinsOf g.current < forcedCoupCoins ∧
      assassinationCost ≤ g.coinsOf g.current ∧ g.isTarget g.current target = true
  | .steal (some target) =>
      g.coinsOf g.current < forcedCoupCoins ∧ g.isTarget g.current target = true
  | .convert (some target) => g.coinsOf g.current < forcedCoupCoins ∧ g.isReformation = true ∧
      g.isAlive target = true ∧ conversionCost g.current target ≤ g.coinsOf g.current
  | .inspect (some target) => g.coinsOf g.current < forcedCoupCoins ∧ g.usesInquisitor = true ∧
      g.isTarget g.current target = true
  | _ => False

/-- Every move but a coup takes fewer coins than force one. -/
theorem CanTake.coins_lt (h : g.CanTake m) (hm : ∀ target, m ≠ .coup target) :
    g.coinsOf g.current < forcedCoupCoins := by
  cases m with
  | coup target => exact absurd rfl (hm target)
  | income | foreignAid | tax | exchange => exact h
  | embezzle => exact h.1
  | assassinate target | steal target | convert target | inspect target =>
    cases target with
    | none => exact h.elim
    | some target => exact h.1
  | _ => exact h.elim

/-- Those whom the current player may move against. -/
theorem mem_targets : seat ∈ g.targets ↔ g.isTarget g.current seat = true := by
  unfold targets seats
  rw [List.mem_filter, List.mem_range, and_iff_right_iff_imp]
  intro h
  simp only [isTarget, Bool.and_eq_true] at h
  exact lt_of_isAlive h.1.2

/-- A living player is among those who are alive. -/
theorem mem_livingSeats : seat ∈ g.livingSeats ↔ g.isAlive seat = true := by
  unfold livingSeats seats
  rw [List.mem_filter, List.mem_range, and_iff_right_iff_imp]
  exact lt_of_isAlive

/-- The moves against those whom the current player may move against. -/
theorem mem_against {make : Option Nat → Move} :
    m ∈ g.targets.map (fun target => make (some target)) ↔
      ∃ target, g.isTarget g.current target = true ∧ make (some target) = m := by
  simp only [List.mem_map, mem_targets]

/-- The moves of a turn are those for which the current player has what it takes. -/
theorem mem_turnMoves : m ∈ g.turnMoves ↔ g.CanTake m := by
  unfold turnMoves
  dsimp only
  by_cases hrich : forcedCoupCoins ≤ g.coinsOf g.current
  · have hcost : coupCost ≤ g.coinsOf g.current := Nat.le_trans (by decide) hrich
    rw [if_pos hrich, mem_against]
    cases m with
    | coup target | assassinate target | steal target | convert target | inspect target =>
      cases target <;> simp [CanTake, hrich, hcost]
    | _ => simp [CanTake, hrich]
  · rw [if_neg hrich]
    have hfew := Nat.lt_of_not_le hrich
    simp only [List.mem_append, List.mem_cons, List.mem_ite_nil_right, List.mem_map, mem_targets,
      List.mem_filter, mem_livingSeats]
    cases m with
    | coup target | assassinate target | steal target | convert target | inspect target =>
      cases target <;> simp [CanTake, hfew]
    | _ => simp [CanTake, hfew]

end CoupTable.Game
