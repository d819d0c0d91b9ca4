import CoupTable.Proofs.Calls

/-!
# Where the money goes

While a turn is under way, the only thing that moves coins is a claim that goes through. What it
moves is `Effect.gain`, as an integer for every seat: the assassin has the coins, so that the
truncated subtraction of the game is a subtraction.
-/

namespace CoupTable

/-- How a claim of the current player can end. -/
inductive Outcome where
  /-- The claim goes through. -/
  | granted
  /-- The claim is challenged, and its player does not prove it. -/
  | caught
  /-- The claim is blocked. -/
  | blocked
deriving DecidableEq, Repr

namespace Effect

/-- The coins that a player in a seat gains through a claim of `actor` to the effect, given the
table as it is when the claim is made. -/
def gain (g : Game) (actor : Nat) (effect : Effect) (outcome : Outcome) (seat : Nat) : Int :=
  match outcome, effect with
  | .granted, foreignAid => if seat = actor then 2 else 0
  | .granted, tax => if seat = actor then 3 else 0
  | .granted, embezzle => if seat = actor then g.treasury else 0
  | .granted, steal target =>
    if seat = actor then min 2 (g.coinsOf target)
    else if seat = target then -(min 2 (g.coinsOf target) : Nat) else 0
  | .granted, assassinate _ | .blocked, assassinate _ => if seat = actor then -3 else 0
  | _, _ => 0

/-- The coins that the treasury gains through a claim to the effect. -/
def treasuryGain (g : Game) (effect : Effect) (outcome : Outcome) : Int :=
  match outcome, effect with
  | .granted, embezzle => -g.treasury
  | _, _ => 0

end Effect

namespace Game

variable {g g' g₁ : Game} {cause : Cause} {seat other : Nat} {p q : Player} {effect : Effect}
  {f : Frame} {below : List Frame}

/-! ## The same money -/

/-- Everybody has the same coins at two tables, and so has the treasury. -/
structure SameMoney (g g' : Game) : Prop where
  /-- The coins of every seat are the same. -/
  coins : ∀ seat, g'.coinsOf seat = g.coinsOf seat
  /-- The treasury is the same. -/
  treasury : g'.treasury = g.treasury

namespace SameMoney

/-- A table has the same money as itself. -/
theorem refl (g : Game) : g.SameMoney g := ⟨fun _ => rfl, rfl⟩

/-- The money stays the same over several steps. -/
theorem trans (h : g.SameMoney g₁) (h' : g₁.SameMoney g') : g.SameMoney g' :=
  ⟨fun seat => (h'.coins seat).trans (h.coins seat), h'.treasury.trans h.treasury⟩

/-- With the same players and treasury the money is the same. -/
theorem of_eq (hps : g'.players = g.players) (htreasury : g'.treasury = g.treasury) :
    g.SameMoney g' :=
  ⟨fun seat => by rw [coinsOf, coinsOf, hps], htreasury⟩

end SameMoney

/-- Nothing is paid in a lull. -/
theorem Lull.sameMoney (h : g.Lull g') : g.SameMoney g' := by
  obtain ⟨_, _, _, rfl⟩ := h
  exact .of_eq rfl rfl

/-! ## One player changed -/

/-- Where one player is changed, what is counted for the players changes for that one. -/
theorem getD_of_set (count : Player → Nat) (hp : g.players[seat]? = some p)
    (hps : g'.players = g.players.set seat q) (other : Nat) :
    (g'.players[other]?.map count).getD 0
      = if other = seat then count q else (g.players[other]?.map count).getD 0 := by
  obtain ⟨hlt, -⟩ := List.getElem?_eq_some_iff.1 hp
  rw [hps]
  split
  next heq =>
    subst heq
    rw [List.getElem?_set_self hlt]
    rfl
  next hne => rw [List.getElem?_set_ne (Ne.symm hne)]

/-- Where one player is changed, the coins of that one change. -/
theorem coinsOf_of_set (hp : g.players[seat]? = some p) (hps : g'.players = g.players.set seat q)
    (other : Nat) : g'.coinsOf other = if other = seat then q.coins else g.coinsOf other :=
  getD_of_set (·.coins) hp hps other

/-- A player who is changed, but not in coins, leaves the money as it is. -/
theorem SameMoney.of_set (hp : g.players[seat]? = some p) (hps : g'.players = g.players.set seat q)
    (hcoins : q.coins = p.coins) (htreasury : g'.treasury = g.treasury) : g.SameMoney g' := by
  refine ⟨fun other => ?_, htreasury⟩
  rw [coinsOf_of_set hp hps]
  split
  next heq => rw [hcoins, heq, coinsOf_eq hp]
  next => rfl

/-! ## Claims that go through -/

/-- What a claim moves, when it goes through, depends on the money alone. -/
theorem SameMoney.gain_eq (h : g.SameMoney g') (actor : Nat) (effect : Effect) (outcome : Outcome)
    (seat : Nat) : effect.gain g' actor outcome seat = effect.gain g actor outcome seat := by
  unfold Effect.gain
  simp only [h.treasury, h.coins]

/-- What the treasury gains depends on the money alone. -/
theorem SameMoney.treasuryGain_eq (h : g.SameMoney g') (effect : Effect) (outcome : Outcome) :
    effect.treasuryGain g' outcome = effect.treasuryGain g outcome := by
  unfold Effect.treasuryGain
  rw [h.treasury]

/-- A claim that goes through moves what its effect says, and nothing else. -/
theorem Grant.money (h : Grant g seat effect g') (hne : effect ≠ .block)
    (hcoins : ∀ target, effect = .assassinate target → assassinationCost ≤ g.coinsOf seat) :
    (∀ other, (g'.coinsOf other : Int) = g.coinsOf other + effect.gain g seat .granted other) ∧
      (g'.treasury : Int) = g.treasury + effect.treasuryGain g .granted := by
  cases h with
  | foreignAid hp | tax hp | embezzle hp =>
    constructor
    · intro other
      rw [coinsOf_of_set hp rfl]
      unfold Effect.gain
      have hcoins := coinsOf_eq hp
      split
      next heq =>
        subst heq
        dsimp only
        omega
      next => simp
    · simp [Effect.treasuryGain]
  | assassinate hp | assassinateDead hp =>
    have hpays := hcoins _ rfl
    rw [coinsOf_eq hp] at hpays
    constructor
    · intro other
      rw [coinsOf_of_set hp rfl]
      unfold Effect.gain
      have hcoins := coinsOf_eq hp
      split
      next heq =>
        subst heq
        -- the assassin can pay, so nothing is truncated
        dsimp only
        unfold assassinationCost at hpays ⊢
        omega
      next => simp
    · simp [Effect.treasuryGain]
  | @steal p q ms target hp hq hne' =>
    obtain ⟨robbed, hps⟩ : ∃ robbed : Game,
        robbed.players = g.players.set target { q with coins := q.coins - min q.coins 2 } :=
      ⟨{ g with players := _ }, rfl⟩
    have hp' : robbed.players[seat]? = some p := by
      rw [hps, List.getElem?_set_ne hne', hp]
    constructor
    · intro other
      rw [coinsOf_of_set (g := robbed) hp' (by rw [hps]), coinsOf_of_set hq hps]
      unfold Effect.gain
      have hseat := coinsOf_eq hp
      have htarget := coinsOf_eq hq
      split
      next heq =>
        subst heq
        dsimp only
        omega
      next hseat' =>
        split
        next heq =>
          subst heq
          dsimp only
          rw [if_pos rfl]
          omega
        next htarget' => simp [htarget']
    · simp [Effect.treasuryGain]
  | exchange | inspect | inspectDead =>
    exact ⟨fun other => (Int.add_zero _).symm, (Int.add_zero _).symm⟩
  | block | blockKill => exact absurd rfl hne

/-- A block that goes through moves what the claim below says, when it is blocked. -/
theorem Grant.money_of_block {c : Claim} (h : Grant g seat .block g')
    (hf : g.stack.frames = .claim c :: below)
    (hcoins : ∀ target, c.effect = .assassinate target →
      assassinationCost ≤ g.coinsOf c.actor) :
    (∀ other, (g'.coinsOf other : Int)
        = g.coinsOf other + c.effect.gain g c.actor .blocked other) ∧
      (g'.treasury : Int) = g.treasury + c.effect.treasuryGain g .blocked := by
  cases h with
  | block hf' hspared =>
    rw [hf] at hf'
    cases hf'
    -- The claim is no assassination, and costs nothing when it is blocked.
    have hnothing : ∀ other, c.effect.gain g c.actor .blocked other = 0 := by
      intro other
      cases he : c.effect with
      | assassinate target => exact absurd he (hspared target)
      | _ => rfl
    refine ⟨fun other => ?_, (Int.add_zero _).symm⟩
    rw [hnothing, Int.add_zero]
    rfl
  | blockKill hf' he hp =>
    rw [hf] at hf'
    cases hf'
    -- An assassin pays for a blocked assassination as well.
    have hpays := hcoins _ he
    rw [coinsOf_eq hp] at hpays
    refine ⟨fun other => ?_, (Int.add_zero _).symm⟩
    rw [coinsOf_of_set hp rfl, he]
    unfold Effect.gain
    have hcoins := coinsOf_eq hp
    split
    next heq =>
      subst heq
      dsimp only
      unfold assassinationCost at hpays ⊢
      omega
    next => simp

/-! ## Steps under way -/

/-- Whether a turn is under way, so that the frame on top is not the turn itself. -/
def underWay (g : Game) : Bool := g.stack.top? != some .turn

/-- With the turn on top no turn is under way. -/
theorem underWay_of_turn (hf : g.stack.frames = .turn :: below) : g.underWay = false := by
  rw [underWay, Stack.top?, hf]
  rfl

/-- An answer to a challenge costs no money. -/
theorem Answer.sameMoney {r : Reveal} {c : Claim} {choice : Nat}
    (h : Answer g r c below choice g') : g.SameMoney g' := by
  cases h with
  | proven hp | shown hp => exact .of_set hp rfl (by rw [Player.redraw_eq]) rfl
  | caught hp => exact .of_set hp rfl rfl rfl
  | conceded => exact .of_eq rfl rfl

/-- While a turn is under way, the only step that moves money is that of a claim that goes
through. -/
theorem Step.sameMoney_or_grant (h : g.Sound) (hstep : Step g cause g')
    (hvariant : g.variant ≠ none)
    (hpress : ∀ seat m, cause = .press seat m → g.underWay = true) :
    g.SameMoney g' ∨ ∃ c below venue, g.stack.frames = .claim c :: below ∧
      Grant { g with venue, stack := ⟨below⟩, stirred := true } c.actor c.effect g' := by
  cases hstep with
  | deal hf => exact absurd (h.shape_of hf).variant_eq_none hvariant
  | income hf | coup hf | convert hf | claim hf | askTarget hf =>
    cases (underWay_of_turn hf).symm.trans (hpress _ _ rfl)
  | acceptLast hf _ hgrant | unopposed hf _ hgrant | timeOut hf _ hgrant =>
    exact .inr ⟨_, _, _, hf, hgrant⟩
  | answer _ hanswer | answerLast _ _ _ _ hanswer => exact .inl hanswer.sameMoney
  | lose _ hp | keepLast _ _ _ hp => exact .inl (.of_set hp rfl rfl rfl)
  | loseAll _ hp => exact .inl (.of_set hp rfl (by rw [Player.killAll_eq]) rfl)
  | change _ _ hp => exact .inl (.of_set hp rfl (by rw [Player.redraw_eq]) rfl)
  | pass | finish | accept | ask | challenge | block | dropDead | keep | showCard | showOnly
  | allow | askSomebody => exact .inl (.of_eq rfl rfl)

end Game

end CoupTable
