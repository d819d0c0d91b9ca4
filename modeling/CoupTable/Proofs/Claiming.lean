import CoupTable.Proofs.Arbitration
import CoupTable.Proofs.Continuing
import CoupTable.Proofs.Money

/-!
# What becomes of a claim

A claim of the current player lies on the turn until a call takes it off: it goes through, its
player is caught without the card, or a block goes through. `Call.outcome?` reads this off the frame
that was called. However often the claim is challenged, blocked and put to the table again, exactly
one call of a run decides it, and no other call moves money.
-/

namespace CoupTable

/-- The claim that a frame is about, unless it is a block. -/
def Frame.ownClaim? : Frame → Option Claim
  | claim c => if c.effect = .block then none else some c
  | turn | variantChoice | loss _ | reveal _ | exchange _ | interrogation _ => none

namespace Game

/-- The claim of the current player among some frames. -/
def ownClaimIn (frames : List Frame) : Option Claim := frames.findSome? (·.ownClaim?)

/-- The claim of the current player, as long as it lies on the stack. -/
def claim? (g : Game) : Option Claim := ownClaimIn g.stack.frames

/-- How a call ends the claim of the current player, if it takes it off the stack: the claim itself
is called and goes through, a challenge is called and its answer drops the claim, or a block is
called and goes through. -/
def Call.outcome? (k : Call) : Option Outcome :=
  if k.before.claim?.isSome && k.after.claim?.isNone then
    match k.before.stack.top? with
    | some (.claim c) => some (if c.effect = .block then .blocked else .granted)
    | some (.reveal _) => some .caught
    | _ => none
  else none

/-- What a step does that ends the claim `c` of the current player. -/
inductive Decided (g : Game) (c : Claim) : Outcome → Game → Prop where
  /-- The claim goes through. -/
  | granted {g' : Game} (venue : Venue) (hf : g.stack.frames = [.claim c, .turn])
      (h : Grant { g with venue, stack := ⟨[.turn]⟩, stirred := true } c.actor c.effect g') :
    Decided g c .granted g'
  /-- The claim is challenged, and the answer drops it. -/
  | caught {r choice} {g' : Game} (hf : g.stack.frames = [.reveal r, .claim c, .turn])
      (h : Answer g r c [.turn] choice g') (hdropped : g'.claim? = none) : Decided g c .caught g'
  /-- A block of the claim goes through. -/
  | blocked {b} {g' : Game} (venue : Venue) (hf : g.stack.frames = [.claim b, .claim c, .turn])
      (hb : b.Blocks c)
      (h : Grant { g with venue, stack := ⟨[.claim c, .turn]⟩, stirred := true } b.actor .block
        g') :
    Decided g c .blocked g'

variable {P : Game → Prop} {g g' x : Game} {cause : Cause} {c c₁ c₂ : Claim} {f : Frame}
  {frames below : List Frame} {outcome : Outcome} {effect : Effect} {k : Call} {ks : List Call}
  {inputs : List Input} {seat choice : Nat} {r : Reveal} {m : Move} {data : String}

/-! ## The claim on the stack -/

/-- A frame that is not about a claim hides none. -/
theorem ownClaimIn_cons (hf : f.ownClaim? = none) :
    ownClaimIn (f :: frames) = ownClaimIn frames := by
  rw [ownClaimIn, List.findSome?_cons, hf, ownClaimIn]

/-- A claim of the current player is the first that is found. -/
theorem ownClaimIn_own (hc : c.effect ≠ .block) : ownClaimIn (.claim c :: frames) = some c := by
  rw [ownClaimIn, List.findSome?_cons, Frame.ownClaim?, if_neg hc]

/-- A block hides no claim. -/
theorem ownClaimIn_block (hc : c.effect = .block) :
    ownClaimIn (.claim c :: frames) = ownClaimIn frames := by
  apply ownClaimIn_cons
  rw [Frame.ownClaim?, if_pos hc]

/-- A claim on top that is updated, but not in its effect and its player, leaves the claim of the
current player with the effect and the player it had. -/
theorem ownClaimIn_update (c₂ : Claim) (h : ownClaimIn (.claim c₁ :: frames) = some c)
    (heffect : c₂.effect = c₁.effect) (hactor : c₂.actor = c₁.actor) : ∃ c',
      ownClaimIn (.claim c₂ :: frames) = some c' ∧ c'.effect = c.effect ∧ c'.actor = c.actor := by
  by_cases hblock : c₁.effect = .block
  · rw [ownClaimIn_block hblock] at h
    exact ⟨c, by rw [ownClaimIn_block (heffect.trans hblock), h], rfl, rfl⟩
  · rw [ownClaimIn_own hblock] at h
    cases h
    exact ⟨c₂, ownClaimIn_own (heffect ▸ hblock), heffect, hactor⟩

/-- A game with the turn on top has no claim on the stack. -/
theorem Sound.claim?_of_turn (h : g.Sound) (hf : g.stack.frames = .turn :: below) :
    g.claim? = none := by
  rw [claim?, hf]
  cases h.shape_of hf with
  | turn => rfl

/-- Where a claim is on top, there is a claim of the current player. -/
theorem Pending.ownClaimIn_ne_none (h : g.Pending c below) :
    ownClaimIn (.claim c :: below) ≠ none := by
  cases h with
  | own hc => rw [ownClaimIn_own hc.ne_block]; exact nofun
  | block hc _ hb => rw [ownClaimIn_block hb.effect, ownClaimIn_own hc.ne_block]; exact nofun

/-- The claim of the current player is not a block. -/
theorem ne_block_of_claim? (hclaim : g.claim? = some c) : c.effect ≠ .block := by
  obtain ⟨f, -, hf⟩ := List.exists_of_findSome?_eq_some hclaim
  cases f with
  | claim c₁ =>
    simp only [Frame.ownClaim?] at hf
    split at hf
    next => cases hf
    next hne =>
      cases hf
      exact hne
  | _ => cases hf

/-- As long as the claim of the current player is on the stack the variant is chosen. -/
theorem Sound.variant_of_claim? (h : g.Sound) (hclaim : g.claim? = some c) : g.variant ≠ none := by
  intro hv
  rw [claim?, (h.undealt hv).1] at hclaim
  cases hclaim

/-! ## Steps -/

/-- The claim `c` of the current player is still there, up to who has accepted it, who may challenge
it and its alarm, and no money has moved. -/
structure Held (g : Game) (c : Claim) (g' : Game) : Prop where
  /-- The claim is on the stack. -/
  claim : ∃ c', g'.claim? = some c' ∧ c'.effect = c.effect ∧ c'.actor = c.actor
  /-- No money has moved. -/
  money : g.SameMoney g'

/-- What goes through on top of the stack is the claim of the current player, or a block of it. -/
theorem Shape.decided {v : Venue} (h : g.Shape (.claim c₁ :: below))
    (hf : g.stack.frames = .claim c₁ :: below) (hclaim : g.claim? = some c)
    (hgrant : Grant { g with venue := v, stack := ⟨below⟩, stirred := true } c₁.actor c₁.effect
      g') :
    ∃ outcome, Decided g c outcome g' := by
  rw [claim?, hf] at hclaim
  cases h with
  | asked hpending =>
    cases hpending with
    | own hc =>
      rw [ownClaimIn_own hc.ne_block] at hclaim
      cases hclaim
      exact ⟨_, .granted v hf hgrant⟩
    | block hc _ hb =>
      rw [ownClaimIn_block hb.effect, ownClaimIn_own hc.ne_block] at hclaim
      cases hclaim
      rw [hb.effect] at hgrant
      exact ⟨_, .blocked v hf hb hgrant⟩

/-- An answer to a challenge leaves the claim of the current player on the stack, or takes it off if
that is the one that was challenged. -/
theorem Answer.held_or_decided (h : Answer g r c₁ below choice g')
    (hf : g.stack.frames = .reveal r :: .claim c₁ :: below) (hpending : g.Pending c₁ below)
    (hclaim : g.claim? = some c) : g.Held c g' ∨ ∃ outcome, Decided g c outcome g' := by
  rw [claim?, hf, ownClaimIn_cons rfl] at hclaim
  have hanswer := h
  cases h with
  | proven | shown =>
    have hupdate := ownClaimIn_update { c₁ with challengeable := false } hclaim rfl rfl
    exact .inl ⟨hupdate, hanswer.sameMoney⟩
  | caught | conceded =>
    -- The claim that is dropped is the current player's, or a block on top of it.
    cases hpending with
    | own hc =>
      rw [ownClaimIn_own hc.ne_block] at hclaim
      cases hclaim
      exact .inr ⟨_, .caught hf hanswer rfl⟩
    | block hc _ hb =>
      rw [ownClaimIn_block hb.effect] at hclaim
      exact .inl ⟨⟨c, hclaim, rfl, rfl⟩, hanswer.sameMoney⟩

/-- While the claim of the current player is on the stack, each step leaves it there and moves no
money, or decides it. -/
theorem Step.held_or_decided (h : g.Sound) (hstep : Step g cause g') (hclaim : g.claim? = some c) :
    g.Held c g' ∨ ∃ outcome, Decided g c outcome g' := by
  have hsame : ∀ {g'}, g'.claim? = g.claim? → g.SameMoney g' → g.Held c g' :=
    fun heq hmoney => ⟨⟨c, heq.trans hclaim, rfl, rfl⟩, hmoney⟩
  cases hstep with
  | income hf | coup hf | convert hf | claim hf | askTarget hf | pass hf | finish hf =>
    -- At the beginning of a turn there is no claim.
    cases (h.claim?_of_turn hf).symm.trans hclaim
  | deal hf => exact absurd (h.shape_of hf).variant_eq_none (h.variant_of_claim? hclaim)
  | @acceptLast c₁ _ _ _ hf _ hgrant | @unopposed c₁ _ _ hf _ hgrant =>
    exact .inr ((h.shape_of hf).decided hf hclaim hgrant)
  | timeOut hf _ hgrant => exact .inr ((h.shape_of hf).decided (v := g.venue) hf hclaim hgrant)
  | accept hf | ask hf =>
    rw [claim?, hf] at hclaim
    -- Only who has accepted it changes, and its alarm.
    exact .inl ⟨ownClaimIn_update _ hclaim rfl rfl, .of_eq rfl rfl⟩
  | @challenge c₁ _ _ hf =>
    rw [claim?, hf] at hclaim
    have hupdate := ownClaimIn_update { c₁ with alarm := none } hclaim rfl rfl
    refine .inl ⟨?_, .of_eq rfl rfl⟩
    rwa [claim?, ownClaimIn_cons rfl]
  | @block c₁ _ _ _ hf =>
    rw [claim?, hf] at hclaim
    have hupdate := ownClaimIn_update { c₁ with alarm := none } hclaim rfl rfl
    refine .inl ⟨?_, .of_eq rfl rfl⟩
    rwa [claim?, ownClaimIn_block rfl]
  | answer hf hanswer | answerLast hf _ _ _ hanswer =>
    exact hanswer.held_or_decided hf (h.shape_of hf).of_reveal.1 hclaim
  | dropDead hf hdead => cases (h.shape_of hf).isAlive_challenged.symm.trans hdead
  | lose hf hp =>
    refine .inl (hsame ?_ (.of_set hp rfl rfl rfl))
    rw [claim?, claim?, hf, ownClaimIn_cons (f := .loss _) rfl]
  | loseAll hf hp =>
    refine .inl (hsame ?_ (.of_set hp rfl (by rw [Player.killAll_eq]) rfl))
    rw [claim?, claim?, hf, ownClaimIn_cons (f := .loss _) rfl]
  | keep hf | keepLast hf =>
    rw [claim?, hf] at hclaim
    cases h.shape_of hf with
    | exchange => cases hclaim
  | showCard hf | showOnly hf | allow hf | change hf =>
    rw [claim?, hf] at hclaim
    cases h.shape_of hf with
    | interrogation => cases hclaim
  | askSomebody => exact .inl (hsame rfl (.of_eq rfl rfl))

/-- Where there is no claim of the current player, there is no claim on top. -/
theorem Sound.top_ne_claim (h : g.Sound) (hclaim : g.claim? = none) :
    g.stack.frames ≠ .claim c :: below := by
  intro hf
  rw [claim?, hf] at hclaim
  cases h.shape_of hf with
  | asked hpending => exact hpending.ownClaimIn_ne_none hclaim

/-- Where there is no claim of the current player, there is no challenge on top. -/
theorem Sound.top_ne_reveal (h : g.Sound) (hclaim : g.claim? = none) :
    g.stack.frames ≠ .reveal r :: below := by
  intro hf
  rw [claim?, hf, ownClaimIn_cons rfl] at hclaim
  cases h.shape_of hf with
  | challenged hpending => exact hpending.ownClaimIn_ne_none hclaim

/-- Once a claim of the current player is off the stack, and until there is another, no step moves
money. -/
theorem Step.unclaimed (h : g.Sound) (hstep : Step g cause g') (hvariant : g.variant ≠ none)
    (hpress : ∀ seat m, cause = .press seat m → g.underWay = true) (hclaim : g.claim? = none) :
    g'.claim? = none ∧ g.SameMoney g' := by
  have htop : ∀ {c below}, g.stack.frames ≠ .claim c :: below := h.top_ne_claim hclaim
  constructor
  · cases hstep with
    | income hf | coup hf | convert hf | claim hf | askTarget hf =>
      cases (underWay_of_turn hf).symm.trans (hpress _ _ rfl)
    | deal hf => exact absurd (h.shape_of hf).variant_eq_none hvariant
    | accept hf | acceptLast hf | unopposed hf | timeOut hf | ask hf | challenge hf | block hf =>
      exact absurd hf htop
    | answer hf | answerLast hf | dropDead hf => exact absurd hf (h.top_ne_reveal hclaim)
    | lose hf | loseAll hf =>
      rw [claim?, hf, ownClaimIn_cons rfl] at hclaim
      exact hclaim
    | keep hf | keepLast hf =>
      cases h.shape_of hf with
      | exchange => rfl
    | showCard hf | showOnly hf | allow hf | change hf =>
      cases h.shape_of hf with
      | interrogation => rfl
    | pass | finish | askSomebody => exact hclaim
  · rcases hstep.sameMoney_or_grant h hvariant hpress with hmoney | ⟨c, below, venue, hf, -⟩
    · exact hmoney
    · exact absurd hf htop

/-- A step that decides the claim leaves none on the stack. -/
theorem Decided.claim?_eq_none (h : Decided g c outcome g') (hsound : g.Sound) :
    g'.claim? = none := by
  cases h with
  | granted venue hf hgrant =>
    cases hsound.shape_of hf with
    | asked hpending =>
      cases hpending with
      | own hc =>
        generalize heffect : c.effect = effect at hgrant
        cases hgrant with
        | block | blockKill => exact absurd heffect hc.ne_block
        | _ => rfl
  | caught _ _ hdropped => exact hdropped
  | blocked venue hf hb hgrant =>
    cases hgrant with
    | block hf' | blockKill hf' =>
      cases hf'
      rfl

/-- A step that decides the claim moves what the outcome says. -/
theorem Decided.money (h : Decided g c outcome g')
    (hcoins : ∀ target, c.effect = .assassinate target →
      assassinationCost ≤ g.coinsOf c.actor) (hc : c.effect ≠ .block) :
    (∀ other, (g'.coinsOf other : Int)
        = g.coinsOf other + c.effect.gain g c.actor outcome other) ∧
      (g'.treasury : Int) = g.treasury + c.effect.treasuryGain g outcome := by
  cases h with
  | granted venue hf hgrant => exact hgrant.money hc hcoins
  | caught hf hanswer =>
    have hmoney := hanswer.sameMoney
    refine ⟨fun other => ?_, ?_⟩
    · rw [hmoney.coins]
      exact (Int.add_zero _).symm
    · rw [hmoney.treasury]
      exact (Int.add_zero _).symm
  | blocked venue hf hb hgrant => exact hgrant.money_of_block rfl hcoins

/-- A call that decides the claim has the outcome that it decides. -/
theorem Decided.outcome?_eq (h : Decided k.before c outcome k.after) (hsound : k.before.Sound)
    (hclaim : k.before.claim? = some c) : k.outcome? = some outcome := by
  have hnone := h.claim?_eq_none hsound
  unfold Call.outcome? Stack.top?
  rw [hclaim, hnone]
  cases h with
  | granted _ hf =>
    rw [hf]
    simp [ne_block_of_claim? hclaim]
  | caught hf =>
    rw [hf]
    rfl
  | blocked _ hf hb =>
    rw [hf]
    simp [hb.effect]

/-- A call that leaves the claim on the stack, or has none, decides nothing. -/
theorem Call.outcome?_eq_none (h : k.before.claim? = none ∨ k.after.claim? ≠ none) :
    k.outcome? = none := by
  unfold outcome?
  rcases h with hnone | hsome
  · rw [hnone]
    rfl
  · rw [if_neg]
    simp [hsome]

/-- A call with an outcome decides the claim. -/
theorem Regular.decided (hcall : Regular P k) (hout : k.outcome? = some outcome) :
    ∃ c, k.before.claim? = some c ∧ Decided k.before c outcome k.after := by
  have hclaims : k.before.claim? ≠ none ∧ k.after.claim? = none := by
    constructor
    · exact fun hnone => nomatch (Call.outcome?_eq_none (.inl hnone)).symm.trans hout
    · by_contra hsome
      exact nomatch (Call.outcome?_eq_none (.inr hsome)).symm.trans hout
  obtain ⟨c, hclaim⟩ := Option.ne_none_iff_exists'.1 hclaims.1
  rcases hcall.step with heq | hstep
  · rw [← heq, hclaims.2] at hclaim
    cases hclaim
  · rcases hstep.held_or_decided hcall.sound hclaim with hheld | ⟨outcome', hdecided⟩
    · obtain ⟨c', hc', -⟩ := hheld.claim
      cases hc'.symm.trans hclaims.2
    · cases hout.symm.trans (hdecided.outcome?_eq hcall.sound hclaim)
      exact ⟨c, hclaim, hdecided⟩

/-! ## Chains -/

/-- Once it is chosen the variant stays the same. -/
theorem Step.variant_eq (h : g.Sound) (hstep : Step g cause g') (hv : g.variant ≠ none) :
    g'.variant = g.variant := by
  rcases hstep.continues_or_tells h with hstay | ⟨-, hnone | ⟨rfl, below, hf⟩⟩
  · exact hstay.variant
  · exact absurd hnone hv
  · obtain ⟨venue, isOver, overAlarm, -, rfl⟩ := hstep.idle_of_turn hf
    rfl

/-- The variant stays chosen. -/
theorem Step.variant_ne_none (h : g.Sound) (hstep : Step g cause g') (hv : g.variant ≠ none) :
    g'.variant ≠ none := by
  rwa [hstep.variant_eq h hv]

/-- The variant stays chosen in a call. -/
theorem Regular.variant_ne_none (hcall : Regular P k) (hv : k.before.variant ≠ none) :
    k.after.variant ≠ none := by
  rcases hcall.step with heq | hstep
  · rwa [heq]
  · exact hstep.variant_ne_none hcall.sound hv

/-- The call decides nothing and moves no money. -/
structure Quiet (k : Call) : Prop where
  /-- Nothing is decided. -/
  undecided : k.outcome? = none
  /-- No money moves. -/
  money : k.before.SameMoney k.after

/-- As long as no claim of the current player is on the stack, and none is made, all calls are
quiet. -/
theorem Chain.unclaimed (hchain : Chain (·.underWay = true) g ks g') (hv : g.variant ≠ none)
    (hclaim : g.claim? = none) :
    g'.claim? = none ∧ g.SameMoney g' ∧ ∀ k ∈ ks, k.before.claim? = none ∧ Quiet k := by
  induction hchain with
  | done hlull =>
    refine ⟨?_, hlull.sameMoney, List.forall_mem_nil _⟩
    obtain ⟨_, _, _, rfl⟩ := hlull
    exact hclaim
  | @next g g' k ks hlull hcall _ ih =>
    have hmoney := hlull.sameMoney
    have hbefore : k.before.claim? = none ∧ k.before.variant ≠ none := by
      obtain ⟨_, _, _, hk⟩ := hlull
      rw [hk]
      exact ⟨hclaim, hv⟩
    have hafter : k.after.claim? = none ∧ k.before.SameMoney k.after := by
      rcases hcall.step with heq | hstep
      · rw [heq]
        exact ⟨hbefore.1, .refl _⟩
      · exact hstep.unclaimed hcall.sound hbefore.2 hcall.press hbefore.1
    obtain ⟨hnone, hmoney', hquiet⟩ := ih (hcall.variant_ne_none hbefore.2) hafter.1
    refine ⟨hnone, (hmoney.trans hafter.2).trans hmoney', fun k' hk' => ?_⟩
    rcases List.mem_cons.1 hk' with rfl | hk'
    · exact ⟨hbefore.1, Call.outcome?_eq_none (.inl hbefore.1), hafter.2⟩
    · exact hquiet k' hk'

/-- The calls lead from `g` to another game, and all of them are quiet but for one, which decides
the claim `c` of the current player. By then it is what it was but for who has accepted it, who may
challenge it and its alarm. -/
inductive Deciding (g : Game) (c : Claim) : List Call → Outcome → Game → Prop where
  /-- The call `k` decides the claim. -/
  | intro {early late : List Call} {k : Call} {c' : Claim} {outcome : Outcome} {g' : Game}
      (hearly : ∀ j ∈ early, Quiet j) (hbefore : g.SameMoney k.before)
      (hcall : Regular (·.underWay = true) k) (hclaim : k.before.claim? = some c')
      (heffect : c'.effect = c.effect) (hactor : c'.actor = c.actor)
      (h : Decided k.before c' outcome k.after) (hafter : k.after.SameMoney g')
      (hlate : ∀ j ∈ late, Quiet j) : Deciding g c (early ++ k :: late) outcome g'

/-- The claim of the current player is decided by exactly one call before it is gone. -/
theorem Chain.deciding (hchain : Chain (·.underWay = true) g ks g') (hclaim : g.claim? = some c)
    (hdone : g'.claim? = none) : ∃ outcome, Deciding g c ks outcome g' := by
  induction hchain generalizing c with
  | done hlull =>
    obtain ⟨_, _, _, rfl⟩ := hlull
    cases hclaim.symm.trans hdone
  | @next g g' k ks hlull hcall hchain ih =>
    have hmoney := hlull.sameMoney
    have hbefore : k.before.claim? = some c := by
      obtain ⟨_, _, _, hk⟩ := hlull
      rw [hk]
      exact hclaim
    have hcases : k.before.Held c k.after ∨ ∃ outcome, Decided k.before c outcome k.after := by
      rcases hcall.step with heq | hstep
      · rw [heq]
        exact .inl ⟨⟨c, hbefore, rfl, rfl⟩, .refl _⟩
      · exact hstep.held_or_decided hcall.sound hbefore
    rcases hcases with ⟨⟨c', hc', heffect, hactor⟩, hsame⟩ | ⟨outcome, hdecided⟩
    · -- The claim is still there, and the call that decides it comes later.
      have hquiet : Quiet k := ⟨Call.outcome?_eq_none (.inr (by rw [hc']; exact nofun)), hsame⟩
      obtain ⟨outcome, hlater⟩ := ih hc' hdone
      cases hlater with
      | @intro early late k' _ _ _ hearly hbefore' hcall' hclaim' heffect' hactor' h hafter hlate =>
        have hearly' : ∀ j ∈ k :: early, Quiet j := List.forall_mem_cons.2 ⟨hquiet, hearly⟩
        exact ⟨outcome, .intro hearly' ((hmoney.trans hsame).trans hbefore') hcall' hclaim'
          (heffect'.trans heffect) (hactor'.trans hactor) h hafter hlate⟩
    · -- This is the call, and from now on there is no claim to decide.
      have hnone := hdecided.claim?_eq_none hcall.sound
      have hv := hcall.variant_ne_none (hcall.sound.variant_of_claim? hbefore)
      obtain ⟨-, hafter, hlate⟩ := hchain.unclaimed hv hnone
      have hearly : ∀ j ∈ [], Quiet j := List.forall_mem_nil Quiet
      exact ⟨outcome, .intro hearly hmoney hcall hbefore rfl rfl hdecided hafter fun j hj =>
        (hlate j hj).2⟩

namespace Deciding

/-- Exactly one call has an outcome. -/
theorem outcomes_eq (h : Deciding g c ks outcome g') : ks.filterMap (·.outcome?) = [outcome] := by
  have hnone : ∀ {ks : List Call}, (∀ j ∈ ks, Quiet j) → ks.filterMap (·.outcome?) = [] :=
    fun hquiet => List.filterMap_eq_nil_iff.2 fun j hj => (hquiet j hj).undecided
  cases h with
  | intro hearly _ hcall hclaim _ _ h _ hlate =>
    rw [List.filterMap_append, List.filterMap_cons, h.outcome?_eq hcall.sound hclaim, hnone hearly,
      hnone hlate]
    rfl

/-- No call without an outcome moves money. -/
theorem sameMoney (h : Deciding g c ks outcome g') (hk : k ∈ ks) (hnone : k.outcome? = none) :
    k.before.SameMoney k.after := by
  cases h with
  | intro hearly _ hcall hclaim _ _ h _ hlate =>
    rcases List.mem_append.1 hk with hk | hk
    · exact (hearly k hk).money
    rcases List.mem_cons.1 hk with rfl | hk
    · cases hnone.symm.trans (h.outcome?_eq hcall.sound hclaim)
    · exact (hlate k hk).money

/-- All in all the calls move what the outcome says, given that an assassin could pay. -/
theorem money (h : Deciding g c ks outcome g')
    (hcoins : ∀ target, c.effect = .assassinate target → assassinationCost ≤ g.coinsOf c.actor) :
    (∀ other, (g'.coinsOf other : Int)
        = g.coinsOf other + c.effect.gain g c.actor outcome other) ∧
      (g'.treasury : Int) = g.treasury + c.effect.treasuryGain g outcome := by
  cases h with
  | @intro early late k c' _ _ _ hbefore hcall hclaim heffect hactor h hafter =>
    -- The assassin has the coins still, since nothing was paid before the claim was decided.
    have hpays : ∀ target, c'.effect = .assassinate target →
        assassinationCost ≤ k.before.coinsOf c'.actor := by
      intro target htarget
      rw [hbefore.coins, hactor]
      exact hcoins target (heffect ▸ htarget)
    obtain ⟨hgain, htreasury⟩ := h.money hpays (ne_block_of_claim? hclaim)
    rw [heffect] at htreasury
    rw [heffect, hactor] at hgain
    constructor
    · intro other
      calc (g'.coinsOf other : Int) = k.after.coinsOf other := by rw [hafter.coins]
        _ = k.before.coinsOf other + c.effect.gain k.before c.actor outcome other := hgain other
        _ = g.coinsOf other + c.effect.gain g c.actor outcome other := by
          rw [hbefore.coins, hbefore.gain_eq]
    · calc (g'.treasury : Int) = k.after.treasury := by rw [hafter.treasury]
        _ = k.before.treasury + c.effect.treasuryGain k.before outcome := htreasury
        _ = g.treasury + c.effect.treasuryGain g outcome := by
          rw [hbefore.treasury, hbefore.treasuryGain_eq]

end Deciding

/-! ## Claims that are made -/

/-- With no turn under way the turn is all there is on the stack. -/
theorem Sound.frames_of_turn (h : g.Sound) (hturn : g.underWay = false) :
    g.stack.frames = [.turn] := by
  have htop : g.stack.top? = some .turn := by simpa [underWay] using hturn
  obtain ⟨below, hf⟩ := List.head?_eq_some_iff.1 htop
  cases h.shape_of hf with
  | turn => exact hf

/-- A press that is not ignored is a step, and the frames that go on by themselves after it are a
chain. -/
theorem AtRest.calls_of_press (h : g.AtRest) (hdata : Move.parse? data = some m)
    (hpress : g.press seat data = .ok x) (haccepted : x ≠ g) :
    ∃ y, Step g (.press seat m) y ∧ y.Sound ∧
      g.pressCalls seat data = ⟨g, .press seat m, y⟩ :: y.settleCalls ∧
      Chain P y y.settleCalls x := by
  obtain ⟨hstay, -⟩ | ⟨m', y, hparse, hover, hdispatch, hstep, hsettle⟩ :=
    press_outcome h seat data
  · exact absurd (Except.ok.inj (hpress.symm.trans hstay)) haccepted
  · cases hdata.symm.trans hparse
    have hsound := hstep.sound h.toSound h.still hover
    have hopen : (decide (seat < g.players.length) && !g.isOver) = true := by
      by_contra hclosed
      rw [press, if_neg hclosed] at hpress
      exact haccepted (Except.ok.inj hpress).symm
    refine ⟨y, hstep, hsound, ?_, settle_chain hsound (hsettle.symm.trans hpress)⟩
    rw [pressCalls, if_pos hopen, hdata]
    dsimp only
    rw [hdispatch, callsFrom]

/-- The game in which the current player has just made a claim to some effect. -/
def claiming (g : Game) (message : String) (effect : Effect) : Game :=
  { g with
    stack := ⟨[.claim (.opening g.current message effect), .turn]⟩
    stirred := true }

/-- A step at the beginning of a turn, for a move that claims something, makes the claim. -/
theorem Step.of_effect (h : g.Sound) (hstep : Step g (.press seat m) g')
    (hturn : g.underWay = false) (hm : m.effect? = some effect) :
    seat = g.current ∧ g.CanOpen effect ∧ ∃ message, g' = g.claiming message effect := by
  have hframes := h.frames_of_turn hturn
  cases hstep with
  | claim hf hc hopen hm' =>
    cases hm.symm.trans hm'
    refine ⟨rfl, hopen, ?_⟩
    rw [hframes]
    exact ⟨_, rfl⟩
  | askTarget hf hlacks => cases (Move.effect?_of_lacksTarget hlacks).symm.trans hm
  | income | coup | convert => cases hm
  | _ hf =>
    rw [hframes] at hf
    cases hf

/-- A claim that the current player of a reachable game makes is decided exactly once before the
next turn begins: it is granted, caught or blocked. By then everybody's coins and the treasury have
changed by what the outcome says, and no call but the one that decided the claim has moved any. -/
theorem Reachable.claim_decided (h : Reachable g) (hturn : g.underWay = false)
    (hdata : Move.parse? data = some m) (hm : m.effect? = some effect)
    (hpress : g.press seat data = .ok x) (haccepted : x ≠ g)
    (hrun : RunsThrough (·.underWay = true) x inputs g') (hdone : g'.underWay = false) :
    ∃ outcome, (g.calls (.press seat data :: inputs)).filterMap (·.outcome?) = [outcome] ∧
      (∀ other, (g'.coinsOf other : Int)
        = g.coinsOf other + effect.gain g g.current outcome other) ∧
      (g'.treasury : Int) = g.treasury + effect.treasuryGain g outcome ∧
      ∀ k ∈ g.calls (.press seat data :: inputs), k.outcome? = none →
        k.before.SameMoney k.after := by
  have hrest := h.atRest
  have hx : x.AtRest := hrest.feed (i := .press seat data) hpress
  obtain ⟨y, hstep, hsound, hcalls, hchain⟩ :=
    hrest.calls_of_press (P := (·.underWay = true)) hdata hpress haccepted
  obtain ⟨rfl, hopen, message, rfl⟩ := hstep.of_effect hrest.toSound hturn hm
  have hclaim : (g.claiming message effect).claim?
      = some (.opening g.current message effect) := ownClaimIn_own hopen.ne_block
  have hnone : g.claim? = none := hrest.claim?_of_turn (hrest.frames_of_turn hturn)
  have hnone' : g'.claim? = none := by
    have hsound' := (hrun.atRest hx).toSound
    exact hsound'.claim?_of_turn (hsound'.frames_of_turn hdone)
  -- From the claim on, the calls of the press and those of the later inputs are one chain.
  obtain ⟨outcome, hdeciding⟩ := (hchain.append (hrun.chain hx)).deciding hclaim hnone'
  have hall : g.calls (.press g.current data :: inputs)
      = ⟨g, .press g.current m, g.claiming message effect⟩ ::
        ((g.claiming message effect).settleCalls ++ x.calls inputs) := by
    rw [calls_cons (i := .press g.current data) hpress, feedCalls, hcalls, List.cons_append]
  obtain ⟨hgain, htreasury⟩ := hdeciding.money hopen.coins
  refine ⟨outcome, ?_, hgain, htreasury, fun k hk hquiet => ?_⟩
  · rw [hall, List.filterMap_cons, Call.outcome?_eq_none (.inl hnone)]
    exact hdeciding.outcomes_eq
  · rw [hall] at hk
    rcases List.mem_cons.1 hk with rfl | hk
    · exact .of_eq rfl rfl
    · exact hdeciding.sameMoney hk hquiet

/-- Bob challenges Ada's tax, she reveals her duke, he loses a card, and she has three coins more.
-/
theorem claim_decided_proven_tax :
    ∃ g x g',
      playOut ["Ada", "Bob"]
          { seed := some 0, startPlayer := some 0, variant := some .classic } [] = some g ∧
      g.press 0 "tax" = .ok x ∧ RunsThrough (·.underWay = true) x
        [.press 1 "challenge", .press 0 "reveal:1", .press 1 "lose:0"] g' ∧
      (g'.coinsOf 0 : Int) = g.coinsOf 0 + 3 ∧ (g'.coinsOf 1 : Int) = g.coinsOf 1 := by
  have hrun : ((playOut ["Ada", "Bob"]
      { seed := some 0, startPlayer := some 0, variant := some .classic } []).bind
      fun g => (g.runThrough? (fun _ => true) [.press 0 "tax"]).bind fun x =>
        (x.runThrough? underWay
          [.press 1 "challenge", .press 0 "reveal:1", .press 1 "lose:0"]).map fun g' =>
            (g.underWay, g.current, x.underWay, g'.underWay,
              (g.calls [.press 0 "tax", .press 1 "challenge", .press 0 "reveal:1",
                .press 1 "lose:0"]).filterMap (·.outcome?)))
      = some (false, 0, true, false, [.granted]) := by
    decide +kernel
  obtain ⟨g, hg, hrun⟩ := Option.bind_eq_some_iff.1 hrun
  obtain ⟨x, hx, hrun⟩ := Option.bind_eq_some_iff.1 hrun
  obtain ⟨g', hg', hrun⟩ := Option.map_eq_some_iff.1 hrun
  simp only [Prod.mk.injEq] at hrun
  obtain ⟨hturn, hcurrent, hasked, hdone, houtcome⟩ := hrun
  have hpress : g.press 0 "tax" = .ok x := feed_of_runThrough? hx
  have haccepted : x ≠ g := by
    rintro rfl
    cases hturn.symm.trans hasked
  have hdata : Move.parse? "tax" = some .tax := by decide
  obtain ⟨outcome, hone, hgain, -⟩ := (reachable_of_playOut hg).claim_decided hturn hdata rfl hpress
    haccepted (runsThrough_of_runThrough? hg') hdone
  cases houtcome.symm.trans hone
  have hAda := hgain 0
  have hBob := hgain 1
  rw [hcurrent] at hAda hBob
  refine ⟨g, x, g', hg, hpress, runsThrough_of_runThrough? hg', hAda, ?_⟩
  rw [hBob]
  rfl

end Game

end CoupTable
