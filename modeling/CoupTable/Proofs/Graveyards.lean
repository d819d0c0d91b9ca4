import Mathlib.Data.Multiset.Filter
import CoupTable.Proofs.Choices
import CoupTable.Proofs.Faultless
import CoupTable.Proofs.Losses
import CoupTable.Proofs.Resting

/-!
# Deaths

A card that is turned face up stays so: the graveyard of a player only grows, also where an exchange
puts the hand in another order (`KeepsGraves`). By one press or one alarm at most one card dies on
the whole table. `doom` says whether the frame on top may still take one, and once a card is lost no
frame that goes on by itself does: a claim that goes through unopposed has no victim who is alive.
Somebody is always left, so that a finished game has a winner and the last status names the winner.
-/

namespace CoupTable

/-- The characters on the cards that are dead. -/
def graveyard (cards : List Card) : Multiset Character :=
  ((cards.filter (·.dead)).map (·.character) : List Character)

namespace Player

variable {p : Player} {card : Card} {slot : Nat} {c : Character}

/-- A card in a hand that comes in place of a living one leaves the dead ones, and adds itself if it
is dead. -/
theorem graveyard_set (hcard : p.cards[slot]? = some card) (hlives : card.dead = false)
    (b : Card) : graveyard (p.cards.set slot b) = graveyard [b] + graveyard p.cards := by
  have hperm := ((set_perm (b := b) hcard).filter (·.dead)).map (·.character)
  have hnone : [card].filter (·.dead) = [] := by simp [hlives]
  rw [List.filter_append, hnone, List.append_nil, List.filter_append, List.map_append] at hperm
  unfold graveyard
  rw [Multiset.coe_add, Multiset.coe_eq_coe]
  exact hperm.trans List.perm_append_comm

/-- A card that is lost joins the graveyard. -/
theorem graveyard_killSlot (hcard : p.cards[slot]? = some card) (hlives : card.dead = false) :
    graveyard (p.killSlot slot).cards = card.character ::ₘ graveyard p.cards := by
  rw [killSlot_eq hcard, graveyard_set hcard hlives, ← Multiset.singleton_add]
  rfl

/-- A living card that is changed is in no graveyard. -/
theorem graveyard_setCharacter (hlives : p.hasLiving slot = true) :
    graveyard (p.setCharacter slot c).cards = graveyard p.cards := by
  obtain ⟨card, hcard, hdead⟩ := hasLiving_iff.1 hlives
  have hset : (p.setCharacter slot c).cards = p.cards.set slot { card with character := c } := by
    rw [setCharacter, List.modify_eq_set_getElem?, hcard]
    rfl
  have hnone : graveyard [{ card with character := c }] = 0 := by simp [graveyard, hdead]
  rw [hset, graveyard_set hcard hdead, hnone, zero_add]

/-- Living cards that are changed are in no graveyard. -/
theorem graveyard_redraw {slots : List Nat} (hslots : ∀ slot ∈ slots, p.hasLiving slot = true)
    (drawn : List Character) : graveyard (p.redraw slots drawn).cards = graveyard p.cards := by
  induction slots generalizing p drawn with
  | nil => rfl
  | cons slot slots ih =>
    cases drawn with
    | nil => rfl
    | cons c drawn =>
      obtain ⟨hlives, hslots⟩ := List.forall_mem_cons.1 hslots
      rw [redraw_cons, ih fun other hother => hasLiving_setCharacter.trans (hslots other hother),
        graveyard_setCharacter hlives]

end Player

namespace Game

/-- The characters on the dead cards of the player in a seat. -/
def graveyardOf (g : Game) (seat : Nat) : Multiset Character :=
  graveyard ((g.players[seat]?.map (·.cards)).getD [])

/-- The graveyards grow by the cards that are lost, each with its seat. -/
def Buries (g : Game) (lost : List (Nat × Character)) (g' : Game) : Prop :=
  ∀ seat, g'.graveyardOf seat
    = g.graveyardOf seat + ((lost.filter (·.1 == seat)).map (·.2) : List Character)

/-- How many cards the frames take at most before one of them waits for somebody. -/
def doom (g : Game) : Nat :=
  match g.stack.frames with
  | .loss _ :: _ | .reveal _ :: _ => 1
  | _ => 0

/-- Whoever exchanges cards keeps the dead ones. -/
def KeepsGraves (g : Game) : Prop :=
  ∀ e, g.exchange? = some e → graveyard e.hand = g.graveyardOf e.player

variable {P : Game → Prop} {g g' g₁ x : Game} {cause : Cause} {c : Claim} {f : Frame} {r : Reveal}
  {e : Exchange} {frames below : List Frame} {effect : Effect} {k : Call} {ks : List Call}
  {i : Input} {seat slot choice : Nat} {p q : Player} {lost lost' : List (Nat × Character)}

/-! ## Graveyards -/

/-- The graveyard of a seat is that of its player. -/
theorem graveyardOf_eq (hp : g.players[seat]? = some p) :
    g.graveyardOf seat = graveyard p.cards := by
  rw [graveyardOf, hp]
  rfl

/-- Where one player is changed, the graveyard of that one changes. -/
theorem graveyardOf_of_set (hp : g.players[seat]? = some p)
    (hps : g'.players = g.players.set seat q) (other : Nat) :
    g'.graveyardOf other = if other = seat then graveyard q.cards else g.graveyardOf other := by
  obtain ⟨hlt, -⟩ := List.getElem?_eq_some_iff.1 hp
  unfold graveyardOf
  rw [hps]
  split
  next heq =>
    subst heq
    rw [List.getElem?_set_self hlt]
    rfl
  next hne => rw [List.getElem?_set_ne (Ne.symm hne)]

/-- Where nobody has a dead card all graveyards are empty. -/
theorem graveyardOf_eq_zero (h : ∀ p ∈ g.players, graveyard p.cards = 0) (seat : Nat) :
    g.graveyardOf seat = 0 := by
  unfold graveyardOf
  cases hp : g.players[seat]? with
  | none => rfl
  | some p => exact h p (List.mem_of_getElem? hp)

/-- The dead cards of a seat are those in its graveyard. -/
theorem card_graveyardOf (g : Game) (seat : Nat) :
    (g.graveyardOf seat).card = g.deadCardsOf seat := by
  unfold graveyardOf deadCardsOf graveyard
  cases g.players[seat]? with
  | none => rfl
  | some p =>
    simp only [Option.map_some, Option.getD_some, Multiset.coe_card, List.length_map]
    exact List.countP_eq_length_filter.symm

namespace Buries

/-- Nothing is lost as long as everybody has the same cards. -/
theorem of_sameCards (h : g.SameCards g') : g.Buries [] g' := by
  intro seat
  have hseat := congrArg (fun hands => graveyard (hands[seat]?.getD [])) h
  simpa [graveyardOf] using hseat

/-- Nothing is lost as long as nobody has a dead card. -/
theorem of_empty (h : ∀ p ∈ g.players, graveyard p.cards = 0)
    (h' : ∀ p ∈ g'.players, graveyard p.cards = 0) : g.Buries [] g' := by
  intro seat
  rw [graveyardOf_eq_zero h, graveyardOf_eq_zero h']
  rfl

/-- Nothing is lost by a player who is changed but keeps the graveyard. -/
theorem of_set (hp : g.players[seat]? = some p) (hps : g'.players = g.players.set seat q)
    (hsame : graveyard q.cards = graveyard p.cards) : g.Buries [] g' := by
  intro other
  rw [graveyardOf_of_set hp hps]
  split
  next heq => simp [heq, hsame, graveyardOf_eq hp]
  next => simp

/-- One card is lost by a player who loses it. -/
theorem of_killSlot (hp : g.players[seat]? = some p) (hlives : p.hasLiving slot = true)
    (hps : g'.players = g.players.set seat (p.killSlot slot)) :
    ∃ c, g.Buries [(seat, c)] g' := by
  obtain ⟨card, hcard, hdead⟩ := Player.hasLiving_iff.1 hlives
  refine ⟨card.character, fun other => ?_⟩
  rw [graveyardOf_of_set hp hps]
  split
  next heq =>
    subst heq
    rw [Player.graveyard_killSlot hcard hdead, graveyardOf_eq hp, ← Multiset.singleton_add,
      add_comm]
    simp
  next hne => simp [Ne.symm hne]

/-- What is lost first and what is lost later is lost in all. -/
theorem append (h : g.Buries lost g₁) (h' : g₁.Buries lost' g') : g.Buries (lost ++ lost') g' := by
  intro seat
  rw [h', h, List.filter_append, List.map_append, ← Multiset.coe_add, add_assoc]

/-- No graveyard loses a card. -/
theorem graveyardOf_le (h : g.Buries lost g') (seat : Nat) :
    g.graveyardOf seat ≤ g'.graveyardOf seat := by
  rw [h]
  exact Multiset.le_add_right ..

/-- As many cards more are dead as are lost. -/
theorem deadCards_eq (h : g.Buries lost g') (hseats : g'.players.length = g.players.length) :
    g'.deadCards = g.deadCards + lost.length := by
  have hcount : ∀ seat, g'.deadCardsOf seat
      = g.deadCardsOf seat + (lost.map (·.1)).count seat := by
    intro seat
    rw [← card_graveyardOf, h, Multiset.card_add, card_graveyardOf, Multiset.coe_card,
      List.length_map, List.count, List.countP_map, List.countP_eq_length_filter]
    rfl
  rw [deadCards_of_count _ hseats hcount, List.length_map]

end Buries

/-! ## Exchanges -/

/-- The exchange has just begun: the new hand has the dead cards of the player, and the characters
of the living ones are on offer, then those that were drawn. -/
def BeginsExchange (g : Game) (e : Exchange) : Prop :=
  ∃ p drawn, g.players[e.player]? = some p ∧ e.hand = p.cards.filter (·.dead) ∧
    e.offered = p.living.map (·.2) ++ drawn ∧ drawn.length = g.exchangeDraw

/-- Where cards are exchanged after a step, nobody's hand was touched by it: the exchange was under
way before, maybe with a card less in the new hand, which was kept by a press, or it has just
begun. -/
theorem Step.exchange_cases (h : g.Sound) (hstep : Step g cause g') (hsound : g'.Sound)
    (he : g'.exchange? = some e) : g.SameCards g' ∧
      (g.exchange? = some e ∨
        (∃ hand offered c, e.hand = hand ++ [⟨c, false⟩] ∧
          g.exchange? = some ⟨e.player, hand, offered⟩ ∧ ∃ seat m, cause = .press seat m) ∨
        g'.BeginsExchange e) := by
  have hf' : g'.stack.frames = [.exchange e, .turn] := (hsound.shape.of_exchangeIn he).1
  -- Below the frame on top there is no exchange, so that none comes to light.
  have hbelow : ∀ {f rest}, g.stack.frames = f :: .exchange e :: rest → False := by
    intro f rest hf
    cases (h.shape_of hf).exchangeIn_below
  cases hstep with
  | deal hf _ hdeal =>
    obtain ⟨built, ms, -, rfl⟩ := h.of_deal hf hdeal
    cases hf'
  | income hf | convert hf | askTarget hf | pass hf | finish hf => cases hf.symm.trans hf'
  | coup | claim | accept | ask | challenge | block | showCard | showOnly => cases hf'
  | @keep e₀ below index c hf hc =>
    cases hf'
    have he₀ : g.exchange? = some e₀ := by
      rw [exchange?, hf]
      rfl
    exact ⟨rfl, .inr (.inl ⟨e₀.hand, e₀.offered, c, rfl, he₀, _, _, rfl⟩)⟩
  | askSomebody => exact ⟨rfl, .inl he⟩
  | acceptLast hf _ hgrant | unopposed hf _ hgrant | timeOut hf _ hgrant =>
    have hcards := hgrant.sameCards
    generalize heffect : Claim.effect _ = effect at hgrant
    cases hgrant with
    | exchange hp _ hdrawn =>
      cases hf'
      exact ⟨hcards, .inr (.inr ⟨_, _, hp, rfl, rfl, hdrawn⟩)⟩
    | assassinate | inspect => cases hf'
    | block hf'' | blockKill hf'' =>
      cases hf''
      cases hf'
      cases (h.shape_of hf).exchangeIn_below
    | _ =>
      cases hf'
      exact (hbelow hf).elim
  | answer hf hanswer | answerLast hf _ _ _ hanswer =>
    cases hanswer with
    | proven | shown | conceded => cases hf'
    | caught =>
      cases hf'
      cases (h.shape_of hf).exchangeIn_below
  | dropDead hf =>
    cases hf'
    cases (h.shape_of hf).exchangeIn_below
  | lose hf | loseAll hf | keepLast hf | allow hf | change hf =>
    cases hf'
    exact (hbelow hf).elim

/-- Dead cards stay dead cards when living ones are added. -/
theorem graveyard_append_living (cards : List Card) (c : Character) :
    graveyard (cards ++ [⟨c, false⟩]) = graveyard cards := by
  simp [graveyard]

/-- The dead cards of some cards are dead. -/
theorem graveyard_filter_dead (cards : List Card) :
    graveyard (cards.filter (·.dead)) = graveyard cards := by
  simp [graveyard]

/-- With the same cards everybody has the same graveyard. -/
theorem SameCards.graveyardOf_eq (h : g.SameCards g') (seat : Nat) :
    g'.graveyardOf seat = g.graveyardOf seat := by
  have hseat := Buries.of_sameCards h seat
  simpa using hseat

/-- Every step has dead cards kept. -/
theorem Step.keepsGraves (h : g.Sound) (hg : g.KeepsGraves) (hstep : Step g cause g')
    (hsound : g'.Sound) : g'.KeepsGraves := by
  intro e he
  obtain ⟨hcards, hbefore | ⟨hand, offered, c, hhand, hbefore, -⟩ | ⟨p, -, hp, hhand, -⟩⟩ :=
    hstep.exchange_cases h hsound he
  · rw [hcards.graveyardOf_eq, hg e hbefore]
  · rw [hcards.graveyardOf_eq, hhand, graveyard_append_living, ← hg _ hbefore]
  · rw [graveyardOf_eq hp, hhand, graveyard_filter_dead]

/-! ## Steps -/

/-- The frames take one card at most. -/
theorem doom_le (g : Game) : g.doom ≤ 1 := by
  unfold doom
  split <;> decide

/-- A frame that is neither a loss nor a challenge takes no card. -/
theorem doom_eq_zero (hf : g.stack.frames = f :: below) (hloss : ∀ seat, f ≠ .loss seat)
    (hreveal : ∀ r, f ≠ .reveal r) : g.doom = 0 := by
  unfold doom
  rw [hf]
  cases f with
  | loss seat => exact absurd rfl (hloss seat)
  | reveal r => exact absurd rfl (hreveal r)
  | _ => rfl

/-- A calm frame takes no card. -/
theorem doom_of_isCalm (hf : g.stack.frames = f :: below) (hcalm : f.isCalm = true) :
    g.doom = 0 := by
  refine doom_eq_zero hf ?_ ?_
  · rintro seat rfl
    cases hcalm
  · rintro r rfl
    cases hcalm

/-- Below a pending claim no frame takes a card. -/
theorem Pending.doom_below (h : g.Pending c below) (hf' : g'.stack.frames = below) :
    g'.doom = 0 := by
  cases h with
  | own | block => exact doom_eq_zero hf' (fun _ => nofun) fun _ => nofun

/-- An answer to a challenge loses no card, or the card that is revealed. -/
theorem Answer.buries (h : Answer g r c below choice g')
    (hf : g.stack.frames = .reveal r :: .claim c :: below) (hpending : g.Pending c below) :
    g.Buries [] g' ∨ (∃ seat c, g.Buries [(seat, c)] g') ∧ g.doom = 1 ∧ g'.doom = 0 := by
  cases h with
  | proven hp _ hcard hlives =>
    refine .inl (.of_set hp rfl (Player.graveyard_redraw ?_ _))
    exact List.forall_mem_singleton.2 (Player.hasLiving_iff.2 ⟨_, hcard, hlives⟩)
  | shown hp =>
    exact .inl (.of_set hp rfl (Player.graveyard_redraw (fun _ => Player.mem_livingSlots.1) _))
  | caught hp _ hcard hlives =>
    have hslot := Player.hasLiving_iff.2 ⟨_, hcard, hlives⟩
    refine .inr ⟨⟨_, Buries.of_killSlot hp hslot rfl⟩, ?_, hpending.doom_below rfl⟩
    rw [doom, hf]
  | conceded => exact .inl (.of_sameCards rfl)

/-- A step loses no card, or the frame on top takes one, and then none takes another. -/
theorem Step.buries (h : g.Sound) (hg : g.KeepsGraves) (hstep : Step g cause g') :
    g.Buries [] g' ∨ (∃ seat c, g.Buries [(seat, c)] g') ∧ g.doom = 1 ∧ g'.doom = 0 := by
  have hloss : ∀ {seat below}, g.stack.frames = .loss seat :: below →
      g'.stack.frames = below → g.doom = 1 ∧ g'.doom = 0 := by
    intro seat below hf hf'
    refine ⟨by rw [doom, hf], ?_⟩
    cases h.shape_of hf with
    | loss => exact doom_eq_zero hf' (fun _ => nofun) fun _ => nofun
    | upheld => exact doom_eq_zero hf' (fun _ => nofun) fun _ => nofun
  cases hstep with
  | @deal v ms below seat index g' hf _ hdeal =>
    -- Nobody had any cards, and all that are dealt are alive.
    obtain ⟨built, ms', hperm, rfl⟩ := h.of_deal hf hdeal
    have hbefore : ∀ p ∈ g.players, graveyard p.cards = 0 := fun p hp => by
      rw [((h.undealt (h.shape_of hf).variant_eq_none).2 p hp).1]
      rfl
    have hafter : ∀ p ∈ (g.dealt v built).players, graveyard p.cards = 0 := fun p hp => by
      obtain ⟨a, b, hcards⟩ :=
        cards_of_mem_dealt (hperm.length_eq.trans (Deck.length_full _)) h.seats hp
      rw [hcards]
      rfl
    exact .inl (.of_empty hbefore hafter)
  | income _ hp | coup _ hp => exact .inl (.of_set hp rfl rfl)
  | convert _ _ hp _ _ _ hq =>
    refine .inl (.of_sameCards ?_)
    exact (map_cards_set hq (by rfl)).trans (map_cards_set hp (by rfl))
  | acceptLast _ _ hgrant | unopposed _ _ hgrant | timeOut _ _ hgrant =>
    exact .inl (.of_sameCards hgrant.sameCards)
  | answer hf hanswer | answerLast hf _ _ _ hanswer =>
    exact hanswer.buries hf (h.shape_of hf).of_reveal.1
  | lose hf hp hlives =>
    exact .inr ⟨⟨_, Buries.of_killSlot hp hlives rfl⟩, hloss hf rfl⟩
  | loseAll hf hp hall =>
    -- Whoever has to lose a card and has no choice has one left.
    obtain ⟨slot, hlives, hkill⟩ := Player.killAll_of_single (h.livingCount_of_losesAll hf hp hall)
    exact .inr ⟨⟨_, Buries.of_killSlot hp hlives (by rw [hkill])⟩, hloss hf rfl⟩
  | keepLast hf _ _ hp =>
    have hkept := hg _ (by rw [exchange?, hf]; rfl)
    refine .inl (.of_set hp rfl ?_)
    rw [graveyard_append_living, hkept, graveyardOf_eq hp]
  | change hf _ hp hcard hlives =>
    refine .inl (.of_set hp rfl (Player.graveyard_redraw ?_ _))
    exact List.forall_mem_singleton.2 (Player.hasLiving_iff.2 ⟨_, hcard, hlives⟩)
  | _ => exact .inl (.of_sameCards rfl)

/-- A frame that goes on by itself leaves no more cards to be taken than before. -/
theorem Step.doom_le (h : g.Sound) (hstep : Step g .idle g') : g'.doom ≤ g.doom := by
  cases hstep with
  | pass | finish | askSomebody => exact Nat.le_refl _
  | unopposed hf ha hgrant =>
    -- Nobody could oppose the claim, so that it has no victim who is alive.
    cases h.shape_of hf with
    | asked hpending =>
      obtain ⟨f, rest, hf', hcalm⟩ := hpending.calm_grant (quorum_eq_nil ha) hgrant
      rw [doom_of_isCalm hf' hcalm]
      exact Nat.zero_le _
  | ask | showOnly => exact Nat.zero_le _
  | answerLast hf =>
    have hone : g.doom = 1 := by rw [doom, hf]
    rw [hone]
    exact Game.doom_le _
  | dropDead hf hdead => cases (h.shape_of hf).isAlive_challenged.symm.trans hdead
  | loseAll hf =>
    have hone : g.doom = 1 := by rw [doom, hf]
    rw [hone]
    exact Game.doom_le _

/-! ## Calls -/

/-- A call that is ignored loses no card, and what is lost by another one the frame on top takes. -/
theorem Regular.buries (hcall : Regular P k) (hkept : k.before.KeepsGraves) :
    k.after.KeepsGraves ∧ ∃ lost, k.before.Buries lost k.after ∧
      lost.length + k.after.doom ≤ if k.isIdle then k.before.doom else 1 := by
  -- A press or an alarm may cost a card, or lead to a frame that costs one. A frame that goes on by
  -- itself may do so only if it might before.
  have hbound : ∀ {lost : List (Nat × Character)}, lost.length + k.after.doom ≤ 1 →
      (k.isIdle = true → lost.length + k.after.doom ≤ k.before.doom) →
      lost.length + k.after.doom ≤ if k.isIdle then k.before.doom else 1 := by
    intro lost hone hidle
    split
    next h => exact hidle h
    next => exact hone
  rcases hcall.step with heq | hstep
  · rw [heq] at hbound ⊢
    refine ⟨hkept, [], .of_sameCards rfl, hbound ?_ fun _ => ?_⟩
    · exact (Nat.zero_add _).trans_le (doom_le _)
    · exact (Nat.zero_add _).le
  · refine ⟨hstep.keepsGraves hcall.sound hkept (hstep.sound hcall.sound hcall.still hcall.goesOn),
      ?_⟩
    rcases hstep.buries hcall.sound hkept with hnone | ⟨⟨seat, c, hone⟩, hdoom, hdone⟩
    · refine ⟨[], hnone, hbound ?_ fun hidle => ?_⟩
      · exact (Nat.zero_add _).trans_le (doom_le _)
      · have hcause : k.cause = .idle := by
          unfold Call.isIdle Cause.isIdle at hidle
          split at hidle
          next h => exact h
          next => cases hidle
          next => cases hidle
        rw [hcause] at hstep
        exact (Nat.zero_add _).trans_le (hstep.doom_le hcall.sound)
    · refine ⟨[(seat, c)], hone, hbound ?_ fun _ => ?_⟩
      · rw [hdone, List.length_singleton]
      · rw [hdone, hdoom, List.length_singleton]

/-- In a lull nothing happens to the cards or the frames. -/
theorem Lull.buries (h : g.Lull g') : g.Buries [] g' ∧ g'.doom = g.doom ∧
    (g.KeepsGraves → g'.KeepsGraves) := by
  obtain ⟨_, _, _, rfl⟩ := h
  exact ⟨.of_sameCards rfl, rfl, id⟩

/-- Frames that go on by themselves lose as many cards as the one on top takes at most. -/
theorem Chain.buries (hchain : Chain P g ks g') (hkept : g.KeepsGraves)
    (hidle : ∀ k ∈ ks, k.isIdle = true) :
    g'.KeepsGraves ∧ ∃ lost, g.Buries lost g' ∧ lost.length + g'.doom ≤ g.doom := by
  induction hchain with
  | done hlull =>
    obtain ⟨hnone, hdoom, hkeeps⟩ := hlull.buries
    exact ⟨hkeeps hkept, [], hnone, by rw [hdoom, List.length_nil, Nat.zero_add]⟩
  | @next g g' k ks hlull hcall _ ih =>
    obtain ⟨hnone, hdoom, hkeeps⟩ := hlull.buries
    obtain ⟨hk, hidle⟩ := List.forall_mem_cons.1 hidle
    obtain ⟨hkept', lost, hlost, hless⟩ := hcall.buries (hkeeps hkept)
    obtain ⟨hkept'', lost', hlost', hless'⟩ := ih hkept' hidle
    rw [hk, if_pos rfl, hdoom] at hless
    refine ⟨hkept'', _, (hnone.append hlost).append hlost', ?_⟩
    rw [List.nil_append, List.length_append]
    omega

/-- The calls of one input lose one card at most. -/
theorem Chain.buries_single (hchain : Chain P g ks g') (hsingle : Single ks)
    (hkept : g.KeepsGraves) :
    g'.KeepsGraves ∧ ∃ lost, g.Buries lost g' ∧ lost.length ≤ 1 := by
  cases hsingle with
  | none =>
    obtain ⟨hkept', lost, hlost, hless⟩ := hchain.buries hkept (List.forall_mem_nil _)
    have hone := doom_le g
    exact ⟨hkept', lost, hlost, by omega⟩
  | @event x y cause _ hcause _ =>
    cases hchain with
    | next hlull hcall hrest =>
      obtain ⟨hnone, -, hkeeps⟩ := hlull.buries
      obtain ⟨hkept', lost, hlost, hless⟩ := hcall.buries (hkeeps hkept)
      obtain ⟨hkept'', lost', hlost', hless'⟩ :=
        hrest.buries hkept' fun k hk => isIdle_of_mem_settleInCalls hk
      have hcalled : ¬ (⟨x, cause, y⟩ : Call).isIdle = true := by
        rw [Call.isIdle, hcause]
        exact Bool.false_ne_true
      rw [if_neg hcalled] at hless
      refine ⟨hkept'', _, (hnone.append hlost).append hlost', ?_⟩
      rw [List.nil_append, List.length_append]
      omega

/-- Every input loses one card at most. -/
theorem AtRest.feed_buries (h : g.AtRest) (hkept : g.KeepsGraves) (hfeed : g.feed i = .ok g') :
    g'.KeepsGraves ∧ ∃ lost, g.Buries lost g' ∧ lost.length ≤ 1 :=
  (feed_chain (P := fun _ => True) h trivial hfeed).buries_single (h.feedCalls_single i) hkept

/-- In a reachable game whoever exchanges cards keeps the dead ones. -/
theorem Reachable.keepsGraves (h : Reachable g) : g.KeepsGraves := by
  induction h with
  | started hstart =>
    intro e he
    rcases (rests_of_start hstart).2 with hf | hf
    · rw [exchange?, hf] at he
      cases he
    · rw [exchange?, hf] at he
      cases he
  | fed hg hfeed ih => exact (hg.atRest.feed_buries ih hfeed).1

/-! ## Survivors -/

/-- Once the cards are dealt somebody is alive. -/
theorem Sound.exists_isAlive (h : g.Sound) (hv : g.variant ≠ none) :
    ∃ seat, g.isAlive seat = true := by
  obtain ⟨frames, hf⟩ : ∃ frames, g.stack.frames = frames := ⟨_, rfl⟩
  cases h.shape_of hf with
  | turn hlives => exact hlives
  | variantChoice hnone => exact absurd hnone hv
  | loss hlives => exact ⟨_, hlives⟩
  | exchange _ _ _ hcurrent => exact ⟨_, hcurrent⟩
  | interrogation _ _ hlives => exact ⟨_, hlives⟩
  | asked hpending | challenged hpending | upheld hpending => exact ⟨_, hpending.isAlive_actor⟩

/-- A finished game has one survivor, who has won, and whom the status names. -/
theorem Sound.exists_winner (h : g.Sound) (hfinished : g.isFinished = true) :
    ∃ winner, g.livingSeats = [winner] ∧ g.winner? = some winner ∧
      g.statusClosing = Wording.won (g.nameOf winner) := by
  have hchosen := hfinished
  rw [isFinished, Bool.and_eq_true, decide_eq_true_eq] at hchosen
  obtain ⟨seat, hlives⟩ := h.exists_isAlive (Option.isSome_iff_ne_none.1 hchosen.1)
  have hwinner := winner?_eq hfinished hlives
  have hmem : seat ∈ g.livingSeats :=
    List.mem_filter.2 ⟨List.mem_range.2 (lt_of_isAlive hlives), hlives⟩
  obtain ⟨winner, hone⟩ : ∃ winner, g.livingSeats = [winner] :=
    List.length_eq_one_iff.1 (Nat.le_antisymm hchosen.2 (List.length_pos_of_mem hmem))
  rw [hone, List.mem_singleton] at hmem
  subst hmem
  exact ⟨seat, hone, hwinner, statusClosing_of_winner hwinner⟩

/-- With the step that ends a game the last status is sent. -/
theorem Step.announces (h : g.Sound) (hstep : Step g cause g') (hover : g.isOver = false)
    (hover' : g'.isOver = true) :
    cause = .idle ∧ g'.venue.outbox.head? = some ⟨.everyone, g'.statusText, []⟩ := by
  rcases hstep.sameEnd_or_finish h with ⟨hsame, -⟩ | ⟨rfl, hfinished, rfl⟩
  · cases hover.symm.trans (hsame.symm.trans hover')
  · exact ⟨rfl, congrArg some (status_of_isFinished (g := { g with current := _ }) hfinished)⟩

/-- Once the game is over the last message is the status. -/
def Announced (g : Game) : Prop :=
  g.isOver = true → g.venue.outbox.head? = some ⟨.everyone, g.statusText, []⟩

/-- The last status stays the last message. -/
theorem Happening.announced (h : g.AtRest) (hg : g.Announced) (hevent : Happening g g') :
    g'.Announced := by
  cases hevent with
  | clock hdue =>
    obtain ⟨a, rfl, -⟩ := Venue.eq_of_advance hdue
    exact hg
  | report => exact hg
  | step hstep hcause hover hsound hsettles =>
    intro hover'
    -- What ended the game is the last frame that went on by itself.
    rcases hsettles.last hsound with rfl | ⟨x, hsound', hover'', hlast⟩
    · exact absurd (hstep.announces h.toSound hover hover').1 hcause
    · exact (hlast.announces hsound' hover'' hover').2

/-- Once a reachable game is over the last message is the status. -/
theorem Reachable.announced (h : Reachable g) : g.Announced := by
  refine h.induction (P := Announced) (fun g g' hrest hg hevent => hevent.announced hrest hg)
    fun names s entropy g _ hbegun => ?_
  cases hbegun with
  | asking | dealt => exact nofun

/-! ## The result -/

/-- By every input to a reachable game at most one card dies, and none leaves the graveyard of its
player. Once the cards are dealt somebody is alive, so that in any game that comes up, once it is
finished, exactly one is, who has won and whom the status would name. When the game is over, the
last message is that status. -/
theorem Reachable.deaths_final (h : Reachable g) :
    (∀ i g', g.feed i = .ok g' → g'.deadCards ≤ g.deadCards + 1 ∧
      ∀ seat, g.graveyardOf seat ≤ g'.graveyardOf seat) ∧
    (g.variant ≠ none → ∃ seat, g.isAlive seat = true) ∧
    (∀ i x, Visits g i x → x.isFinished = true → ∃ winner, x.livingSeats = [winner] ∧
      x.winner? = some winner ∧ x.statusClosing = Wording.won (x.nameOf winner)) ∧
    (g.isOver = true → g.isFinished = true ∧
      g.venue.outbox.head? = some ⟨.everyone, g.statusText, []⟩) := by
  have hrest := h.atRest
  refine ⟨fun i g' hfeed => ?_, hrest.toSound.exists_isAlive,
    fun i x hvisits hfinished => (hvisits.sound hrest).exists_winner hfinished, fun hover => ?_⟩
  · obtain ⟨-, lost, hlost, hone⟩ := hrest.feed_buries h.keepsGraves hfeed
    have hseats := (feed_chain (P := fun _ => True) hrest trivial hfeed).seats_eq
    rw [hlost.deadCards_eq hseats]
    exact ⟨Nat.add_le_add_left hone _, hlost.graveyardOf_le⟩
  · exact ⟨(h.isFinished_eq (hrest.ended hover).1).trans hover, h.announced hover⟩

/-- Ada and Bob have one card each, and Bob challenges the theft of a proven captain. Bob's last
card dies with that press, no other one does, and the last message names Ada. -/
theorem deaths_final_stolen : ∃ g g',
    playOut ["Ada", "Bob"]
        { seed := some 0, startPlayer := some 0, variant := some .classic,
          cardOverrides := [.contessa, .captain, .contessa, .contessa] }
        [.press 0 "tax", .press 1 "challenge", .press 0 "reveal:0", .press 1 "tax",
          .press 0 "challenge", .press 1 "reveal:0", .press 0 "steal:1"] = some g ∧
      g.feed (.press 1 "challenge") = .ok g' ∧ g'.deadCards = g.deadCards + 1 ∧
      g'.deadCards ≤ g.deadCards + 1 ∧ (∀ seat, g.graveyardOf seat ≤ g'.graveyardOf seat) ∧
      (∃ winner, g'.livingSeats = [winner] ∧ g'.winner? = some winner ∧
        g'.statusClosing = Wording.won (g'.nameOf winner)) ∧
      g'.venue.outbox.head? = some ⟨.everyone, g'.statusText, []⟩ := by
  have hrun : ((playOut ["Ada", "Bob"]
      { seed := some 0, startPlayer := some 0, variant := some .classic,
        cardOverrides := [.contessa, .captain, .contessa, .contessa] }
      [.press 0 "tax", .press 1 "challenge", .press 0 "reveal:0", .press 1 "tax",
        .press 0 "challenge", .press 1 "reveal:0", .press 0 "steal:1"]).bind fun g =>
          (g.feed (.press 1 "challenge")).toOption.map fun g' =>
            (g.deadCards, g'.deadCards, g'.isOver)) = some (2, 3, true) := by
    decide +kernel
  obtain ⟨g, g', hg, hfeed, hcounts⟩ := exists_of_playOut hrun
  obtain ⟨hbefore, hafter, hover⟩ := by simpa only [Prod.mk.injEq] using hcounts
  have hreachable := reachable_of_playOut hg
  obtain ⟨hone, hgraves⟩ := hreachable.deaths_final.1 _ _ hfeed
  obtain ⟨-, -, hwinner, hlast⟩ := (hreachable.fed hfeed).deaths_final
  obtain ⟨hfinished, hstatus⟩ := hlast hover
  refine ⟨g, g', hg, hfeed, by rw [hafter, hbefore], hone, hgraves, ?_, hstatus⟩
  exact hwinner (.press 1 "challenge") g' .here hfinished

end Game

end CoupTable
