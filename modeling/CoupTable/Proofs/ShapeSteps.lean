import CoupTable.Proofs.Sound

/-!
# Steps keep the shape of the stack

Every step from a sound game leads to a stack of one of the shapes. What goes through when a claim
does, what a challenge comes to, and the other steps are taken one by one.
-/

namespace CoupTable.Game

variable {g g' : Game} {cause : Cause} {choice : Nat} {c : Claim} {r : Reveal} {f : Frame}
  {below : List Frame}

/-! ## Claims that go through -/

/-- A claim that goes through touches nobody's cards. -/
theorem Grant.sameCards {seat : Nat} {effect : Effect} (h : Grant g seat effect g') :
    g.SameCards g' := by
  cases h with
  | foreignAid hp | tax hp | embezzle hp | assassinate hp | assassinateDead hp | blockKill _ _ hp =>
    exact map_cards_set hp rfl
  | @steal p q ms target hp hq htarget =>
    have hp' : (g.players.set target { q with coins := q.coins - min q.coins 2 })[seat]?
        = some p := by
      rw [List.getElem?_set_ne htarget, hp]
    calc ((g.players.set target { q with coins := q.coins - min q.coins 2 }).set seat
          { p with coins := p.coins + min q.coins 2 }).map (·.cards)
      _ = (g.players.set target { q with coins := q.coins - min q.coins 2 }).map (·.cards) :=
        map_cards_set hp' rfl
      _ = g.players.map (·.cards) := map_cards_set hq rfl
  | exchange | inspect | inspectDead | block => rfl

/-- A claim that goes through leaves a stack of one of the shapes. -/
theorem Pending.shape_grant (h : g.Pending c g.stack.frames)
    (hhands : ∀ p ∈ g.players, p.cards.length = handSize) (hgrant : Grant g c.actor c.effect g') :
    g'.Shape g'.stack.frames := by
  have hlife := hgrant.sameCards.sameLife
  generalize hf : g.stack.frames = below at h
  generalize he : c.effect = effect at hgrant
  cases h with
  | own hc hlives =>
    have hne : ∀ target, effect.victim? = some target → target ≠ c.actor := by
      intro target htarget
      rw [← he] at htarget
      exact (hc.victim target htarget).2
    have hactor := hlife.isAlive hlives
    cases hgrant with
    | foreignAid | tax | embezzle | assassinateDead | steal | inspectDead =>
      rw [hf]
      exact .turn ⟨c.actor, hactor⟩
    | assassinate hp ht =>
      simp only [hf]
      exact .loss (hlife.isAlive ht) (hne _ rfl).symm hactor (hc.actor ▸ hactor)
    | @exchange p ms drawn rest hp hdeck hdrawn =>
      simp only [hf]
      -- The dead cards are the hand, and the living ones are on offer with those that were drawn.
      have hlen := hhands p (List.mem_of_getElem? hp)
      have hcount := p.livingCount_add_deadCount
      have hpos := Player.isAlive_iff_livingCount.1 ((isAlive_eq hp).symm.trans hlives)
      have hdead : (p.cards.filter (·.dead)).length = p.deadCount :=
        (List.countP_eq_length_filter ..).symm
      refine .exchange hc.actor ?_ ?_ (hc.actor ▸ hactor)
      · change (p.cards.filter (·.dead)).length < handSize
        omega
      · change (p.cards.filter (·.dead)).length + (p.living.map (·.2) ++ drawn).length
          = handSize + g.exchangeDraw
        rw [List.length_append, List.length_map, hdead, hdrawn]
        unfold Player.livingCount at hcount
        omega
    | inspect ht =>
      simp only [hf]
      exact .interrogation hc.actor (by rw [← hc.actor]; exact hne _ rfl) ht nofun
        (hc.actor ▸ hactor)
    | block | blockKill => exact absurd he hc.ne_block
  | block hc halarm hb hlives hactor =>
    -- A block takes the claim below it off the stack as well, and the turn is left.
    rw [hb.effect] at he
    subst he
    cases hgrant with
    | block hf' | blockKill hf' =>
      rw [hf] at hf'
      cases hf'
      exact .turn ⟨_, hlife.isAlive hlives⟩

/-! ## Challenges that are answered -/

/-- The claim below a challenge is pending. -/
theorem Shape.of_reveal (h : g.Shape (.reveal r :: .claim c :: below)) :
    g.Pending c below ∧ c.challengeable = true ∧ c.alarm = none
      ∧ r.challenger ≠ r.challenged ∧ g.isAlive r.challenger = true
      ∧ r.challenged = c.actor ∧ r.clans = c.challengedClans ∧ r.inverted = c.inverted := by
  cases h with
  | challenged h hopen halarm hne hlives =>
    exact ⟨h, hopen, halarm, hne, hlives, rfl, rfl, rfl⟩

/-- Whoever is challenged is alive. -/
theorem Shape.isAlive_challenged (h : g.Shape (.reveal r :: .claim c :: below)) :
    g.isAlive r.challenged = true := by
  obtain ⟨hpending, -, -, -, -, hactor, -⟩ := h.of_reveal
  rw [hactor]
  exact hpending.isAlive_actor

/-- While the variant is asked for, there is none. -/
theorem Shape.variant_eq_none (h : g.Shape (.variantChoice :: below)) : g.variant = none := by
  cases h with
  | variantChoice hv => exact hv

/-- A claim that was challenged in vain stands, and the challenger has to lose a card. -/
theorem Pending.shape_uphold {seat : Nat} (h : g.Pending c below)
    (hopen : c.challengeable = true) (halarm : c.alarm = none)
    (hne : seat ≠ c.actor) (hlives : g.isAlive seat = true) (hcurrent : g'.current = g.current)
    (hlen : g'.players.length = g.players.length) (hlife : g.SameLife g') :
    g'.Shape (.loss seat :: .claim { c with challengeable := false } :: below) := by
  have hpending := h.congr hcurrent hlen fun _ => hlife.isAlive
  have hclosed := hpending.update c.accepted c.alarm (nofun : false = true → _)
  exact .upheld hclosed rfl halarm hne (hlife.isAlive hlives)
    (hcurrent ▸ hlife.isAlive (h.isAlive_current hopen))

/-- A claim that could be challenged is dropped, whatever becomes of the hand of its player. -/
theorem Pending.shape_drop {seat : Nat} {q : Player} (h : g.Pending c below)
    (hopen : c.challengeable = true) (hne : seat ≠ c.actor) (hlives : g.isAlive seat = true)
    (hcurrent : g'.current = g.current) (hps : g'.players = g.players.set c.actor q) :
    g'.Shape below := by
  have hlen : g'.players.length = g.players.length := by rw [hps, List.length_set]
  cases h with
  | own =>
    exact .turn ⟨seat, by rw [isAlive_of_set hps hne, hlives]⟩
  | block hc halarm hb _ hactor =>
    have hlives' : g'.isAlive _ = true :=
      (isAlive_of_set hps (Ne.symm hb.actor_ne)).trans (hactor hopen)
    exact .asked (.own (hc.congr hcurrent hlen) hlives')

/-- An answer leaves a stack of one of the shapes. -/
theorem Shape.answer (h : g.Shape (.reveal r :: .claim c :: below))
    (hanswer : Answer g r c below choice g') : g'.Shape g'.stack.frames := by
  obtain ⟨hpending, hopen, halarm, hne, hlives, hactor, -, hinv⟩ := h.of_reveal
  rw [hactor] at hne
  cases hanswer with
  | proven hp | shown hp =>
    exact hpending.shape_uphold hopen halarm hne hlives rfl (List.length_set ..)
      (.of_set hp rfl fun _ => Player.hasLiving_redraw ..)
  | caught hp =>
    rw [hactor] at hp
    exact hpending.shape_drop hopen hne hlives rfl (by rw [hactor])
  | conceded hinverted =>
    rw [hactor]
    cases hpending with
    | own hc hlives' => exact .loss hlives' hne hlives (hc.actor ▸ hlives')
    | block _ _ hb =>
      rw [hinv, hb.not_inverted] at hinverted
      cases hinverted

/-! ## All steps -/

/-- A loss that is taken leaves a stack of one of the shapes, whatever becomes of the loser's
hand. -/
theorem Shape.lose {seat : Nat} {q : Player} (h : g.Shape (.loss seat :: below))
    (hcurrent : g'.current = g.current) (hps : g'.players = g.players.set seat q) :
    g'.Shape below := by
  cases h with
  | loss _ hne hother =>
    exact .turn ⟨_, (isAlive_of_set hps hne).trans hother⟩
  | upheld h hclosed _ hne _ =>
    exact .asked (h.congr_of_ne hcurrent hps hclosed hne)

/-- A sound game is dealt from the deck that is built for the variant. -/
theorem Sound.deal_eq (h : g.Sound) (hv : g.variant = none) (v : Variant) (frames : List Frame)
    (ms : List Message) :
    ∃ ms', { g with venue := g.venue.saying ms, stack := ⟨frames⟩ }.deal v
      = .ok { g.dealt v (Deck.build v.cast g.overrides g.rng) with
          venue := g.venue.saying ms', stack := ⟨frames⟩ } := by
  obtain ⟨ms', hms⟩ := Game.deal_eq (g := { g with
      venue := g.venue.saying ms, stack := ⟨frames⟩ }) (v := v) h.few h.seats h.current
    (by
      intro p hp
      rw [((h.undealt hv).2 p hp).2]
      decide)
  refine ⟨ms' ++ ms, ?_⟩
  rw [hms, Venue.saying_saying]
  rfl

/-- What comes of the deal in a sound game whose variant is being chosen. -/
theorem Sound.of_deal {v : Variant} {ms : List Message} (h : g.Sound)
    (hf : g.stack.frames = .variantChoice :: below)
    (hdeal : { g with venue := g.venue.saying ms, stack := ⟨below⟩ }.deal v = .ok g') :
    ∃ built ms', built.1.cards.Perm (Deck.full v.cast) ∧
      g' = { g.dealt v built with venue := g.venue.saying ms', stack := ⟨[.turn]⟩ } := by
  cases h.shape_of hf with
  | variantChoice hv =>
    obtain ⟨ms', hms⟩ := h.deal_eq hv v [.turn] ms
    rw [hms] at hdeal
    exact ⟨_, ms', Deck.build_perm .., (Except.ok.inj hdeal).symm⟩

/-- A claim whose frame is taken off leaves a stack of one of the shapes once it went through. -/
theorem Sound.shape_grant {g₁ : Game} (h : g.Sound) (hf : g.stack.frames = .claim c :: below)
    (hgrant : Grant g₁ c.actor c.effect g') (hframes : g₁.stack.frames = below)
    (hcurrent : g₁.current = g.current) (hps : g₁.players = g.players) :
    g'.Shape g'.stack.frames := by
  have hhands := h.hands (h.variant_ne_none hf nofun)
  cases h.shape_of hf with
  | asked hpending =>
    have hlife : g.SameLife g₁ := .of_players_eq hps
    have hpending' := hpending.congr hcurrent (by rw [hps]) fun _ => hlife.isAlive
    rw [← hframes] at hpending'
    rw [← hps] at hhands
    exact hpending'.shape_grant hhands hgrant

/-- Every step from a sound game leaves a stack of one of the shapes. -/
theorem Step.shape (h : g.Sound) (hstep : Step g cause g') : g'.Shape g'.stack.frames := by
  have hshape := h.shape
  cases hstep with
  | @deal v ms below seat index g' hf _ hdeal =>
    obtain ⟨built, ms', hperm, rfl⟩ := h.of_deal hf hdeal
    have hbuilt := hperm.length_eq.trans (Deck.length_full _)
    exact .turn ⟨g.current, isAlive_dealt (v := v) hbuilt h.seats h.current⟩
  | income hf hp =>
    exact hshape.congr rfl rfl (List.length_set ..) (SameCards.sameLife (map_cards_set hp rfl))
  | coup hf hp hlives hc ht =>
    cases h.shape_of hf with
    | turn =>
      simp only [isTarget, Bool.and_eq_true, bne_iff_ne] at ht
      obtain ⟨⟨hne, htarget⟩, -⟩ := ht
      simp only [hf]
      -- Paying for the coup leaves everybody alive.
      refine .loss ?_ hne.symm ?_ ?_ <;>
        refine SameLife.isAlive (SameCards.sameLife (map_cards_set hp rfl)) ?_
      · exact htarget
      · exact hlives
      · exact hlives
  | convert hf hr hp hc ht hcost hq =>
    refine hshape.congr rfl rfl (by simp) (SameCards.sameLife ?_)
    exact (map_cards_set hq (by rfl)).trans (map_cards_set hp (by rfl))
  | claim hf hc hopen =>
    cases h.shape_of hf with
    | turn =>
      simp only [hf]
      exact .asked ((hopen.pending _).congr rfl rfl fun _ => id)
  | askTarget => exact hshape.congr rfl rfl rfl (.of_players_eq rfl)
  | pass hf | finish hf =>
    cases h.shape_of hf with
    | turn hlives =>
      simp only [hf]
      exact .turn hlives
  | accept hf =>
    cases h.shape_of hf with
    | asked hpending => exact .asked (Pending.congr (hpending.update _ _ id) rfl rfl fun _ => id)
  | acceptLast hf ha hgrant | unopposed hf ha hgrant => exact h.shape_grant hf hgrant rfl rfl rfl
  | timeOut hf hid hgrant => exact h.shape_grant hf hgrant rfl rfl rfl
  | ask hf =>
    cases h.shape_of hf with
    | asked hpending => exact .asked (Pending.congr (hpending.update _ _ id) rfl rfl fun _ => id)
  | @challenge c below seat hf hc hne hlives =>
    cases h.shape_of hf with
    | asked hpending =>
      have hchallenged := Shape.challenged (hpending.update c.accepted none id) hc rfl hne hlives
      exact hchallenged.congr rfl rfl rfl (.of_players_eq rfl)
  | block hf hc hne hlives =>
    cases h.shape_of hf with
    | asked hpending =>
      exact .asked ((hpending.counter hc hne hlives _).congr rfl rfl fun _ => id)
  | answer hf hanswer | answerLast hf _ _ _ hanswer =>
    exact (h.shape_of hf).answer hanswer
  | dropDead hf hdead => cases (h.shape_of hf).isAlive_challenged.symm.trans hdead
  | lose hf | loseAll hf =>
    exact (h.shape_of hf).lose rfl rfl
  | keep hf hc hmore =>
    cases h.shape_of hf with
    | exchange hplayer hhand hcards ha =>
      obtain ⟨hlt, -⟩ := List.getElem?_eq_some_iff.1 hc
      refine .exchange hplayer ?_ ?_ ha
      · rw [List.length_append, List.length_singleton]
        exact hmore
      · change _ = handSize + g.exchangeDraw
        rw [List.length_append, List.length_singleton, List.length_eraseIdx_of_lt hlt]
        omega
  | keepLast hf hc hlast hp =>
    cases h.shape_of hf with
    | exchange hplayer hhand hcards =>
      obtain ⟨hlt, -⟩ := List.getElem?_eq_some_iff.1 hp
      refine .turn ⟨_, (isAlive_eq (List.getElem?_set_self hlt)).trans ?_⟩
      simp [Player.isAlive]
  | showCard hf hshown hlives | showOnly hf hshown hlives =>
    cases h.shape_of hf with
    | interrogation hinquisitor hne htarget _ ha =>
      refine .interrogation hinquisitor hne htarget (fun slot hslot => ?_) ha
      cases hslot
      exact hlives
  | allow hf =>
    cases h.shape_of hf with
    | interrogation hinquisitor hne htarget => exact .turn ⟨_, htarget⟩
  | change hf hshown hp =>
    cases h.shape_of hf with
    | interrogation hinquisitor hne htarget =>
      exact .turn ⟨_, SameLife.isAlive (.of_set hp rfl fun _ => Player.hasLiving_redraw ..) htarget⟩
  | askSomebody => exact hshape.congr rfl rfl rfl (.of_players_eq rfl)

end CoupTable.Game
