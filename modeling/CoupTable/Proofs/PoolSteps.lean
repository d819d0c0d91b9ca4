import Mathlib.Data.List.Perm.Basic
import CoupTable.Proofs.ShapeSteps

/-!
# Steps keep the cards

Cards move between the draw pile and the hands on five ways: a card that was shown in proof is
changed, a hand that was shown is, the inquisitor has a card changed, and cards are drawn for an
exchange and go back after it. On each of them the pool of all cards is the same up to order, and
everybody stores two cards before and after. All other steps leave the draw pile alone and at most
turn cards face up.
-/

namespace CoupTable

/-- Cards are the dead and the living ones among them. -/
theorem Player.livingFrom_perm (slot : Nat) (cards : List Card) :
    (cards.map (·.character)).Perm
      ((cards.filter (·.dead)).map (·.character) ++ (livingFrom slot cards).map (·.2)) := by
  induction cards generalizing slot with
  | nil => exact .refl _
  | cons card cards ih =>
    rw [List.map_cons, livingFrom]
    cases hdead : card.dead with
    | true => simpa [hdead] using ih (slot + 1)
    | false =>
      simpa [hdead] using ((ih (slot + 1)).cons card.character).trans List.perm_middle.symm

/-- A hand is its dead and its living cards. -/
theorem Player.characters_perm (p : Player) : p.characters.Perm
    ((p.cards.filter (·.dead)).map (·.character) ++ p.living.map (·.2)) := by
  rw [living_eq]
  exact livingFrom_perm 0 p.cards

namespace Game

variable {g g' : Game} {cause : Cause} {choice seat : Nat} {p q : Player} {f : Frame}
  {below : List Frame}

/-! ## The draw pile -/

/-- A reshuffled draw pile is the old one with the cards that were put back. -/
theorem reshuffled_perm (g : Game) (cards : List Character) :
    (g.reshuffled cards).1.cards.Perm (cards ++ g.deck.cards) := by
  have hshuffle := Deck.shuffle_cards_perm (cards.foldl Deck.putBack g.deck) g.rng
  rw [Deck.cards_foldl_putBack] at hshuffle
  exact hshuffle.trans ((List.reverse_perm cards).append_right _)

/-! ## The pool -/

/-- The pool is the same where all hands and the draw pile are. -/
theorem pool_perm_of_sameCards (he : g.exchange? = none) (he' : g'.exchange? = none)
    (hsame : g.SameCards g') (hdeck : g'.deck = g.deck) : g'.pool.Perm g.pool := by
  rw [pool_of_none he, pool_of_none he', hsame.characters_eq, hdeck]

/-- The pool is the same up to order where one player swaps cards with the draw pile. -/
theorem pool_perm_of_set (he : g.exchange? = none) (he' : g'.exchange? = none)
    (hp : g.players[seat]? = some p) (hps : g'.players = g.players.set seat q)
    (hcards : (g'.deck.cards ++ q.characters).Perm (g.deck.cards ++ p.characters)) :
    g'.pool.Perm g.pool := by
  have hset := flatMap_set_perm (f := fun p : Player => p.characters) (b := q) hp
  rw [pool_of_none he, pool_of_none he', hps, List.perm_iff_count]
  intro c
  have hset' := hset.count_eq c
  have hcards' := hcards.count_eq c
  simp only [List.count_append] at hset' hcards' ⊢
  omega

/-- Cards that are put back and drawn for again only change places with the draw pile. -/
theorem redraw_perm (cards : List (Nat × Character)) {drawn rest : List Character}
    (hcards : ∀ card ∈ cards, p.characters[card.1]? = some card.2)
    (hnodup : (cards.map (·.1)).Nodup) (hlen : drawn.length = cards.length)
    (hdeck : (g.reshuffled (cards.map (·.2))).1.cards = drawn ++ rest) :
    (rest ++ (p.redraw (cards.map (·.1)) drawn).characters).Perm
      (g.deck.cards ++ p.characters) := by
  have hshuffle := g.reshuffled_perm (cards.map (·.2))
  have hredraw := Player.characters_redraw_perm hcards hnodup hlen
  rw [hdeck] at hshuffle
  rw [List.perm_iff_count]
  intro c
  have hshuffle' := hshuffle.count_eq c
  have hredraw' := hredraw.count_eq c
  simp only [List.count_append] at hshuffle' hredraw' ⊢
  omega

/-- Changing one card only changes places with the draw pile. -/
theorem redraw_one_perm {slot : Nat} {card : Card} {drawn : Character} {rest : List Character}
    (hcard : p.cards[slot]? = some card)
    (hdeck : (g.reshuffled [card.character]).1.cards = drawn :: rest) :
    (rest ++ (p.redraw [slot] [drawn]).characters).Perm (g.deck.cards ++ p.characters) := by
  refine redraw_perm (g := g) [(slot, card.character)] ?_ (by simp) rfl hdeck
  intro found hfound
  rw [List.mem_singleton.1 hfound, Player.characters, List.getElem?_map, hcard, Option.map_some]

/-- Changing all living cards only changes places with the draw pile. -/
theorem redraw_living_perm {drawn rest : List Character}
    (hdeck : (g.reshuffled (p.living.map (·.2))).1.cards = drawn ++ rest)
    (hdrawn : drawn.length = p.livingCount) :
    (rest ++ (p.redraw p.livingSlots drawn).characters).Perm (g.deck.cards ++ p.characters) := by
  refine redraw_perm (g := g) p.living ?_ Player.livingSlots_nodup hdrawn hdeck
  intro found hfound
  rw [Player.characters, List.getElem?_map, Player.mem_living.1 hfound, Option.map_some]

/-- A claim that goes through keeps the pool. -/
theorem Grant.pool_perm {seat : Nat} {effect : Effect} (h : Grant g seat effect g')
    (he : g.exchange? = none) : g'.pool.Perm g.pool := by
  have hsame := h.sameCards
  cases h with
  | foreignAid | tax | embezzle | assassinateDead | steal | inspectDead | assassinate | inspect =>
    exact pool_perm_of_sameCards he he hsame rfl
  | @exchange p ms drawn rest hp hdeck =>
    -- the stored hand is set aside, and its living cards are on offer
    have hpool := pool_of_some (g := { g with
      venue := g.venue.saying ms
      deck := ⟨rest⟩
      stack := ⟨.exchange ⟨seat, p.cards.filter (·.dead), p.living.map (·.2) ++ drawn⟩
        :: g.stack.frames⟩ }) (e := ⟨seat, p.cards.filter (·.dead), p.living.map (·.2) ++ drawn⟩)
      rfl hp
    have hhand := p.characters_perm
    rw [List.perm_iff_count]
    intro c
    have hpool' := hpool.count_eq c
    have hhand' := hhand.count_eq c
    rw [pool_of_none he, hdeck]
    simp only [List.count_append] at hpool' hhand' ⊢
    omega
  | block hf | blockKill hf =>
    have he' := he
    rw [exchange?, hf] at he'
    exact pool_perm_of_sameCards he he' hsame rfl

/-- An answer keeps the pool. -/
theorem Answer.pool_perm {r : Reveal} {c : Claim} (h : Answer g r c below choice g')
    (he : g.exchange? = none) (hbelow : exchangeIn below = none) : g'.pool.Perm g.pool := by
  cases h with
  | proven hp hplain hcard hlives hclan hdeck =>
    exact pool_perm_of_set he hbelow hp rfl (redraw_one_perm hcard hdeck)
  | shown hp hinverted hclan hdeck hdrawn =>
    exact pool_perm_of_set he hbelow hp rfl (redraw_living_perm hdeck hdrawn)
  | caught hp =>
    exact pool_perm_of_set he hbelow hp rfl (by rw [Player.characters_killSlot])
  | conceded => exact pool_perm_of_sameCards he hbelow rfl rfl

/-- Turning all cards face up keeps the characters. -/
theorem characters_killAll (p : Player) : p.killAll.characters = p.characters := by
  unfold Player.killAll
  generalize p.livingSlots = slots
  induction slots generalizing p with
  | nil => rfl
  | cons slot slots ih => rw [List.foldl_cons, ih, Player.characters_killSlot]

/-- A claim whose frame is taken off keeps the pool when it goes through. -/
theorem Sound.pool_grant {c : Claim} {g₁ : Game} (h : g.Sound)
    (hf : g.stack.frames = .claim c :: below) (hgrant : Grant g₁ c.actor c.effect g')
    (hframes : g₁.stack.frames = below) (hps : g₁.players = g.players)
    (hdeck : g₁.deck = g.deck) : g'.pool.Perm g.pool := by
  have hshape := h.shape_of hf
  have he := h.exchange?_eq_none hf nofun
  have he₁ : g₁.exchange? = none := by
    rw [exchange?, hframes]
    exact hshape.exchangeIn_below
  calc g'.pool
    _ |>.Perm g₁.pool := hgrant.pool_perm he₁
    _ |>.Perm g.pool := pool_perm_of_sameCards he he₁ (by rw [SameCards, hps]) hdeck

/-- The pool stays when a card that was on offer is kept. -/
theorem keep_pool_perm {e : Exchange} {index : Nat} {c : Character} (h : g.Sound)
    (hf : g.stack.frames = .exchange e :: below) (hc : e.offered[index]? = some c)
    (hps : g'.players = g.players) (hdeck : g'.deck = g.deck)
    (hframes : g'.stack.frames = .exchange { e with
      hand := e.hand ++ [⟨c, false⟩], offered := e.offered.eraseIdx index } :: below) :
    g'.pool.Perm g.pool := by
  have he : g.exchange? = some e := by rw [exchange?, hf]; rfl
  have he' : g'.exchange? = some { e with
      hand := e.hand ++ [⟨c, false⟩], offered := e.offered.eraseIdx index } := by
    rw [exchange?, hframes]
    rfl
  obtain ⟨-, hplayer, -⟩ := h.shape.of_exchangeIn he
  obtain ⟨p, hp⟩ := h.exists_current
  rw [← hplayer] at hp
  obtain ⟨hlt, hget⟩ := List.getElem?_eq_some_iff.1 hc
  have hbefore := pool_of_some he hp
  have hafter := pool_of_some he' (p := p) (by rw [hps]; exact hp)
  have hoffered := List.getElem_cons_eraseIdx_perm hlt
  rw [hget] at hoffered
  -- The card goes from the offer to the hand, and nothing else moves.
  rw [hps, hdeck] at hafter
  rw [List.perm_iff_count]
  intro a
  replace hbefore := hbefore.count_eq a
  replace hafter := hafter.count_eq a
  replace hoffered := hoffered.count_eq a
  simp only [List.count_append, List.map_append, List.map_cons, List.map_nil, List.count_cons,
    List.count_nil] at hbefore hafter hoffered
  omega

/-- The pool stays when the last card is kept and the others go back. -/
theorem keepLast_pool_perm {e : Exchange} {index : Nat} {c : Character} (h : g.Sound)
    (hf : g.stack.frames = .exchange e :: below) (hc : e.offered[index]? = some c)
    (hp : g.players[e.player]? = some p)
    (hps : g'.players = g.players.set e.player { p with cards := e.hand ++ [⟨c, false⟩] })
    (hdeck : g'.deck = (g.reshuffled (e.offered.eraseIdx index)).1)
    (hframes : g'.stack.frames = below) : g'.pool.Perm g.pool := by
  have hshape := h.shape_of hf
  have he : g.exchange? = some e := by rw [exchange?, hf]; rfl
  have he' : g'.exchange? = none := by
    rw [exchange?, hframes]
    exact hshape.exchangeIn_below
  obtain ⟨hlt, hget⟩ := List.getElem?_eq_some_iff.1 hc
  have hbefore := pool_of_some he hp
  have hset := flatMap_set_perm (f := fun p : Player => p.characters)
    (b := { p with cards := e.hand ++ [⟨c, false⟩] }) hp
  have hshuffle := g.reshuffled_perm (e.offered.eraseIdx index)
  have hoffered := List.getElem_cons_eraseIdx_perm hlt
  have hkept : Player.characters { p with cards := e.hand ++ [⟨c, false⟩] }
      = e.hand.map (·.character) ++ [c] := List.map_append ..
  rw [hget] at hoffered
  -- What was on offer is the card that is kept and those that go back to the pile.
  rw [pool_of_none he', hps, hdeck, List.perm_iff_count]
  intro a
  replace hbefore := hbefore.count_eq a
  replace hset := hset.count_eq a
  replace hshuffle := hshuffle.count_eq a
  replace hoffered := hoffered.count_eq a
  simp only [hkept, List.count_append, List.count_cons, List.count_nil]
    at hbefore hset hshuffle hoffered ⊢
  omega

/-- Every step after the deal keeps the pool. -/
theorem Step.pool_perm (h : g.Sound) (hstep : Step g cause g') (hv : g.variant ≠ none) :
    g'.pool.Perm g.pool := by
  -- An exchange is on top of the stack, if there is one: the frames below hold no cards.
  have hbelow : ∀ {f below}, g.stack.frames = f :: below → exchangeIn below = none := by
    intro f below hf
    exact (h.shape_of hf).exchangeIn_below
  cases hstep with
  | deal hf => exact absurd (h.shape_of hf).variant_eq_none hv
  -- At the beginning of a turn no card moves, whatever is paid.
  | income hf hp | coup hf hp =>
    have he := h.exchange?_eq_none hf nofun
    exact pool_perm_of_sameCards he he (map_cards_set hp rfl) rfl
  | convert hf hr hp hc ht hcost hq =>
    have he := h.exchange?_eq_none hf nofun
    refine pool_perm_of_sameCards he he ?_ rfl
    exact (map_cards_set hq (by rfl)).trans (map_cards_set hp (by rfl))
  | claim hf =>
    have he := h.exchange?_eq_none hf nofun
    exact pool_perm_of_sameCards he he rfl rfl
  | askTarget | pass | finish | askSomebody => exact .refl _
  -- Neither does one while a frame that is no exchange is put on top, taken away or changed.
  | accept hf | ask hf | challenge hf | block hf | dropDead hf | showCard hf | showOnly hf
  | allow hf =>
    have he := h.exchange?_eq_none hf nofun
    have htail := hbelow hf
    exact pool_perm_of_sameCards he htail rfl rfl
  -- An exchange that is granted moves cards from the draw pile to the offer.
  | acceptLast hf ha hgrant | unopposed hf ha hgrant => exact h.pool_grant hf hgrant rfl rfl rfl
  | timeOut hf hid hgrant => exact h.pool_grant hf hgrant rfl rfl rfl
  | answer hf hanswer | answerLast hf _ _ _ hanswer =>
    have he := h.exchange?_eq_none hf nofun
    have htail := hbelow hf
    exact hanswer.pool_perm he htail
  -- A card that is lost stays with its player, face up.
  | lose hf hp =>
    have he := h.exchange?_eq_none hf nofun
    have htail := hbelow hf
    exact pool_perm_of_set he htail hp rfl (by rw [Player.characters_killSlot])
  | loseAll hf hp =>
    have he := h.exchange?_eq_none hf nofun
    have htail := hbelow hf
    exact pool_perm_of_set he htail hp rfl (by rw [characters_killAll])
  -- What is kept goes from the offer to the hand, and the rest of the offer goes back in the end.
  | keep hf hc => exact keep_pool_perm h hf hc rfl rfl rfl
  | keepLast hf hc hlast hp => exact keepLast_pool_perm h hf hc hp rfl rfl rfl
  -- A card that has to be changed goes into the draw pile before another one is drawn.
  | change hf hshown hp hcard hlives hdeck =>
    have he := h.exchange?_eq_none hf nofun
    have htail := hbelow hf
    exact pool_perm_of_set he htail hp rfl (redraw_one_perm hcard hdeck)

end Game

end CoupTable
