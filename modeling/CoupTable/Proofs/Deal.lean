import CoupTable.Game.Opening
import CoupTable.Proofs.Shuffle
import CoupTable.Proofs.Statuses

/-!
# The deal

At the beginning of a game two cards from the top of the deck go to every seat in turn. `deal_eq`
gives the game after the deal as an update of the game before it: who holds which cards, what is
left of the deck, and who has a coin less.
-/

namespace CoupTable

/-- The players with two cards each, dealt from the top seat by seat. -/
def dealHands : List Player → List Character → List Player
  | p :: players, a :: b :: cards =>
    { p with cards := [⟨a, false⟩, ⟨b, false⟩] } :: dealHands players cards
  | players, _ => players

/-- The players once the first one of two has paid a coin. -/
def handicap (players : List Player) (first : Nat) : List Player :=
  if players.length = 2 then players.modify first fun p => { p with coins := p.coins - 1 }
  else players

/-- The deal seats nobody and sends nobody away. -/
@[simp] theorem length_dealHands (players : List Player) (cards : List Character) :
    (dealHands players cards).length = players.length := by
  fun_induction dealHands players cards with
  | case1 p players a b cards ih => simp [ih]
  | case2 => rfl

/-- Nor does the handicap. -/
@[simp] theorem length_handicap (players : List Player) (first : Nat) :
    (handicap players first).length = players.length := by
  unfold handicap
  split
  · exact List.length_modify ..
  · rfl

/-- The hands hold the cards that were dealt, in order. -/
theorem characters_dealHands {players : List Player} {cards : List Character}
    (h : cards.length = 2 * players.length) :
    (dealHands players cards).flatMap (·.characters) = cards := by
  fun_induction dealHands players cards with
  | case1 p players a b cards ih =>
    simp only [List.length_cons] at h
    rw [List.flatMap_cons, ih (by omega)]
    rfl
  | case2 players cards hshort =>
    match players, cards, hshort with
    | [], [], _ => rfl
    | _ :: _, a :: b :: _, hshort => exact absurd rfl (hshort _ _ _ _ _ rfl)

/-- Whoever is dealt cards holds two living ones, and has what they had before. -/
theorem mem_dealHands {players : List Player} {cards : List Character} {p : Player}
    (h : cards.length = 2 * players.length) (hp : p ∈ dealHands players cards) :
    ∃ q ∈ players, ∃ a b, p = { q with cards := [⟨a, false⟩, ⟨b, false⟩] } := by
  fun_induction dealHands players cards with
  | case1 q players a b cards ih =>
    simp only [List.length_cons] at h
    rcases List.mem_cons.1 hp with rfl | hp
    · exact ⟨q, List.mem_cons_self, a, b, rfl⟩
    · obtain ⟨q', hq', rest⟩ := ih (by omega) hp
      exact ⟨q', List.mem_cons_of_mem _ hq', rest⟩
  | case2 players cards hshort =>
    match players, cards, hshort with
    | [], _, _ => cases hp
    | _ :: _, a :: b :: _, hshort => exact absurd rfl (hshort _ _ _ _ _ rfl)

/-- The handicap touches no hand. -/
theorem map_cards_handicap (players : List Player) (first : Nat) :
    (handicap players first).map (·.cards) = players.map (·.cards) := by
  unfold handicap
  split
  · apply List.ext_getElem?
    intro k
    simp only [List.getElem?_map, List.getElem?_modify]
    by_cases h : first = k <;> cases players[k]? <;> simp [h]
  · rfl

namespace Game

variable {g : Game} {v : Variant} {seat : Nat} {p : Player}

/-! ## Messages -/

/-- A living player is told the hand; nothing else happens. -/
theorem showCards_eq (h : g.players[seat]? = some p) :
    ∃ ms, (∀ m ∈ ms, m.recipient = .player seat) ∧
      g.showCards seat = .ok { g with venue := g.venue.saying ms } := by
  unfold showCards
  rw [player_eq h, ok_bind]
  split
  · exact ⟨[⟨.player seat, p.handText, []⟩], List.forall_mem_singleton.2 rfl, rfl⟩
  · exact ⟨[], List.forall_mem_nil _, rfl⟩

/-- Everybody is told the hand; nothing else happens. -/
theorem showAllCards_eq (seats : List Nat) (h : ∀ seat ∈ seats, seat < g.players.length) :
    ∃ ms, seats.foldlM (fun g seat => g.showCards seat) g
      = .ok { g with venue := g.venue.saying ms } := by
  induction seats generalizing g with
  | nil => exact ⟨[], rfl⟩
  | cons seat seats ih =>
    obtain ⟨p, hp⟩ := exists_player (h seat List.mem_cons_self)
    obtain ⟨ms, -, hms⟩ := showCards_eq hp
    obtain ⟨ms', hms'⟩ := ih (g := { g with venue := g.venue.saying ms })
      fun seat hseat => h seat (List.mem_cons_of_mem _ hseat)
    refine ⟨ms' ++ ms, ?_⟩
    rw [List.foldlM_cons, hms, ok_bind, hms', Venue.saying_saying]

/-- The status of a game that goes on is a message. -/
theorem showStatus_eq (h : g.isFinished = true → g.isOver = true) :
    g.showStatus = .ok { g with venue := g.venue.saying [g.status] } := by
  unfold showStatus
  -- The end is not announced, since the game goes on or has been over for long.
  have hgo : ((g.broadcast g.statusText (if g.isFinished then [] else g.turnButtons)).isFinished
      && !(g.broadcast g.statusText (if g.isFinished then [] else g.turnButtons)).isOver)
        = false := by
    change (g.isFinished && !g.isOver) = false
    cases hf : g.isFinished with
    | false => rfl
    | true => simp [h hf]
  simp only [hgo, Bool.false_eq_true, if_false]
  rfl

/-! ## The cards -/

/-- Two cards from the top go to each seat in turn. -/
theorem dealTo_eq {before players : List Player} {cards rest : List Character}
    (hplayers : g.players = before ++ players) (hdeck : g.deck.cards = cards ++ rest)
    (hlen : cards.length = 2 * players.length) :
    g.dealTo (List.range' before.length players.length)
      = .ok { g with players := before ++ dealHands players cards, deck := ⟨rest⟩ } := by
  induction players generalizing g before cards with
  | nil =>
    have hcards : cards = [] := List.length_eq_zero_iff.1 hlen
    subst hcards
    simp only [List.nil_append] at hdeck
    simp [dealTo, dealHands, ← hplayers, ← hdeck]
  | cons p players ih =>
    match cards, hlen with
    | a :: b :: cards, hlen =>
      simp only [List.length_cons] at hlen
      have hdraw : drawMany handSize g = .ok ([a, b], { g with deck := ⟨cards ++ rest⟩ }) :=
        @drawMany_eq g [a, b] (cards ++ rest) hdeck
      have hp : ({ g with deck := ⟨cards ++ rest⟩ } : Game).players[before.length]? = some p := by
        simp [hplayers]
      -- The other seats are served from what is left, with this player among those before them.
      have hnext := @ih { g with
          players := (before ++ [{ p with cards := [⟨a, false⟩, ⟨b, false⟩] }]) ++ players
          deck := ⟨cards ++ rest⟩ }
        (before ++ [{ p with cards := [⟨a, false⟩, ⟨b, false⟩] }]) cards rfl rfl (by omega)
      rw [List.length_append, List.length_singleton] at hnext
      unfold dealTo at hnext ⊢
      rw [List.length_cons, List.range'_succ, List.foldlM_cons, hdraw, ok_bind]
      simp only []
      rw [modifyPlayer_eq hp, ok_bind]
      have hset : g.players.set before.length { p with cards := [⟨a, false⟩, ⟨b, false⟩] }
          = (before ++ [{ p with cards := [⟨a, false⟩, ⟨b, false⟩] }]) ++ players := by
        simp [hplayers]
      simp only [List.map_cons, List.map_nil, hset]
      rw [hnext]
      simp [dealHands]

/-- The game after some deck was dealt from, but for the messages. -/
def dealt (g : Game) (v : Variant) (built : Deck × Pcg) : Game :=
  { g with
    rng := built.2
    players := handicap (dealHands g.players (built.1.cards.take (2 * g.players.length))) g.current
    deck := ⟨built.1.cards.drop (2 * g.players.length)⟩
    variant := some v }

section Dealt

variable {built : Deck × Pcg} (hbuilt : built.1.cards.length = 15)
  (hseats : g.players.length ≤ maxPlayers)
include hbuilt hseats

/-- Enough cards are dealt for everybody at a table of six. -/
theorem length_take_built :
    (built.1.cards.take (2 * g.players.length)).length = 2 * g.players.length := by
  rw [List.length_take, hbuilt]
  unfold maxPlayers at hseats
  omega

/-- Whoever was dealt cards has two living ones. -/
theorem cards_of_mem_dealt (hp : p ∈ (g.dealt v built).players) :
    ∃ a b, p.cards = [⟨a, false⟩, ⟨b, false⟩] := by
  have hmem : p.cards ∈ (g.dealt v built).players.map (·.cards) := List.mem_map_of_mem hp
  unfold dealt at hmem
  rw [map_cards_handicap] at hmem
  obtain ⟨q, hq, hcards⟩ := List.mem_map.1 hmem
  obtain ⟨q', _, a, b, rfl⟩ := mem_dealHands (length_take_built hbuilt hseats) hq
  exact ⟨a, b, hcards.symm⟩

/-- The hands after the deal hold what was on top of the deck. -/
theorem characters_dealt : (g.dealt v built).players.flatMap (·.characters)
    = built.1.cards.take (2 * g.players.length) := by
  have hmap := map_cards_handicap
    (dealHands g.players (built.1.cards.take (2 * g.players.length))) g.current
  have hchars := congrArg (fun hands => hands.flatMap fun cards => cards.map (·.character)) hmap
  simp only [List.flatMap_map] at hchars
  exact hchars.trans (characters_dealHands (length_take_built hbuilt hseats))

/-- After the deal everybody is alive. -/
theorem isAlive_dealt (hseat : seat < g.players.length) :
    (g.dealt v built).isAlive seat = true := by
  have hlt : seat < (g.dealt v built).players.length := by simpa [dealt] using hseat
  obtain ⟨p, hp⟩ := exists_player hlt
  obtain ⟨a, b, hcards⟩ := cards_of_mem_dealt hbuilt hseats (List.mem_of_getElem? hp)
  rw [isAlive_eq hp, Player.isAlive, hcards]
  rfl

/-- A game in which everybody is alive is not finished. -/
theorem isFinished_dealt (hfew : minPlayers ≤ g.players.length) :
    (g.dealt v built).isFinished = false := by
  have hlen : (g.dealt v built).players.length = g.players.length := by simp [dealt]
  have hall : (g.dealt v built).livingSeats = List.range g.players.length := by
    unfold livingSeats seats
    rw [hlen, List.filter_eq_self]
    intro seat hseat
    exact isAlive_dealt hbuilt hseats (List.mem_range.1 hseat)
  unfold minPlayers at hfew
  simp only [isFinished, hall, List.length_range, Bool.and_eq_false_iff, decide_eq_false_iff_not]
  right
  omega

/-- The first status of a game comes after everybody was told the hand. -/
theorem showDealt_eq (hfew : minPlayers ≤ g.players.length) :
    ∃ ms, (do
      let g' ← (List.range g.players.length).foldlM (fun (g : Game) seat => g.showCards seat)
        (g.dealt v built)
      g'.showStatus) = .ok { g.dealt v built with venue := g.venue.saying ms } := by
  obtain ⟨ms, hms⟩ := showAllCards_eq (g := g.dealt v built) (List.range g.players.length)
    fun seat hseat => by simpa [dealt] using List.mem_range.1 hseat
  have hstatus := showStatus_eq
    (g := { g.dealt v built with venue := (g.dealt v built).venue.saying ms }) fun hfinished => by
      have hgo := isFinished_dealt (v := v) hbuilt hseats hfew
      change (g.dealt v built).isFinished = true at hfinished
      rw [hgo] at hfinished
      cases hfinished
  refine ⟨(g.dealt v built).status :: ms, ?_⟩
  rw [hms, ok_bind, hstatus, Venue.saying_saying]
  rfl

end Dealt

/-- The first one of two pays the coin of the handicap. -/
theorem payHandicap_eq (hcurrent : g.current < g.players.length)
    (hcoins : ∀ p ∈ g.players, 1 ≤ p.coins) :
    g.payHandicap = .ok { g with players := handicap g.players g.current } := by
  unfold payHandicap handicap
  split
  next =>
    obtain ⟨p, hp⟩ := exists_player hcurrent
    rw [charge_eq hp (hcoins p (List.mem_of_getElem? hp)), List.modify_eq_set_getElem?, hp]
    rfl
  next => rfl

/-- The cards are dealt from a deck of fifteen, and otherwise only messages are sent. -/
theorem dealFrom_eq {built : Deck × Pcg} (hbuilt : built.1.cards.length = 15)
    (hfew : minPlayers ≤ g.players.length) (hseats : g.players.length ≤ maxPlayers)
    (hcurrent : g.current < g.players.length) (hcoins : ∀ p ∈ g.players, 1 ≤ p.coins) :
    ∃ ms, g.dealFrom v built = .ok { g.dealt v built with venue := g.venue.saying ms } := by
  have hlen := length_take_built hbuilt hseats
  obtain ⟨ms, hms⟩ := showDealt_eq (v := v) hbuilt hseats hfew
  refine ⟨ms, ?_⟩
  -- The hands are dealt from the top of the deck that was built.
  have hdeal := @dealTo_eq { g with rng := built.2, deck := built.1, variant := some v } []
    g.players (built.1.cards.take (2 * g.players.length))
    (built.1.cards.drop (2 * g.players.length)) rfl (List.take_append_drop ..).symm hlen
  rw [List.length_nil, ← List.range_eq_range', List.nil_append] at hdeal
  -- Nobody has spent a coin by then, so that the handicap can be paid.
  have hpay := payHandicap_eq (g := { g with
      rng := built.2
      players := dealHands g.players (built.1.cards.take (2 * g.players.length))
      deck := ⟨built.1.cards.drop (2 * g.players.length)⟩
      variant := some v })
    (by rw [length_dealHands]; exact hcurrent)
    (by
      intro p hp
      obtain ⟨q, hq, a, b, rfl⟩ := mem_dealHands hlen hp
      exact hcoins q hq)
  unfold dealFrom
  simp only [seats]
  rw [hdeal, ok_bind, hpay, ok_bind, ← hms]
  simp only [length_handicap, length_dealHands, dealt]

/-- The cards are dealt from the deck that is built for the variant. -/
theorem deal_eq (hfew : minPlayers ≤ g.players.length) (hseats : g.players.length ≤ maxPlayers)
    (hcurrent : g.current < g.players.length) (hcoins : ∀ p ∈ g.players, 1 ≤ p.coins) :
    ∃ ms, g.deal v = .ok { g.dealt v (Deck.build v.cast g.overrides g.rng) with
      venue := g.venue.saying ms } :=
  dealFrom_eq ((Deck.build_perm ..).length_eq.trans (Deck.length_full _)) hfew hseats hcurrent
    hcoins

end Game

end CoupTable
