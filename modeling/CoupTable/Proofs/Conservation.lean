import CoupTable.Proofs.Reaching

/-!
# The cards of a game are always the same

From the deal on the cards of a reachable game, counted character by character over the draw pile
and the hands, are those of a full deck, although they move between the two in many ways. A player
who exchanges cards has them twice meanwhile: in the hand that is still stored, and among those kept
and on offer, which are the ones that count.
-/

namespace CoupTable.Game

variable {g : Game} {frames : List Frame}

/-! ## Counting the cards -/

/-- The cards counted player by player are two for each. -/
theorem foldl_length_cards {players : List Player} (h : ∀ p ∈ players, p.cards.length = handSize)
    (count : Nat) : players.foldl (fun count p => count + p.cards.length) count
      = count + handSize * players.length := by
  induction players generalizing count with
  | nil => rfl
  | cons p players ih =>
    have hp := h p List.mem_cons_self
    rw [List.foldl_cons, ih fun q hq => h q (List.mem_cons_of_mem _ hq), hp, List.length_cons,
      Nat.mul_succ]
    omega

/-- An exchange is under way when its frame is on the stack. -/
theorem exchange?_isSome_iff : g.exchange?.isSome = true ↔ ∃ e, .exchange e ∈ g.stack.frames := by
  unfold exchange? exchangeIn
  rw [List.findSome?_isSome_iff]
  constructor
  · rintro ⟨f, hf, hsome⟩
    cases f with
    | exchange e => exact ⟨e, hf⟩
    | _ => cases hsome
  · rintro ⟨e, he⟩
    exact ⟨.exchange e, he, rfl⟩

/-- All cards together are fifteen. -/
theorem Sound.cardCount_eq (h : g.Sound) (hv : g.variant ≠ none) : g.cardCount = 15 := by
  have hsize := h.size_deck hv
  unfold cardCount
  dsimp only
  rw [foldl_length_cards (h.hands hv)]
  unfold drawnOut at hsize
  cases he : g.exchange? with
  | none =>
    rw [he] at hsize
    have hnone : ∀ e, Frame.exchange e ∉ g.stack.frames := by
      intro e hmem
      have hsome := exchange?_isSome_iff.2 ⟨e, hmem⟩
      rw [he] at hsome
      cases hsome
    have hheld : g.deck.size + handSize * g.players.length = 15 := hsize
    rw [hheld]
    -- no other frame holds cards
    generalize g.stack.frames = frames at hnone
    induction frames with
    | nil => rfl
    | cons f frames ih =>
      rw [List.foldl_cons]
      cases f with
      | exchange e => exact absurd List.mem_cons_self (hnone e)
      | _ => exact ih fun e he => hnone e (List.mem_cons_of_mem _ he)
  | some e =>
    obtain ⟨hframes, hplayer, -, hcards⟩ := h.shape.of_exchangeIn he
    obtain ⟨p, hp⟩ := h.exists_current
    have hhand := h.length_hand hv hp
    rw [hframes]
    rw [he] at hsize
    simp only [List.foldl_cons, List.foldl_nil, hplayer, hp, Option.map_some, Option.getD_some,
      hhand]
    simp only [Option.isSome_some, if_true] at hsize
    have hfew := h.few
    unfold minPlayers at hfew
    unfold handSize at *
    omega

/-! ## The result -/

/-- From the deal on a reachable game has three copies of each character of its variant and no other
cards, every player stores two, all cards together are fifteen, and the draw pile lacks those that
were drawn for an exchange exactly while it is under way. -/
theorem Reachable.cards_conserved {v : Variant} (h : Reachable g) (hv : g.variant = some v) :
    (∀ c, g.pool.count c = if v.cast.contains c then copiesPerClan else 0) ∧
    (∀ p ∈ g.players, p.cards.length = handSize) ∧
    g.cardCount = 15 ∧
    ((∀ e, .exchange e ∉ g.stack.frames) → g.deck.size + 2 * g.players.length = 15) ∧
    ∀ e, .exchange e ∈ g.stack.frames → g.deck.size + 2 * g.players.length
      + (if v.usesInquisitor then 1 else 2) = 15 := by
  have hsound := h.atRest.toSound
  have hne : g.variant ≠ none := by
    rw [hv]
    exact nofun
  have hsize := hsound.size_deck hne
  refine ⟨fun c => ?_, hsound.hands hne, hsound.cardCount_eq hne, fun hnone => ?_, fun e he => ?_⟩
  · rw [(hsound.pool v hv).count_eq, Deck.count_full]
  · have hrest : g.exchange?.isSome = false := by
      refine Bool.eq_false_iff.2 fun hsome => ?_
      obtain ⟨e, he⟩ := exchange?_isSome_iff.1 hsome
      exact hnone e he
    rw [drawnOut, hrest] at hsize
    exact hsize
  · have hdraw : g.exchangeDraw = if v.usesInquisitor then 1 else 2 := by
      rw [exchangeDraw, usesInquisitor, hv, Option.any_some]
    rw [drawnOut, exchange?_isSome_iff.2 ⟨e, he⟩, if_pos rfl, hdraw] at hsize
    exact hsize

/-- Ada looks at two more cards, and there are still three dukes. -/
theorem cards_conserved_exchanging :
    ∃ g, playOut ["Ada", "Bob"] { seed := some 0, startPlayer := some 0, variant := some .classic }
        [.press 0 "exchange", .press 1 "accept"] = some g ∧
      g.stack.names = ["choose_action", "exchange"] ∧ g.pool.count .duke = 3 := by
  have hrun : (playOut ["Ada", "Bob"]
      { seed := some 0, startPlayer := some 0, variant := some .classic }
      [.press 0 "exchange", .press 1 "accept"]).map (fun g => (g.stack.names, g.variant))
        = some (["choose_action", "exchange"], some .classic) := by
    decide +kernel
  obtain ⟨g, hg, hrun⟩ := Option.map_eq_some_iff.1 hrun
  obtain ⟨hnames, hv⟩ := Prod.mk.inj hrun
  exact ⟨g, hg, hnames, ((reachable_of_playOut hg).cards_conserved hv).1 .duke⟩

end CoupTable.Game
