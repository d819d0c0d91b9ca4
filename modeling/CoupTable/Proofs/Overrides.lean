import CoupTable.Proofs.Choosing
import CoupTable.Proofs.Patience

/-!
# The cards asked for

Cards that are asked for in the settings are brought to the top of the deck, one below the other,
after it was shuffled. What lies on top in the end does not depend on the shuffle: a card that is
asked for is honoured if it belongs to the cast, and not all its copies were given before
(`Deck.honoured`). As long as the cards that were given and those of the pile below make up a full
deck, a card is found in the pile exactly if it can be honoured (`Deck.mem_pile_iff`), and that is
what the proof carries along the list.

`Deck.canSupply` counts, for each character apart, how often it is asked for. It holds of the lists
that are honoured as they stand, and of no others. Whenever the variant is settled the hands are
dealt from the top, and so the cards asked for are those of the first seats.
-/

namespace CoupTable

namespace Deck

variable {cast : Cast} {c a : Character} {given wanted pile l l' : List Character}

/-- Those of the wanted characters that a deck can give after those in `given`: the ones in the cast
of which not all copies were given. -/
def honouredAfter (cast : Cast) (given : List Character) : List Character → List Character
  | [] => []
  | c :: wanted =>
    if cast.contains c && given.count c < copiesPerClan then
      c :: honouredAfter cast (c :: given) wanted
    else honouredAfter cast given wanted

/-- Those of the cards asked for that a deck can give. -/
def honoured (cast : Cast) (overrides : List Character) : List Character :=
  honouredAfter cast [] overrides

/-- The deck is built for some cards asked for, whatever the shuffle. -/
def Stacked (cast : Cast) (overrides : List Character) (d : Deck) : Prop :=
  ∃ shuffled, shuffled.Perm (full cast) ∧ d.cards = bringAllUp overrides shuffled

/-! ## Bringing one card up -/

/-- A copy is replaced if there is one. -/
theorem replaceLast?_eq_none_iff : replaceLast? c a l = none ↔ c ∉ l := by
  induction l with
  | nil => simp [replaceLast?]
  | cons b l ih =>
    rw [replaceLast?]
    cases hrest : replaceLast? c a l with
    | some l' =>
      have hmem : c ∈ l := by
        by_contra hnot
        cases hrest.symm.trans (ih.2 hnot)
      simp [hmem]
    | none =>
      have hnot := ih.1 hrest
      by_cases hb : b = c
      · simp [hb]
      · simp [hb, hnot, Ne.symm hb]

/-- A card that is in the pile is brought up. -/
theorem bringUp?_of_mem (h : c ∈ l) : ∃ rest, bringUp? c l = some (c :: rest) := by
  cases l with
  | nil => cases h
  | cons b l =>
    rw [bringUp?]
    cases hrest : replaceLast? c b l with
    | some l' => exact ⟨l', rfl⟩
    | none =>
      have hb : b = c := ((List.mem_cons.1 h).resolve_right (replaceLast?_eq_none_iff.1 hrest)).symm
      subst hb
      exact ⟨l, if_pos rfl⟩

/-- A card that is not in the pile is not brought up. -/
theorem bringUp?_of_not_mem (h : c ∉ l) : bringUp? c l = none := by
  cases l with
  | nil => rfl
  | cons b l =>
    obtain ⟨hb, hrest⟩ := not_or.1 (mt List.mem_cons.2 h)
    rw [bringUp?, replaceLast?_eq_none_iff.2 hrest]
    exact if_neg (Ne.symm hb)

/-- A card that is in the pile comes to lie on top, and those asked for after it below. -/
theorem bringAllUp_of_mem (wanted : List Character) (h : c ∈ pile) :
    ∃ rest, (c :: rest).Perm pile ∧
      bringAllUp (c :: wanted) pile = c :: bringAllUp wanted rest := by
  obtain ⟨rest, hrest⟩ := bringUp?_of_mem h
  refine ⟨rest, bringUp?_perm hrest, ?_⟩
  rw [bringAllUp, hrest]

/-- A card that is not in the pile is skipped. -/
theorem bringAllUp_of_not_mem (h : c ∉ pile) :
    bringAllUp (c :: wanted) pile = bringAllUp wanted pile := by
  rw [bringAllUp, bringUp?_of_not_mem h]

/-! ## Bringing all cards up -/

/-- If the cards that were given and those of the pile make up a full deck, a card is in the pile if
it is in the cast and not all its copies were given. -/
theorem mem_pile_iff (h : (given ++ pile).Perm (full cast)) :
    c ∈ pile ↔ (cast.contains c && given.count c < copiesPerClan) = true := by
  have hcount := h.count_eq c
  rw [List.count_append, count_full] at hcount
  rw [← List.count_pos_iff, Bool.and_eq_true, decide_eq_true_eq]
  split at hcount
  next hcast =>
    rw [hcast, eq_self_iff_true, true_and]
    omega
  next hcast =>
    simp only [hcast, Bool.false_eq_true, false_and, iff_false]
    omega

/-- The cards that are honoured come to lie on top, and no other card is brought up. -/
theorem bringAllUp_eq (wanted : List Character) (h : (given ++ pile).Perm (full cast)) :
    ∃ rest, bringAllUp wanted pile = honouredAfter cast given wanted ++ rest := by
  induction wanted generalizing given pile with
  | nil => exact ⟨pile, rfl⟩
  | cons c wanted ih =>
    rw [honouredAfter]
    by_cases hmem : c ∈ pile
    · obtain ⟨rest, hperm, heq⟩ := bringAllUp_of_mem wanted hmem
      have hnext : (c :: given ++ rest).Perm (full cast) :=
        calc c :: given ++ rest
          _ |>.Perm (given ++ c :: rest) := List.perm_middle.symm
          _ |>.Perm (given ++ pile) := hperm.append_left given
          _ |>.Perm (full cast) := h
      obtain ⟨rest', hrest⟩ := ih hnext
      rw [if_pos ((mem_pile_iff h).1 hmem), heq, hrest]
      exact ⟨rest', rfl⟩
    · rw [if_neg (mt (mem_pile_iff h).2 hmem), bringAllUp_of_not_mem hmem]
      exact ih h

/-! ## Which cards are supplied -/

/-- A deck holds all the cards asked for if a full deck holds each as often as it is asked for. -/
theorem canSupply_iff :
    canSupply cast wanted = true ↔ ∀ c, wanted.count c ≤ (full cast).count c := by
  have hall : ∀ c, c ∈ Character.all := fun c => by cases c <;> decide
  have hone : ∀ c, (wanted.count c == 0 || cast.contains c && wanted.count c ≤ copiesPerClan) = true
      ↔ wanted.count c ≤ (full cast).count c := by
    intro c
    rw [count_full]
    cases cast.contains c with
    | true =>
      simp only [Bool.true_and, Bool.or_eq_true, beq_iff_eq, decide_eq_true_eq, if_true]
      exact or_iff_right_of_imp fun hzero => hzero ▸ Nat.zero_le _
    | false => simp
  simp only [canSupply, List.all_eq_true, hone]
  exact ⟨fun h c => h c (hall c), fun h c _ => h c⟩

/-- If a full deck holds all the cards that were given and those that are asked for, all of these
are honoured. -/
theorem honouredAfter_eq_self
    (h : ∀ c, given.count c + wanted.count c ≤ (full cast).count c) :
    honouredAfter cast given wanted = wanted := by
  induction wanted generalizing given with
  | nil => rfl
  | cons c wanted ih =>
    have hc := h c
    rw [List.count_cons_self, count_full] at hc
    have hgive : (cast.contains c && given.count c < copiesPerClan) = true := by
      split at hc
      next hcast =>
        rw [hcast, Bool.true_and, decide_eq_true_eq]
        omega
      next => omega
    rw [honouredAfter, if_pos hgive, ih]
    intro b
    have hb := h b
    rw [List.count_cons] at hb ⊢
    omega

variable {overrides : List Character} {d : Deck}

/-- A deck is built for the cards asked for, whatever the generator gives. -/
theorem stacked_build (cast : Cast) (overrides : List Character) (g : Pcg) :
    (build cast overrides g).1.Stacked cast overrides :=
  ⟨_, shuffle_perm (full cast) g, rfl⟩

namespace Stacked

/-- The deck is a full one. -/
theorem perm (h : d.Stacked cast overrides) : d.cards.Perm (full cast) := by
  obtain ⟨shuffled, hperm, heq⟩ := h
  rw [heq]
  exact (bringAllUp_perm overrides shuffled).trans hperm

/-- The cards that are honoured lie on top. -/
theorem honoured_prefix (h : d.Stacked cast overrides) : honoured cast overrides <+: d.cards := by
  obtain ⟨shuffled, hperm, heq⟩ := h
  have hfull : ([] ++ shuffled).Perm (full cast) := hperm
  obtain ⟨rest, hrest⟩ := bringAllUp_eq overrides hfull
  exact ⟨rest, (heq.trans hrest).symm⟩

end Stacked

/-- If a deck holds all the cards asked for, all of them are honoured. -/
theorem honoured_eq_self (h : canSupply cast overrides = true) :
    honoured cast overrides = overrides := by
  refine honouredAfter_eq_self fun c => ?_
  rw [List.count_nil, Nat.zero_add]
  exact canSupply_iff.1 h c

/-- A deck holds all the cards asked for if they lie on top of it once it is built. -/
theorem Stacked.canSupply_iff_prefix (h : d.Stacked cast overrides) :
    canSupply cast overrides = true ↔ overrides <+: d.cards := by
  refine ⟨fun hsupply => ?_, fun hprefix => canSupply_iff.2 fun c => ?_⟩
  · have hprefix := h.honoured_prefix
    rwa [honoured_eq_self hsupply] at hprefix
  · rw [← h.perm.count_eq c]
    exact hprefix.sublist.count_le c

/-- A deck holds all the cards asked for if all of them are honoured. -/
theorem canSupply_iff_honoured :
    canSupply cast overrides = true ↔ honoured cast overrides = overrides := by
  refine ⟨honoured_eq_self, fun h => ?_⟩
  -- What is honoured lies on top of every deck that is built, even if it was not shuffled.
  have hstacked : Stacked cast overrides ⟨bringAllUp overrides (full cast)⟩ := ⟨_, .refl _, rfl⟩
  have hprefix := hstacked.honoured_prefix
  rw [h] at hprefix
  exact hstacked.canSupply_iff_prefix.2 hprefix

end Deck

namespace Game

variable {g g' : Game} {names : List String} {s : Settings} {v : Variant} {i : Input}
  {inputs : List Input} {entropy : Pcg}

/-! ## The deal -/

/-- All cards of a game, in the order in which they are dealt: those of the hands, seat by seat, and
then those of the deck. -/
def cardsInOrder (g : Game) : List Character :=
  g.players.flatMap (·.characters) ++ g.deck.cards

/-- The cards were dealt just now, for a variant, under some settings. -/
inductive FreshlyDealt (s : Settings) (v : Variant) : Game → Prop where
  /-- They were dealt at the start. -/
  | started {names : List String} {entropy : Pcg} {g : Game}
      (hstart : start names s entropy = .ok g) (hv : g.variant = some v) : FreshlyDealt s v g
  /-- They were dealt once the variant was chosen. -/
  | chosen {names : List String} {entropy : Pcg} {g₀ g g' : Game} {inputs : List Input} {i : Input}
      (hstart : start names s entropy = .ok g₀) (hrun : g₀.feedAll inputs = .ok g)
      (hopen : g.variant = none) (hfeed : g.feed i = .ok g') (hv : g'.variant = some v) :
      FreshlyDealt s v g'

section Dealt

variable (built : Deck × Pcg) (venue : Venue) (stack : Stack)

/-- Nothing stirs because of the deal. -/
theorem stirred_dealt : stirred { g.dealt v built with venue, stack } = g.stirred := rfl

/-- After the deal the variant is chosen. -/
theorem variant_dealt : variant { g.dealt v built with venue, stack } = some v := rfl

/-- The hands and the deck hold what was on the deck that was dealt from, in order. -/
theorem cardsInOrder_dealt (hbuilt : built.1.cards.length = 15)
    (hseats : g.players.length ≤ maxPlayers) :
    cardsInOrder { g.dealt v built with venue, stack } = built.1.cards := by
  have hhands := characters_dealt (v := v) hbuilt hseats
  calc cardsInOrder { g.dealt v built with venue, stack }
    _ = (g.dealt v built).players.flatMap (·.characters)
        ++ built.1.cards.drop (2 * g.players.length) := rfl
    _ = built.1.cards := by rw [hhands, List.take_append_drop]

end Dealt

/-- While the variant is open, a press that is a step has the cards dealt. -/
theorem Sound.step_of_open {seat : Nat} {m : Move} (h : g.Sound) (hopen : g.variant = none)
    (hstep : Step g (.press seat m) g') : ∃ v venue,
      g' = { g.dealt v (Deck.build v.cast g.overrides g.rng) with venue, stack := ⟨[.turn]⟩ } := by
  obtain ⟨hidle, -⟩ | ⟨_, _, v, ms, -, -, hdeal⟩ := hstep.of_variantChoice (h.undealt hopen).1
  · cases hidle
  · obtain ⟨ms', hdealt⟩ := h.deal_eq hopen v [.turn] ms
    exact ⟨v, _, Except.ok.inj (hdeal.symm.trans hdealt)⟩

/-- While the variant is open nothing happens but to the venue, until the cards are dealt. -/
theorem AtRest.feed_of_open (h : g.AtRest) (hopen : g.variant = none)
    (hfeed : g.feed i = .ok g') : (∃ venue, g' = { g with venue }) ∨
      ∃ v venue, g' = { g.dealt v (Deck.build v.cast g.overrides g.rng) with
        venue, stack := ⟨[.turn]⟩ } := by
  rcases feed_cases h (h.undealt hopen).1 nofun (fun _ => nofun) hfeed with
    ⟨hstay, -⟩ | ⟨seat, data, m, g₁, -, -, -, hstep, -, hsettles⟩
  · exact .inl hstay
  · -- Nothing stirs after the deal.
    obtain ⟨v, venue, hdealt⟩ := h.step_of_open hopen hstep
    have hstill : g₁.stirred = false := by
      rw [hdealt, stirred_dealt]
      exact h.still
    exact .inr ⟨v, venue, (hsettles.eq_of_still hstill).trans hdealt⟩

/-- A new game knows the cards asked for. -/
theorem overrides_of_start (hstart : start names s entropy = .ok g) :
    g.overrides = s.cardOverrides := by
  cases (begun_of_start hstart).2 <;> rfl

/-- The cards asked for stay the same as long as the variant is open. -/
theorem AtRest.overrides_of_open (h : g.AtRest) {asked : List Character}
    (hasked : g.variant = none → g.overrides = asked) (hrun : g.feedAll inputs = .ok g')
    (hopen : g'.variant = none) : g'.overrides = asked := by
  induction inputs generalizing g with
  | nil =>
    cases hrun
    exact hasked hopen
  | cons i inputs ih =>
    rw [feedAll_cons] at hrun
    obtain ⟨g₁, hfeed, hrun⟩ := exists_ok_of_bind hrun
    refine ih (h.feed hfeed) (fun hopen₁ => ?_) hrun
    have hopen₀ : g.variant = none := by
      by_contra hv
      exact h.variant_of_feed hv hfeed hopen₁
    rcases h.feed_of_open hopen₀ hfeed with ⟨venue, rfl⟩ | ⟨v, venue, rfl⟩
    · exact hasked hopen₀
    · cases hopen₁

/-- A new game with a variant was dealt at the table before. -/
theorem dealt_of_start (hstart : start names s entropy = .ok g) (hv : g.variant = some v) : ∃ venue,
    g = { (opened names s entropy).dealt v (Deck.build v.cast (opened names s entropy).overrides
        (opened names s entropy).rng) with
      venue, stack := ⟨[.turn]⟩ } := by
  have hbegin := begin_of_start hstart
  cases hsettled : s.variant with
  | none =>
    rw [hsettled, begin_none] at hbegin
    cases hbegin
    cases hv
  | some v' =>
    rw [hsettled, begin_some] at hbegin
    obtain ⟨ms, hdeal⟩ := (sound_opened (begun_of_start hstart).1).deal_eq rfl v' [.turn] []
    have hg := Except.ok.inj (hbegin.symm.trans hdeal)
    rw [hg, variant_dealt] at hv
    exact ⟨_, Option.some.inj hv ▸ hg⟩

/-- The hands and the deck hold the cards of a deck that was built for those asked for, in order. -/
theorem FreshlyDealt.exists_stacked (h : FreshlyDealt s v g) : ∃ d : Deck,
    d.Stacked v.cast s.cardOverrides ∧ g.cardsInOrder = d.cards := by
  have hdealt : ∃ (x : Game) (venue : Venue), x.Sound ∧ x.overrides = s.cardOverrides ∧
      g = { x.dealt v (Deck.build v.cast x.overrides x.rng) with venue, stack := ⟨[.turn]⟩ } := by
    cases h with
    | @started names entropy g hstart hv =>
      obtain ⟨venue, hg⟩ := dealt_of_start hstart hv
      exact ⟨_, venue, sound_opened (begun_of_start hstart).1, rfl, hg⟩
    | @chosen names entropy g₀ x g inputs i hstart hrun hopen hfeed hv =>
      have hreach := Reachable.started hstart
      have hrest := (hreach.feedAll hrun).atRest
      have hasked := hreach.atRest.overrides_of_open (fun _ => overrides_of_start hstart) hrun hopen
      rcases hrest.feed_of_open hopen hfeed with ⟨venue, rfl⟩ | ⟨v', venue, hg⟩
      · cases hopen.symm.trans hv
      · rw [hg, variant_dealt] at hv
        exact ⟨x, venue, hrest.toSound, hasked, Option.some.inj hv ▸ hg⟩
  obtain ⟨x, venue, hsound, hasked, rfl⟩ := hdealt
  refine ⟨(Deck.build v.cast x.overrides x.rng).1, hasked ▸ Deck.stacked_build .., ?_⟩
  exact cardsInOrder_dealt _ _ _ ((Deck.build_perm ..).length_eq.trans (Deck.length_full _))
    hsound.seats

/-- Whatever the shuffle and whatever cards are asked for, a deck that is built holds three copies
of every character of the cast, and those of the cards asked for that can be honoured are drawn
first, in order. A deck holds all the cards asked for exactly if all of them are honoured, and
exactly if they lie on top of it once it is built. In the same way the hands of a game whose cards
were dealt just now, followed by the deck, begin with those that are honoured for the variant, and
with all of them exactly if the deck of the variant holds them. -/
theorem overrides_come_first :
    (∀ cast overrides, (∀ rng : Pcg, (Deck.build cast overrides rng).1.Stacked cast overrides) ∧
      (∀ d : Deck, d.Stacked cast overrides →
        d.cards.Perm (Deck.full cast) ∧
        (∀ c, d.count c = if cast.contains c then copiesPerClan else 0) ∧
        (∀ g : Game, g.deck = d → ∃ rest,
          drawMany (Deck.honoured cast overrides).length g
            = .ok (Deck.honoured cast overrides, { g with deck := ⟨rest⟩ })) ∧
        (Deck.canSupply cast overrides = true ↔ overrides <+: d.cards)) ∧
      (Deck.canSupply cast overrides = true ↔ Deck.honoured cast overrides = overrides)) ∧
    ∀ s v g, FreshlyDealt s v g →
      Deck.honoured v.cast s.cardOverrides <+: g.cardsInOrder ∧
      (Deck.canSupply v.cast s.cardOverrides = true ↔ s.cardOverrides <+: g.cardsInOrder) := by
  refine ⟨fun cast overrides => ⟨Deck.stacked_build cast overrides, fun d hd => ?_,
    Deck.canSupply_iff_honoured⟩, fun s v g hdealt => ?_⟩
  · refine ⟨hd.perm, fun c => ?_, ?_, hd.canSupply_iff_prefix⟩
    · rw [Deck.count, hd.perm.count_eq, Deck.count_full]
    · rintro g rfl
      obtain ⟨rest, hrest⟩ := hd.honoured_prefix
      exact ⟨rest, drawMany_eq hrest.symm⟩
  · obtain ⟨d, hd, hcards⟩ := hdealt.exists_stacked
    rw [hcards]
    exact ⟨hd.honoured_prefix, hd.canSupply_iff_prefix⟩

/-- Bob chooses a variant with the inquisitor, and five cards asked for come to lie in the two hands
and on top of the deck. Of six others four are honoured: the fourth duke and the inquisitor, who is
not in the plain game, are skipped. -/
theorem overrides_come_first_chosen : ∃ g₀ g,
    start ["Ada", "Bob"]
        { seed := some 0, cardOverrides := [.inquisitor, .duke, .duke, .contessa, .captain] }
        = .ok g₀ ∧
      g₀.feed (.press 1 "game_type:1") = .ok g ∧ g.variant = some .inquisitor ∧
      [.inquisitor, .duke, .duke, .contessa, .captain] <+: g.cardsInOrder ∧
      Deck.honoured Variant.classic.cast [.duke, .duke, .inquisitor, .duke, .duke, .contessa]
        = [.duke, .duke, .duke, .contessa] ∧
      Deck.canSupply Variant.classic.cast [.duke, .duke, .inquisitor, .duke, .duke, .contessa]
        = false := by
  have hrun : ((start ["Ada", "Bob"]
      { seed := some 0,
        cardOverrides := [.inquisitor, .duke, .duke, .contessa, .captain] }).toOption.bind
        fun g₀ => (g₀.feed (.press 1 "game_type:1")).toOption.map
          fun g => (g₀.variant, g.variant)) = some (none, some .inquisitor) := by
    decide +kernel
  obtain ⟨g₀, hstart, hrun⟩ := Option.bind_eq_some_iff.1 hrun
  obtain ⟨g, hfeed, hrun⟩ := Option.map_eq_some_iff.1 hrun
  obtain ⟨hopen, hv⟩ := Prod.mk.inj hrun
  have hstart := eq_ok_of_toOption hstart
  have hfeed := eq_ok_of_toOption hfeed
  obtain ⟨hdecks, hgames⟩ := overrides_come_first
  have hdealt : FreshlyDealt _ _ g := .chosen hstart (feedAll_nil g₀) hopen hfeed hv
  refine ⟨g₀, g, hstart, hfeed, hv, (hgames _ _ g hdealt).2.1 (by decide), by decide, ?_⟩
  exact Bool.eq_false_iff.2 fun hsupply => absurd ((hdecks _ _).2.2.1 hsupply) (by decide)

end Game

end CoupTable
