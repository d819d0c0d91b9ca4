import CoupTable.Proofs.Graveyards
import CoupTable.Proofs.Rules

/-!
# Exchanges from beginning to end

While cards are exchanged, a press counts if it is the player's own and keeps one of the cards that
are on offer at that time (`Exchange.pick?`). Any other press is ignored. So what comes of some
presses can be told from the exchange alone, by which characters were chosen (`Exchange.chosen`) and
what is left of the exchange (`Exchange.after`), and nothing else in the game changes until as many
cards were kept as were alive before (`AtRest.feedAll_picks`).

With the last one the hand changes, the cards that were not chosen go back, and the turn passes on,
which touches nobody's hand or coins and not the draw pile (`Game.OnlyTurned`).
-/

namespace CoupTable

/-- A press, from who presses and what. -/
def Input.ofPress (press : Nat × String) : Input := .press press.1 press.2

/-! ## Choices -/

namespace Exchange

variable {e e' : Exchange} {seat : Nat} {data : String} {c : Character}

/-- The character that a press keeps, with the exchange after it. A press keeps something only if
the player makes it and it is on offer. -/
def pick? (e : Exchange) (seat : Nat) (data : String) : Option (Character × Exchange) :=
  match Move.parse? data with
  | some (.keep index) =>
    if seat = e.player then
      e.offered[index]?.map fun c => (c, { e with
        hand := e.hand ++ [⟨c, false⟩], offered := e.offered.eraseIdx index })
    else none
  | _ => none

/-- The characters that some presses keep, in the order in which they are chosen. -/
def chosen (e : Exchange) : List (Nat × String) → List Character
  | [] => []
  | (seat, data) :: presses =>
    match e.pick? seat data with
    | some (c, e') => c :: e'.chosen presses
    | none => e.chosen presses

/-- The exchange after some presses. -/
def after (e : Exchange) : List (Nat × String) → Exchange
  | [] => e
  | (seat, data) :: presses =>
    match e.pick? seat data with
    | some (_, e') => e'.after presses
    | none => e.after presses

/-- What it takes to keep a character. -/
theorem pick?_eq_some : e.pick? seat data = some (c, e') ↔
    ∃ index, Move.parse? data = some (.keep index) ∧ seat = e.player ∧
      e.offered[index]? = some c ∧ e' = { e with
        hand := e.hand ++ [⟨c, false⟩], offered := e.offered.eraseIdx index } := by
  unfold pick?
  split
  next index hdata =>
    split
    next hseat =>
      simp only [Option.map_eq_some_iff, Prod.mk.injEq, hseat, hdata, Option.some.injEq,
        Move.keep.injEq, true_and, exists_eq_left']
      constructor
      · rintro ⟨c', hc, rfl, rfl⟩
        exact ⟨hc, rfl⟩
      · rintro ⟨hc, rfl⟩
        exact ⟨c, hc, rfl, rfl⟩
    next hseat => simp [hseat]
  next hdata =>
    simp only [reduceCtorEq, false_iff]
    rintro ⟨index, hkeep, -⟩
    exact hdata index hkeep

/-- Whoever exchanges cards is the same after a character was kept, which is alive and last in the
new hand, and was on offer with those that still are. -/
theorem of_pick? (h : e.pick? seat data = some (c, e')) :
    e'.player = e.player ∧ e'.hand = e.hand ++ [⟨c, false⟩] ∧
      (c :: e'.offered).Perm e.offered := by
  obtain ⟨index, -, -, hc, rfl⟩ := pick?_eq_some.1 h
  obtain ⟨hlt, rfl⟩ := List.getElem?_eq_some_iff.1 hc
  exact ⟨rfl, rfl, List.getElem_cons_eraseIdx_perm hlt⟩

/-- Whoever exchanges cards is the same after some presses, the characters that were chosen stand
behind the others in the new hand, and were on offer with those that still are. -/
theorem of_after (e : Exchange) (presses : List (Nat × String)) :
    (e.after presses).player = e.player ∧
      (e.after presses).hand = e.hand ++ (e.chosen presses).map (fun c => ⟨c, false⟩) ∧
      (e.chosen presses ++ (e.after presses).offered).Perm e.offered := by
  induction presses generalizing e with
  | nil => exact ⟨rfl, (List.append_nil _).symm, .refl _⟩
  | cons press presses ih =>
    obtain ⟨seat, data⟩ := press
    unfold after chosen
    cases hpick : e.pick? seat data with
    | none => exact ih e
    | some picked =>
      obtain ⟨c, e'⟩ := picked
      obtain ⟨hplayer, hhand, hperm⟩ := of_pick? hpick
      obtain ⟨hplayer', hhand', hperm'⟩ := ih e'
      refine ⟨hplayer'.trans hplayer, ?_, (hperm'.cons c).trans hperm⟩
      dsimp only
      rw [hhand', hhand, List.append_assoc]
      rfl

end Exchange

namespace Game

variable {g g' x : Game} {cause : Cause} {e e' : Exchange} {below : List Frame} {p : Player}
  {i : Input} {id : AlarmId} {seat : Nat} {data : String} {c : Character}

/-! ## How exchanges begin -/

/-- What an exchange begins with depends on the cards and the variant. -/
theorem BeginsExchange.congr (h : g.BeginsExchange e) (hcards : g.SameCards g')
    (hvariant : g'.variant = g.variant) : g'.BeginsExchange e := by
  obtain ⟨p, drawn, hp, hhand, hoffered, hdrawn⟩ := h
  have hlookup : (g'.players.map (·.cards))[e.player]? = some p.cards := by
    rw [hcards, List.getElem?_map, hp]
    rfl
  rw [List.getElem?_map, Option.map_eq_some_iff] at hlookup
  obtain ⟨p', hp', hsame⟩ := hlookup
  refine ⟨p', drawn, hp', by rw [hsame, hhand], ?_, ?_⟩
  · rw [hoffered, Player.living_eq, Player.living_eq, hsame]
  · rw [hdrawn, exchangeDraw, exchangeDraw, usesInquisitor, usesInquisitor, hvariant]

/-- If there is an exchange, it has just begun. -/
def BeginsAny (g : Game) : Prop := ∀ e, g.exchange? = some e → g.BeginsExchange e

/-- An exchange that has just begun is that still after a step that is no press. -/
theorem Step.beginsAny (h : g.Sound) (hg : g.BeginsAny) (hstep : Step g cause g')
    (hsound : g'.Sound) (hcause : ∀ seat m, cause = .press seat m → g.exchange? = none) :
    g'.BeginsAny := by
  intro e he
  obtain ⟨hcards, hbefore | ⟨hand, offered, c, -, hbefore, seat, m, hpress⟩ | hbegins⟩ :=
    hstep.exchange_cases h hsound he
  · have hf := (h.shape.of_exchangeIn hbefore).1
    have hv := h.variant_ne_none hf nofun
    exact (hg e hbefore).congr hcards (hstep.variant_eq h hv)
  · exact absurd (hbefore.symm.trans (hcause seat m hpress)) nofun
  · exact hbegins

/-- An exchange that has just begun is that still when the game has settled. -/
theorem Settles.beginsAny (hsettles : Settles g g') (h : g.Sound) (hg : g.BeginsAny) :
    g'.BeginsAny := by
  induction hsettles with
  | rest => exact hg
  | @go g g₁ g' hstirred hidle _ ih =>
    obtain ⟨hidled, hsound⟩ := h.idled hstirred hidle
    have hhushed : BeginsAny { g with stirred := false } := hg
    exact ih hsound (hidled.step.beginsAny h.hush hhushed hsound nofun)

/-- An alarm leaves an exchange at its beginning. -/
theorem AtRest.beginsAny_of_expire (h : g.AtRest) (hg : g.BeginsAny)
    (hexpire : g.expire id = .ok g') : g'.BeginsAny := by
  rcases expire_cases h hexpire with ⟨-, rfl⟩ | rfl | ⟨x, hstep, hsound, hsettles⟩
  · exact hg
  · exact hg
  · exact hsettles.beginsAny hsound (hstep.beginsAny h.toSound hg hsound nofun)

/-- An exchange that comes up with an input has just begun. -/
theorem AtRest.begins_of_feed (h : g.AtRest) (hnone : g.exchange? = none)
    (hfeed : g.feed i = .ok g') : g'.BeginsAny := by
  have hg : g.BeginsAny := fun e he => nomatch hnone.symm.trans he
  cases i with
  | press seat data =>
    rcases press_cases h hfeed with ⟨rfl, -⟩ | ⟨m, x, -, -, -, hstep, hsound, hsettles⟩
    · exact hg
    · exact hsettles.beginsAny hsound
        (hstep.beginsAny h.toSound hg hsound fun _ _ _ => hnone)
  | expire id => exact h.beginsAny_of_expire hg hfeed
  | advance time =>
    refine advanceIn_induction (P := BeginsAny) ?_ ?_ h hg hfeed
    · exact fun _ _ _ _ hx _ => hx
    · exact fun _ _ _ hrest hx hexpire => hrest.beginsAny_of_expire hx hexpire

/-! ## Back at the turn -/

/-- Nothing has happened but that the turn has passed on: nobody's cards, coins or side have
changed, nor have the draw pile, the generator, the treasury, the variant and the stack. -/
structure OnlyTurned (g g' : Game) : Prop where
  /-- The players are the same. -/
  players : g'.players = g.players
  /-- The draw pile is the same. -/
  deck : g'.deck = g.deck
  /-- The generator is the same. -/
  rng : g'.rng = g.rng
  /-- The stack is the same. -/
  stack : g'.stack = g.stack
  /-- The treasury is the same. -/
  treasury : g'.treasury = g.treasury
  /-- The variant is the same. -/
  variant : g'.variant = g.variant

/-- A game that is back at the turn settles with the turn passing on. -/
theorem Settles.onlyTurned (hsettles : Settles x g') (h : x.Sound)
    (hf : x.stack.frames = .turn :: below) : x.OnlyTurned g' := by
  obtain ⟨-, rfl⟩ | ⟨-, x', hidled, -, hsettles⟩ := hsettles.split h
  · exact ⟨rfl, rfl, rfl, rfl, rfl, rfl⟩
  · obtain ⟨venue, isOver, overAlarm, -, rfl⟩ := hidled.step.idle_of_turn hf
    cases hsettles.eq_of_still rfl
    exact ⟨rfl, rfl, rfl, rfl, rfl, rfl⟩

/-- A step that is back at the turn settles, as long as the clock has not ended. -/
theorem Step.settle_onlyTurned (h : g.AtRest) (hover : g.isOver = false) (hv : g.variant ≠ none)
    (hclock : g.venue.alarms.now < clockEnd) (hstep : Step g cause x)
    (hf : x.stack.frames = .turn :: below) : ∃ g', x.settle = .ok g' ∧ x.OnlyTurned g' := by
  have hsound := hstep.sound h.toSound h.still hover
  have hclaim : x.claim? = none := by
    cases hsound.shape_of hf with
    | turn => rw [claim?, hf]; rfl
  have hnow : x.venue.alarms.now < clockEnd := by
    rw [(hstep.sameTable h.toSound).now]
    exact hclock
  obtain ⟨g', hsettle, -⟩ :=
    settle_of_unclaimed hsound (hstep.variant_ne_none h.toSound hv) hclaim hnow
  exact ⟨g', hsettle, (hstep.settles h hover hsettle).2.onlyTurned hsound hf⟩

/-! ## Presses one after the other -/

/-- A game settles in one step if nothing stirs after it. -/
theorem settle_of_idle (hstirred : x.stirred = true)
    (hidle : idle { x with stirred := false } = .ok g') (hstill : g'.stirred = false) :
    x.settle = .ok g' :=
  (settleIn_of_stirred hstirred hidle _).trans (settleIn_of_still hstill _)

/-- Presses come in one after the other. -/
theorem feedAll_press (hpress : g.press seat data = .ok g') (presses : List (Nat × String)) :
    g.feedAll (((seat, data) :: presses).map .ofPress) = g'.feedAll (presses.map .ofPress) :=
  congrArg (· >>= fun x : Game => x.feedAll (presses.map .ofPress)) hpress

/-- A press that is not on the list is ignored where the frame on top is neither a turn nor a
claim. -/
theorem AtRest.press_unlisted (h : g.AtRest) {f : Frame} (hf : g.stack.frames = f :: below)
    (hne : f ≠ .turn) (hclaim : ∀ c, f ≠ .claim c) {m : Move} (hdata : Move.parse? data = some m)
    (hnot : (seat, m) ∉ g.moves) : g.press seat data = .ok g := by
  rcases h.press_of_not_mem (h.isOver_eq_false hf hne) hdata hnot with
    hstay | ⟨c, below', -, hf', -⟩ | ⟨-, hturn, -⟩
  · exact hstay
  · exact absurd (List.cons.inj (hf.symm.trans hf')).1 (hclaim c)
  · exact absurd (List.cons.inj (hf.symm.trans (h.frames_of_turn hturn))).1 hne

/-! ## Presses during an exchange -/

/-- An exchange that is on top asks for the next card, and that is all. -/
theorem settle_of_exchange (hf : x.stack.frames = .exchange e :: below)
    (hstirred : x.stirred = true) :
    ∃ ms, x.settle = .ok { x with venue := x.venue.saying ms, stirred := false } := by
  have hidle : idle { x with stirred := false }
      = .ok ({ x with stirred := false }.exchangeIdle e) := by
    unfold idle Stack.top?
    rw [hf]
    rfl
  unfold exchangeIdle at hidle
  dsimp only at hidle
  rw [tell_eq] at hidle
  exact ⟨_, settle_of_idle hstirred hidle rfl⟩

section Presses

variable (h : g.AtRest) (hf : g.stack.frames = .exchange e :: below)
include h hf

/-- A press that keeps nothing is ignored during an exchange. -/
theorem AtRest.press_of_not_pick (hpick : e.pick? seat data = none) :
    g.press seat data = .ok g := by
  cases hdata : Move.parse? data with
  | none => exact press_of_parse?_eq_none hdata seat
  | some m =>
    have hnot : (seat, m) ∉ g.moves := by
      intro hmem
      obtain ⟨hseat, index, hlt, rfl⟩ := mem_movesFor_exchange.1 (mem_movesFor hmem hf)
      have hsome := Exchange.pick?_eq_some.2
        ⟨index, hdata, hseat, List.getElem?_eq_getElem hlt, rfl⟩
      cases hpick.symm.trans hsome
    exact h.press_unlisted hf nofun (fun _ => nofun) hdata hnot

/-- A press that keeps a card is a step of the exchange. -/
theorem AtRest.step_of_pick (hpick : e.pick? seat data = some (c, e')) :
    ∃ index x, e.offered[index]? = some c ∧ e' = { e with
      hand := e.hand ++ [⟨c, false⟩], offered := e.offered.eraseIdx index } ∧
      Step g (.press seat (.keep index)) x ∧ g.press seat data = x.settle := by
  obtain ⟨index, hdata, hseat, hc, he'⟩ := Exchange.pick?_eq_some.1 hpick
  obtain ⟨hlt, -⟩ := List.getElem?_eq_some_iff.1 hc
  have hmem : (seat, .keep index) ∈ g.moves := by
    rw [moves_eq (h.isOver_eq_false hf nofun) hf]
    exact mem_movesFor_exchange.2 ⟨hseat, index, hlt, rfl⟩
  obtain ⟨x, -, hstep, -, hpress⟩ := h.press_of_mem_moves hmem hdata
  exact ⟨index, x, hc, he', hstep, hpress⟩

/-- A press that keeps a card, with more to come, leads to the next question. -/
theorem AtRest.press_pick (hpick : e.pick? seat data = some (c, e'))
    (hmore : e.hand.length + 1 < handSize) : ∃ ms, g.press seat data = .ok { g with
      venue := g.venue.saying ms, stack := ⟨.exchange e' :: below⟩ } := by
  obtain ⟨index, x, hc, rfl, hstep, hpress⟩ := h.step_of_pick hf hpick
  cases hstep with
  | keepLast hf' _ hlast =>
    cases hf.symm.trans hf'
    exact absurd hmore (Nat.not_lt.2 hlast)
  | claim hf' | askTarget hf' => cases hf.symm.trans hf'
  | keep hf' hc' =>
    cases hf.symm.trans hf'
    cases hc.symm.trans hc'
    obtain ⟨ms, hasked⟩ := settle_of_exchange (x := { g with
      stack := ⟨.exchange ⟨e.player, e.hand ++ [⟨c, false⟩], e.offered.eraseIdx index⟩ :: below⟩
      stirred := true }) rfl rfl
    refine ⟨ms, (hpress.trans hasked).trans ?_⟩
    rw [h.still]

/-- A press that keeps the last card ends the exchange, and the turn passes on. -/
theorem AtRest.press_pickLast (hclock : g.venue.alarms.now < clockEnd)
    (hp : g.players[e.player]? = some p) (hpick : e.pick? seat data = some (c, e'))
    (hlast : handSize ≤ e.hand.length + 1) : ∃ g', g.press seat data = .ok g' ∧ OnlyTurned { g with
      rng := (g.reshuffled e'.offered).2
      players := g.players.set e.player { p with cards := e'.hand }
      deck := (g.reshuffled e'.offered).1
      stack := ⟨[.turn]⟩ } g' := by
  have hbelow : below = [.turn] := by
    cases h.shape_of hf with
    | exchange => rfl
  obtain ⟨index, x, hc, rfl, hstep, hpress⟩ := h.step_of_pick hf hpick
  have hstep' := hstep
  cases hstep with
  | claim hf' | askTarget hf' => cases hf.symm.trans hf'
  | keep hf' _ hmore =>
    cases hf.symm.trans hf'
    exact absurd hlast (Nat.not_le.2 hmore)
  | keepLast hf' hc' _ hp' =>
    cases hf.symm.trans hf'
    cases hc.symm.trans hc'
    cases hp.symm.trans hp'
    obtain ⟨g', hsettle, hturned⟩ := hstep'.settle_onlyTurned h (h.isOver_eq_false hf nofun)
      (h.variant_ne_none hf nofun) hclock hbelow
    exact ⟨g', hpress.trans hsettle,
      { hturned with stack := hturned.stack.trans (congrArg Stack.mk hbelow) }⟩

/-- As long as not enough cards are kept nothing changes but the exchange. -/
theorem AtRest.feedAll_picks (presses : List (Nat × String))
    (hmore : e.hand.length + (e.chosen presses).length < handSize) :
    ∃ ms, g.feedAll (presses.map .ofPress) = .ok { g with
      venue := g.venue.saying ms, stack := ⟨.exchange (e.after presses) :: below⟩ } := by
  induction presses generalizing g e with
  | nil =>
    refine ⟨[], ?_⟩
    rw [Exchange.after, ← hf]
    rfl
  | cons press presses ih =>
    obtain ⟨seat, data⟩ := press
    unfold Exchange.after
    unfold Exchange.chosen at hmore
    cases hpick : e.pick? seat data with
    | none =>
      rw [hpick] at hmore
      rw [feedAll_press (h.press_of_not_pick hf hpick)]
      exact ih h hf hmore
    | some picked =>
      obtain ⟨c, e'⟩ := picked
      rw [hpick, List.length_cons] at hmore
      obtain ⟨-, hhand, -⟩ := Exchange.of_pick? hpick
      have hlen := congrArg List.length hhand
      rw [List.length_append, List.length_singleton] at hlen
      -- The next exchange is on top of a game that is at rest again.
      obtain ⟨ms, hpress⟩ := h.press_pick hf hpick (by omega)
      obtain ⟨ms', hrun⟩ := ih (h.feed (i := .press seat data) hpress) rfl (by omega)
      refine ⟨ms' ++ ms, (feedAll_press hpress presses).trans ?_⟩
      rw [hrun, Venue.saying_saying]

end Presses

/-! ## Exchanges that are completed -/

/-- The game `g'` comes of an exchange in `g`, by which the player in a seat kept some characters
and gave others back: the dead cards come first in the hand, then what was kept, alive and in the
order in which it was chosen. -/
structure Exchanged (g : Game) (seat : Nat) (kept returned : List Character)
    (g' : Game) : Prop where
  /-- The stack is back at the turn. -/
  frames : g'.stack.frames = [.turn]
  /-- Nothing about the players changed but the hand of the one who exchanged. -/
  players : ∃ p, g.players[seat]? = some p ∧ g'.players = g.players.set seat { p with
    cards := p.cards.filter (·.dead) ++ kept.map fun c => ⟨c, false⟩ }
  /-- The others are in the draw pile again. -/
  deck : g'.deck.cards.Perm (g.deck.cards ++ returned)
  /-- The treasury is the same. -/
  treasury : g'.treasury = g.treasury
  /-- The variant is the same. -/
  variant : g'.variant = g.variant

/-- The new hand lacks as many cards at first as there are living ones. -/
theorem AtRest.length_hand_of_begins (h : g.AtRest) (hf : g.stack.frames = .exchange e :: below)
    (hp : g.players[e.player]? = some p) (hhand : e.hand = p.cards.filter (·.dead)) :
    e.hand.length + p.livingCount = handSize := by
  have hlen := h.length_hand (h.variant_ne_none hf nofun) hp
  have hsum := p.livingCount_add_deadCount
  rw [Player.deadCount, List.countP_eq_length_filter, ← hhand] at hsum
  omega

/-- When the last card is kept of an exchange from its beginning, the exchange is completed. -/
theorem Reachable.exchanged_of_picks (h : Reachable g) (hf : g.stack.frames = .exchange e :: below)
    (hp : g.players[e.player]? = some p) (hhand : e.hand = p.cards.filter (·.dead))
    {presses : List (Nat × String)} (hlast : (e.chosen presses).length + 1 = p.livingCount)
    (hpick : (e.after presses).pick? seat data = some (c, e')) :
    ∃ g', g.feedAll ((presses ++ [(seat, data)]).map .ofPress) = .ok g' ∧
      g.Exchanged e.player (e.chosen presses ++ [c]) e'.offered g' := by
  have hlen := h.atRest.length_hand_of_begins hf hp hhand
  obtain ⟨hplayer, hkept, -⟩ := e.of_after presses
  obtain ⟨-, hnew, -⟩ := Exchange.of_pick? hpick
  obtain ⟨ms, hrun⟩ := h.atRest.feedAll_picks hf presses (by omega)
  have hfull : handSize ≤ (e.after presses).hand.length + 1 := by
    rw [hkept, List.length_append, List.length_map]
    omega
  obtain ⟨g', hpress, hturned⟩ := (h.feedAll hrun).atRest.press_pickLast rfl h.now_lt
    (by rw [hplayer]; exact hp) hpick hfull
  refine ⟨g', ?_, ?_, ⟨p, hp, ?_⟩, ?_, hturned.treasury, hturned.variant⟩
  · rw [List.map_append, feedAll_append, hrun, ok_bind]
    exact feedAll_press hpress []
  · rw [hturned.stack]
  · rw [hturned.players, hplayer, hnew, hkept, hhand, List.append_assoc, List.map_append]
    rfl
  · rw [hturned.deck]
    exact (reshuffled_perm _ _).trans List.perm_append_comm

/-- Exchanges from beginning to end: while one that has just begun is under way, no press has an
effect but those that keep a card, until there are as many of them as there were living cards, and
the last one completes it. -/
theorem Reachable.exchange_completed {g₀ : Game} (h : Reachable g₀) (hnone : g₀.exchange? = none)
    (hfeed : g₀.feed i = .ok g) (hf : g.stack.frames = .exchange e :: below) :
    ∃ p drawn, g.players[e.player]? = some p ∧ e.hand = p.cards.filter (·.dead) ∧
      e.offered = p.living.map (·.2) ++ drawn ∧ drawn.length = g.exchangeDraw ∧
      ∀ presses, (e.chosen presses).length < p.livingCount →
        (∃ g₁ ms, g.feedAll (presses.map .ofPress) = .ok g₁ ∧
          g₁ = { g with
            venue := g.venue.saying ms, stack := ⟨.exchange (e.after presses) :: below⟩ } ∧
          ∀ seat data, (e.after presses).pick? seat data = none → g₁.press seat data = .ok g₁) ∧
        ∀ seat data c e', (e.after presses).pick? seat data = some (c, e') →
          (e.chosen presses).length + 1 = p.livingCount →
          (e.chosen presses ++ c :: e'.offered).Perm e.offered ∧
          e'.offered.length = drawn.length ∧
          ∃ g', g.feedAll ((presses ++ [(seat, data)]).map .ofPress) = .ok g' ∧
            g.Exchanged e.player (e.chosen presses ++ [c]) e'.offered g' := by
  have hg : Reachable g := .fed h hfeed
  have he : g.exchange? = some e := by
    rw [exchange?, hf]
    rfl
  obtain ⟨p, drawn, hp, hhand, hoffered, hdrawn⟩ := h.atRest.begins_of_feed hnone hfeed e he
  have hlen := hg.atRest.length_hand_of_begins hf hp hhand
  refine ⟨p, drawn, hp, hhand, hoffered, hdrawn, fun presses hmore => ⟨?_, ?_⟩⟩
  · obtain ⟨ms, hrun⟩ := hg.atRest.feedAll_picks hf presses (by omega)
    exact ⟨_, ms, hrun, rfl, fun seat data hnot =>
      (hg.feedAll hrun).atRest.press_of_not_pick rfl hnot⟩
  · intro seat data c e' hpick hlast
    obtain ⟨-, -, hperm⟩ := e.of_after presses
    obtain ⟨-, -, hperm'⟩ := Exchange.of_pick? hpick
    have hall := (hperm'.append_left _).trans hperm
    refine ⟨hall, ?_, hg.exchanged_of_picks hf hp hhand hlast hpick⟩
    -- As many cards were kept as there were living ones, and so as many go back as were drawn.
    have hcount := hall.length_eq
    rw [hoffered, List.length_append, List.length_append, List.length_map, List.length_cons]
      at hcount
    change _ = p.livingCount + _ at hcount
    omega

/-- Ada exchanges cards. Bob cannot choose for her and there is no tenth card to choose; she keeps
her captain first and then her duke, and they end up in this order. -/
theorem exchange_completed_swapped : ∃ g₀ g e g',
    playOut ["Ada", "Bob", "Cid"]
        { seed := some 0, startPlayer := some 0, variant := some .classic,
          cardOverrides := [.duke, .captain] }
        [.press 0 "exchange", .press 1 "accept"] = some g₀ ∧
      g₀.exchange? = none ∧ g₀.feed (.press 2 "accept") = .ok g ∧
      g.stack.frames = [.exchange e, .turn] ∧
      e.chosen [(1, "keep:0"), (0, "keep:9"), (0, "keep:1")] = [.captain] ∧
      g.feedAll [.press 1 "keep:0", .press 0 "keep:9", .press 0 "keep:1", .press 0 "keep:0"]
        = .ok g' ∧
      ∃ returned, g.Exchanged 0 [.captain, .duke] returned g' := by
  have hrun : ((playOut ["Ada", "Bob", "Cid"]
      { seed := some 0, startPlayer := some 0, variant := some .classic,
        cardOverrides := [.duke, .captain] }
      [.press 0 "exchange", .press 1 "accept"]).bind fun g₀ =>
        (g₀.feed (.press 2 "accept")).toOption.bind fun g => g.exchange?.map fun e =>
          ((g₀.exchange?, g.stack.frames == [.exchange e, .turn], e.player),
            (g.players[e.player]?.map (·.livingCount)),
            (e.chosen [(1, "keep:0"), (0, "keep:9"), (0, "keep:1")]),
            ((e.after [(1, "keep:0"), (0, "keep:9"), (0, "keep:1")]).pick? 0 "keep:0").map (·.1)))
      = some ((none, true, 0), some 2, [.captain], some .duke) := by
    decide +kernel
  obtain ⟨g₀, hg₀, hrun⟩ := Option.bind_eq_some_iff.1 hrun
  obtain ⟨g, hg, hrun⟩ := Option.bind_eq_some_iff.1 hrun
  obtain ⟨e, -, hrun⟩ := Option.map_eq_some_iff.1 hrun
  simp only [Prod.mk.injEq, beq_iff_eq] at hrun
  obtain ⟨⟨hnone, hf, hplayer⟩, hcount, hchosen, hpick⟩ := hrun
  obtain ⟨⟨c, e'⟩, hpick, rfl⟩ := Option.map_eq_some_iff.1 hpick
  have hfeed := eq_ok_of_toOption hg
  obtain ⟨p, drawn, hp, -, -, -, hends⟩ :=
    (reachable_of_playOut hg₀).exchange_completed hnone hfeed hf
  rw [hp, Option.map_some, Option.some.injEq] at hcount
  have hlast : (e.chosen [(1, "keep:0"), (0, "keep:9"), (0, "keep:1")]).length + 1
      = p.livingCount := by
    rw [hchosen, hcount]
    rfl
  obtain ⟨-, -, g', hall, hexchanged⟩ := (hends _ (by omega)).2 0 "keep:0" _ e' hpick hlast
  rw [hchosen, hplayer] at hexchanged
  exact ⟨g₀, g, e, g', hg₀, hnone, hfeed, hf, hchosen, hall, e'.offered, hexchanged⟩

end Game

end CoupTable
