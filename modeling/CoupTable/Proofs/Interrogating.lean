import CoupTable.Proofs.Keeping

/-!
# Interrogations from beginning to end

An interrogation has two phases. As long as no card was shown, a press counts if the target makes
it and it shows a card that is alive (`Interrogation.showing?`); a target with a single card has
shown it before anybody can press (`AtRest.shown_of_single`). From then on the card stays the same,
and a press counts if it is the decision of the inquisitor (`Interrogation.decision?`). All other
presses are ignored, so that nothing in the game changes until the decision but what is known of the
card (`AtRest.feedAll_undecided`).

The decision takes the interrogation off the stack. It either leaves all cards as they were or
changes the one that was shown, and the turn passes on (`AtRest.press_deciding`).
-/

namespace CoupTable

/-! ## Phases -/

namespace Interrogation

variable {i : Interrogation} {p : Player} {seat slot : Nat} {data : String} {allowed : Bool}

/-- The slot of the card that a press shows. As long as none was shown, the target can show any
living card. -/
def showing? (i : Interrogation) (target : Player) (seat : Nat) (data : String) : Option Nat :=
  match Move.parse? data with
  | some (.showCard slot) =>
    if i.shown = none ∧ seat = i.target ∧ target.hasLiving slot = true then some slot else none
  | _ => none

/-- The decision that a press makes. Once a card was shown, the inquisitor can decide about it. -/
def decision? (i : Interrogation) (seat : Nat) (data : String) : Option Bool :=
  match Move.parse? data with
  | some (.canKeep allowed) => if i.shown ≠ none ∧ seat = i.inquisitor then some allowed else none
  | _ => none

/-- The interrogation after a press that does not decide. -/
def heard (i : Interrogation) (target : Player) (press : Nat × String) : Interrogation :=
  match i.showing? target press.1 press.2 with
  | some slot => { i with shown := some slot }
  | none => i

/-- The interrogation after some presses that do not decide. -/
def after (i : Interrogation) (target : Player) (presses : List (Nat × String)) : Interrogation :=
  presses.foldl (·.heard target ·) i

/-- Whether none of some presses decides. -/
def undecided (i : Interrogation) (target : Player) : List (Nat × String) → Bool
  | [] => true
  | press :: presses =>
    (i.decision? press.1 press.2).isNone && (i.heard target press).undecided target presses

/-- What it takes to show a card. -/
theorem showing?_eq_some : i.showing? p seat data = some slot ↔
    Move.parse? data = some (.showCard slot) ∧ i.shown = none ∧ seat = i.target ∧
      p.hasLiving slot = true := by
  unfold showing?
  split
  next slot' hdata =>
    rw [Option.ite_none_right_eq_some, hdata]
    constructor
    · rintro ⟨hwho, hslot⟩
      cases hslot
      exact ⟨rfl, hwho⟩
    · rintro ⟨hslot, hwho⟩
      cases hslot
      exact ⟨hwho, rfl⟩
  next hdata =>
    simp only [reduceCtorEq, false_iff]
    exact fun hshow => hdata slot hshow.1

/-- What it takes to decide. -/
theorem decision?_eq_some : i.decision? seat data = some allowed ↔
    Move.parse? data = some (.canKeep allowed) ∧ i.shown ≠ none ∧ seat = i.inquisitor := by
  unfold decision?
  split
  next allowed' hdata =>
    rw [Option.ite_none_right_eq_some, hdata]
    constructor
    · rintro ⟨hwho, hallowed⟩
      cases hallowed
      exact ⟨rfl, hwho⟩
    · rintro ⟨hallowed, hwho⟩
      cases hallowed
      exact ⟨hwho, rfl⟩
  next hdata =>
    simp only [reduceCtorEq, false_iff]
    exact fun hdecide => hdata allowed hdecide.1

/-- A card that is shown is noted. -/
theorem heard_of_showing (hshows : i.showing? p seat data = some slot) :
    i.heard p (seat, data) = { i with shown := some slot } := by
  rw [heard, hshows]

/-- A press that shows nothing changes nothing. -/
theorem heard_of_not_showing (hshows : i.showing? p seat data = none) :
    i.heard p (seat, data) = i := by
  rw [heard, hshows]

/-- Once a card was shown there is none to show. -/
theorem heard_of_shown (hshown : i.shown = some slot) (press : Nat × String) :
    i.heard p press = i := by
  cases hshows : i.showing? p press.1 press.2 with
  | none => exact heard_of_not_showing hshows
  | some slot' => cases hshown.symm.trans (showing?_eq_some.1 hshows).2.1

/-- The card that was shown stays the same. -/
theorem after_of_shown (hshown : i.shown = some slot) (presses : List (Nat × String)) :
    i.after p presses = i := by
  induction presses with
  | nil => rfl
  | cons press presses ih =>
    rw [after, List.foldl_cons, heard_of_shown hshown]
    exact ih

/-- Presses after the first show nothing else. -/
theorem after_append_of_shown {presses : List (Nat × String)}
    (hshown : (i.after p presses).shown = some slot) (more : List (Nat × String)) :
    i.after p (presses ++ more) = i.after p presses := by
  rw [after, List.foldl_append]
  exact after_of_shown hshown more

/-- The players of an interrogation stay the same with a press. -/
theorem players_heard (i : Interrogation) (p : Player) (press : Nat × String) :
    (i.heard p press).inquisitor = i.inquisitor ∧ (i.heard p press).target = i.target := by
  unfold heard
  split
  next => exact ⟨rfl, rfl⟩
  next => exact ⟨rfl, rfl⟩

/-- The players of an interrogation stay the same. -/
theorem players_after (i : Interrogation) (p : Player) (presses : List (Nat × String)) :
    (i.after p presses).inquisitor = i.inquisitor ∧ (i.after p presses).target = i.target := by
  induction presses generalizing i with
  | nil => exact ⟨rfl, rfl⟩
  | cons press presses ih =>
    obtain ⟨hinquisitor, htarget⟩ := i.players_heard p press
    exact ⟨(ih _).1.trans hinquisitor, (ih _).2.trans htarget⟩

end Interrogation

namespace Game

variable {g g' x : Game} {i : Interrogation} {below : List Frame} {p q : Player}
  {seat slot : Nat} {data : String} {allowed : Bool}

/-- The game `g'` comes of an interrogation in `g`, in which the player in a seat showed the card in
a slot, and the inquisitor allowed it to be kept or not. -/
structure Interrogated (g : Game) (seat slot : Nat) (allowed : Bool) (g' : Game) : Prop where
  /-- The stack is back at the turn. -/
  frames : g'.stack.frames = [.turn]
  /-- The treasury is the same. -/
  treasury : g'.treasury = g.treasury
  /-- The variant is the same. -/
  variant : g'.variant = g.variant
  /-- If the card may be kept, neither the players nor the draw pile changed. -/
  kept : allowed = true → g'.players = g.players ∧ g'.deck = g.deck ∧ g'.rng = g.rng
  /-- Otherwise another character is in its slot, alive. It was drawn from the pile once the one
  that was shown was put back and the pile was shuffled. -/
  changed : allowed = false → ∃ p c drawn, g.players[seat]? = some p ∧
    p.cards[slot]? = some ⟨c, false⟩ ∧
    g'.players = g.players.set seat { p with cards := p.cards.set slot ⟨drawn, false⟩ } ∧
    (g.reshuffled [c]).1.cards = drawn :: g'.deck.cards

/-! ## Presses -/

/-- An interrogation in which a card was shown asks the inquisitor. -/
theorem interrogationIdle_of_shown (hshown : i.shown = some slot)
    (hinquisitor : g.players[i.inquisitor]? = some q) (hp : g.players[i.target]? = some p) :
    g.interrogationIdle i = g.askInquisitor i slot := by
  unfold interrogationIdle
  rw [player_eq hinquisitor, ok_bind, player_eq hp, ok_bind, hshown]

/-- The inquisitor is asked about the card that was shown, and that is all. -/
theorem settle_of_shown (hf : x.stack.frames = .interrogation i :: below)
    (hstirred : x.stirred = true) (hshown : i.shown = some slot)
    (hinquisitor : x.players[i.inquisitor]? = some q) (hp : x.players[i.target]? = some p)
    (hlives : p.hasLiving slot = true) :
    ∃ ms, x.settle = .ok { x with venue := x.venue.saying ms, stirred := false } := by
  obtain ⟨ms, -, hasked⟩ := askInquisitor_eq (g := { x with stirred := false }) hp hlives
  have hidle : idle { x with stirred := false }
      = interrogationIdle { x with stirred := false } i := by
    unfold idle Stack.top?
    rw [hf]
    rfl
  have hshow : interrogationIdle { x with stirred := false } i
      = askInquisitor { x with stirred := false } i slot :=
    interrogationIdle_of_shown hshown hinquisitor hp
  exact ⟨ms, settle_of_idle hstirred (hidle.trans (hshow.trans hasked)) rfl⟩

section Presses

variable (h : g.AtRest) (hf : g.stack.frames = .interrogation i :: below)
include h hf

/-- A target with a single living card has shown it. -/
theorem AtRest.shown_of_single (hp : g.players[i.target]? = some p)
    (hsingle : p.singleLiving? = some slot) : i.shown = some slot := by
  obtain ⟨-, target, -, htarget, hlives⟩ := h.of_interrogation hf
  cases hp.symm.trans htarget
  cases hshown : i.shown with
  | none => exact absurd (Player.singleLiving?_eq_some hsingle).2 (h.waiting _ _ hf hshown p hp)
  | some slot' => rw [Player.eq_of_singleLiving? hsingle (hlives slot' hshown)]

/-- A press that neither shows a card nor decides is ignored during an interrogation. -/
theorem AtRest.press_of_not_heard (hp : g.players[i.target]? = some p)
    (hshows : i.showing? p seat data = none) (hdecides : i.decision? seat data = none) :
    g.press seat data = .ok g := by
  cases hdata : Move.parse? data with
  | none => exact press_of_parse?_eq_none hdata seat
  | some m =>
    refine h.press_unlisted hf nofun (fun _ => nofun) hdata fun hmem => ?_
    rcases mem_interrogationMoves.1 (mem_movesFor hmem hf) with
      ⟨hshown, hseat, slot, hlives, rfl⟩ | ⟨hshown, hseat, allowed, rfl⟩
    · have hsome := Interrogation.showing?_eq_some.2
        ⟨hdata, hshown, hseat, (livesAt_eq hp).symm.trans hlives⟩
      cases hshows.symm.trans hsome
    · have hsome := Interrogation.decision?_eq_some.2 ⟨hdata, hshown, hseat⟩
      cases hdecides.symm.trans hsome

/-- A card that is shown is put to the inquisitor. -/
theorem AtRest.press_showing (hp : g.players[i.target]? = some p)
    (hshows : i.showing? p seat data = some slot) :
    ∃ ms, g.press seat data = .ok { g with
      venue := g.venue.saying ms
      stack := ⟨.interrogation { i with shown := some slot } :: below⟩ } := by
  obtain ⟨hdata, hshown, hseat, hlives⟩ := Interrogation.showing?_eq_some.1 hshows
  have hmem : (seat, .showCard slot) ∈ g.moves := by
    rw [moves_eq (h.isOver_eq_false hf nofun) hf]
    exact mem_interrogationMoves.2
      (.inl ⟨hshown, hseat, slot, (livesAt_eq hp).trans hlives, rfl⟩)
  obtain ⟨x, -, hstep, -, hpress⟩ := h.press_of_mem_moves hmem hdata
  obtain ⟨q, -, hinquisitor, -⟩ := h.of_interrogation hf
  cases hstep with
  | claim hf' | askTarget hf' => cases hf.symm.trans hf'
  | @showCard _ _ _ ms hf' =>
    cases hf.symm.trans hf'
    obtain ⟨ms', hasked⟩ := settle_of_shown (x := { g with
      venue := g.venue.saying ms
      stack := ⟨.interrogation { i with shown := some slot } :: below⟩
      stirred := true }) rfl rfl rfl hinquisitor hp hlives
    refine ⟨ms' ++ ms, (hpress.trans hasked).trans ?_⟩
    rw [h.still, Venue.saying_saying]

/-- A press that does not decide changes nothing but the card that is shown. -/
theorem AtRest.press_undecided (hp : g.players[i.target]? = some p)
    (hdecides : i.decision? seat data = none) : ∃ ms, g.press seat data = .ok { g with
      venue := g.venue.saying ms
      stack := ⟨.interrogation (i.heard p (seat, data)) :: below⟩ } := by
  cases hshows : i.showing? p seat data with
  | none =>
    refine ⟨[], (h.press_of_not_heard hf hp hshows hdecides).trans ?_⟩
    rw [Interrogation.heard_of_not_showing hshows, ← hf]
    rfl
  | some slot =>
    rw [Interrogation.heard_of_showing hshows]
    exact h.press_showing hf hp hshows

/-- A press that decides ends the interrogation, and the turn passes on. -/
theorem AtRest.press_deciding (hclock : g.venue.alarms.now < clockEnd)
    (hdecides : i.decision? seat data = some allowed) :
    ∃ slot g', i.shown = some slot ∧ g.press seat data = .ok g' ∧
      g.Interrogated i.target slot allowed g' := by
  obtain ⟨hdata, hshown, hseat⟩ := Interrogation.decision?_eq_some.1 hdecides
  have hover := h.isOver_eq_false hf nofun
  have hv := h.variant_ne_none hf nofun
  have hbelow : below = [.turn] := by
    cases h.shape_of hf with
    | interrogation => rfl
  have hmem : (seat, .canKeep allowed) ∈ g.moves := by
    rw [moves_eq hover hf]
    exact mem_interrogationMoves.2 (.inr ⟨hshown, hseat, allowed, rfl⟩)
  obtain ⟨x, -, hstep, -, hpress⟩ := h.press_of_mem_moves hmem hdata
  have hstep' := hstep
  -- Either decision ends the interrogation, and when the game settles only the turn passes on.
  cases hstep with
  | claim hf' | askTarget hf' => cases hf.symm.trans hf'
  | @allow _ _ slot _ hf' hshown' =>
    cases hf.symm.trans hf'
    obtain ⟨g', hsettle, hturned⟩ := hstep'.settle_onlyTurned h hover hv hclock hbelow
    refine ⟨slot, g', hshown', hpress.trans hsettle, ?_⟩
    exact {
      frames := hturned.stack ▸ hbelow
      treasury := hturned.treasury
      variant := hturned.variant
      kept := fun _ => ⟨hturned.players, hturned.deck, hturned.rng⟩
      changed := nofun }
  | @change _ _ slot p card drawn rest _ hf' hshown' hp hcard hlives hdeck =>
    cases hf.symm.trans hf'
    obtain ⟨g', hsettle, hturned⟩ := hstep'.settle_onlyTurned h hover hv hclock hbelow
    refine ⟨slot, g', hshown', hpress.trans hsettle, ?_⟩
    have hcard' : p.cards[slot]? = some ⟨card.character, false⟩ := by rw [hcard, ← hlives]
    exact {
      frames := hturned.stack ▸ hbelow
      treasury := hturned.treasury
      variant := hturned.variant
      kept := nofun
      changed := fun _ => by
        refine ⟨p, card.character, drawn, hp, hcard', ?_, ?_⟩
        · rw [hturned.players, Player.redraw_cons, Player.redraw_nil, Player.setCharacter_eq hcard']
        · rw [hturned.deck]
          exact hdeck }

/-- As long as nobody decides nothing changes but the card that is shown. -/
theorem AtRest.feedAll_undecided (hp : g.players[i.target]? = some p)
    {presses : List (Nat × String)} (hwaits : i.undecided p presses = true) :
    ∃ ms, g.feedAll (presses.map .ofPress) = .ok { g with
      venue := g.venue.saying ms, stack := ⟨.interrogation (i.after p presses) :: below⟩ } := by
  induction presses generalizing g i with
  | nil =>
    refine ⟨[], ?_⟩
    rw [Interrogation.after, List.foldl_nil, ← hf]
    rfl
  | cons press presses ih =>
    obtain ⟨seat, data⟩ := press
    unfold Interrogation.undecided at hwaits
    rw [Bool.and_eq_true, Option.isNone_iff_eq_none] at hwaits
    obtain ⟨hdecides, hwaits⟩ := hwaits
    obtain ⟨ms, hpress⟩ := h.press_undecided hf hp hdecides
    -- The interrogation is on top of a game that is at rest again, with the same target.
    have htarget := (i.players_heard p (seat, data)).2
    obtain ⟨ms', hrun⟩ :=
      ih (h.feed (i := .press seat data) hpress) rfl (by rw [htarget]; exact hp) hwaits
    refine ⟨ms' ++ ms, (feedAll_press hpress presses).trans ?_⟩
    rw [hrun, Venue.saying_saying]
    rfl

end Presses

/-! ## The result -/

/-- Interrogations from beginning to end: no press has an effect but that of the target who shows a
living card, which has already happened if there is a single one and cannot happen twice, and then
the decision of the inquisitor. It ends the interrogation and changes at most the card that was
shown. -/
theorem Reachable.interrogation_decided (h : Reachable g)
    (hf : g.stack.frames = .interrogation i :: below) :
    ∃ p, g.players[i.target]? = some p ∧
      (∀ slot, p.singleLiving? = some slot → i.shown = some slot) ∧
      ∀ presses, i.undecided p presses = true →
        (∃ g₁ ms, g.feedAll (presses.map .ofPress) = .ok g₁ ∧
          g₁ = { g with
            venue := g.venue.saying ms
            stack := ⟨.interrogation (i.after p presses) :: below⟩ } ∧
          ∀ seat data, (i.after p presses).showing? p seat data = none →
            (i.after p presses).decision? seat data = none → g₁.press seat data = .ok g₁) ∧
        (∀ slot, (i.after p presses).shown = some slot → p.hasLiving slot = true ∧
          ∀ more, i.after p (presses ++ more) = i.after p presses) ∧
        ∀ seat data allowed, (i.after p presses).decision? seat data = some allowed →
          ∃ slot g', (i.after p presses).shown = some slot ∧
            g.feedAll ((presses ++ [(seat, data)]).map .ofPress) = .ok g' ∧
            g.Interrogated i.target slot allowed g' := by
  obtain ⟨-, p, -, hp, -⟩ := h.atRest.of_interrogation hf
  refine ⟨p, hp, fun slot => h.atRest.shown_of_single hf hp, fun presses hwaits => ?_⟩
  obtain ⟨-, htarget⟩ := i.players_after p presses
  obtain ⟨ms, hrun⟩ := h.atRest.feedAll_undecided hf hp hwaits
  have hrest := (h.feedAll hrun).atRest
  have hp₁ : g.players[(i.after p presses).target]? = some p := by rw [htarget, hp]
  refine ⟨?_, ?_, ?_⟩
  · exact ⟨_, ms, hrun, rfl, fun seat data => hrest.press_of_not_heard rfl hp₁⟩
  · intro slot hshown
    obtain ⟨-, target, -, hp', hlives⟩ := hrest.of_interrogation rfl
    cases hp₁.symm.trans hp'
    exact ⟨hlives slot hshown, Interrogation.after_append_of_shown hshown⟩
  · intro seat data allowed hdecides
    obtain ⟨slot, g', hshown, hpress, hends⟩ := hrest.press_deciding rfl h.now_lt hdecides
    rw [htarget] at hends
    refine ⟨slot, g', hshown, ?_, { hends with }⟩
    rw [List.map_append, feedAll_append, hrun, ok_bind]
    exact feedAll_press hpress []

/-- Ada interrogates Bob. She cannot decide before he shows a card, which Cid cannot do for him; he
shows his contessa, cannot take that back, and has to change it. -/
theorem interrogation_decided_contessa : ∃ g g',
    playOut ["Ada", "Bob", "Cid"]
        { seed := some 0, startPlayer := some 0, variant := some .inquisitor,
          cardOverrides := [.inquisitor, .duke, .captain, .contessa] }
        [.press 0 "inspect:1", .press 1 "accept", .press 2 "accept"] = some g ∧
      g.stack.frames = [.interrogation ⟨0, 1, none⟩, .turn] ∧
      g.feedAll [.press 0 "can_keep:0", .press 2 "show:1", .press 1 "show:1", .press 1 "show:0",
        .press 0 "can_keep:0"] = .ok g' ∧
      g.Interrogated 1 1 false g' := by
  have hrun : ((playOut ["Ada", "Bob", "Cid"]
      { seed := some 0, startPlayer := some 0, variant := some .inquisitor,
        cardOverrides := [.inquisitor, .duke, .captain, .contessa] }
      [.press 0 "inspect:1", .press 1 "accept", .press 2 "accept"]).bind fun g =>
        g.players[1]?.map fun p =>
          let i : Interrogation := ⟨0, 1, none⟩
          let presses := [(0, "can_keep:0"), (2, "show:1"), (1, "show:1"), (1, "show:0")]
          (g.stack.frames, i.undecided p presses, (i.after p presses).shown,
            (i.after p presses).decision? 0 "can_keep:0"))
      = some ([.interrogation ⟨0, 1, none⟩, .turn], true, some 1, some false) := by
    decide +kernel
  obtain ⟨g, hg, hrun⟩ := Option.bind_eq_some_iff.1 hrun
  obtain ⟨p, hp, hrun⟩ := Option.map_eq_some_iff.1 hrun
  simp only [Prod.mk.injEq] at hrun
  obtain ⟨hf, hwaits, hshown, hdecides⟩ := hrun
  obtain ⟨p', hp', -, hends⟩ := (reachable_of_playOut hg).interrogation_decided hf
  cases hp.symm.trans hp'
  obtain ⟨slot, g', hslot, hall, hchanged⟩ := (hends _ hwaits).2.2 0 "can_keep:0" false hdecides
  cases hshown.symm.trans hslot
  exact ⟨g, g', hg, hf, hall, hchanged⟩

end Game

end CoupTable
