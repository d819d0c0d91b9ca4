import CoupTable.Proofs.Rules

/-!
# The turn goes round

A turn that is under way goes on without a status (`Game.Continues`). When the stack comes down to
the turn after an action, the turn passes on to the first living player round the table, with one
status (`Game.Passes`). That is all that can come of an input, or of the inputs up to the end of a
turn (`Game.Turned`).

The only step that passes the turn on is that of the turn frame when it goes on by itself. Something
has to stir for that, and what comes in at the beginning of a turn stirs only if it is a move that
the game waits for.
-/

namespace CoupTable.Game

variable {g g' g₁ x x' : Game} {cause : Cause} {i : Input} {inputs : List Input} {m : Move}
  {seat : Nat} {data : String} {below : List Frame}

/-! ## When a turn ends -/

/-- The turn passes on, and one status is sent. -/
structure Passes (g g' : Game) : Prop where
  /-- A turn begins. -/
  frames : g'.stack.frames = [.turn]
  /-- The players have the same names. -/
  names : g'.names = g.names
  /-- It is the turn of somebody further round the table, and whoever is passed is dead. -/
  way : ∃ d, 0 < d ∧ d ≤ g.players.length ∧ g'.current = (g.current + d) % g.players.length ∧
    ∀ e, 0 < e → e < d → g'.isAlive ((g.current + e) % g.players.length) = false
  /-- The player whose turn it is now is alive. -/
  lives : g'.isAlive g'.current = true
  /-- It is the turn of the same player only if nobody else is alive. -/
  alone : g'.current = g.current → ∀ seat, g'.isAlive seat = true → seat = g.current
  /-- The status of the new turn is sent last, and nothing else that is sent is a status. -/
  status : ∃ ms, g.Remarks ms ∧ g'.venue.outbox = g'.status :: (ms ++ g.venue.outbox)

/-- A turn that goes on, and then passes on. -/
theorem Continues.passes (h : g.Continues g₁) (h' : g₁.Passes g') : g.Passes g' := by
  obtain ⟨ms, hms, hout⟩ := h.remarks
  obtain ⟨ms', hms', hout'⟩ := h'.status
  have hway := h'.way
  have halone := h'.alone
  rw [h.current, h.length_eq] at hway
  rw [h.current] at halone
  exact {
    frames := h'.frames
    names := h'.names.trans h.names
    way := hway
    lives := h'.lives
    alone := halone
    status := ⟨ms' ++ ms, (hms'.of_names h.names).append hms, by
      rw [hout', hout, List.append_assoc]⟩ }

/-- A turn that goes on has not passed on, since no status was sent. -/
theorem Continues.not_passes (h : g.Continues g') : ¬ g.Passes g' := by
  intro hpasses
  obtain ⟨ms, hms, hout⟩ := h.remarks
  obtain ⟨ms', -, hout'⟩ := hpasses.status
  rw [← List.cons_append] at hout'
  have hsent : ms = g'.status :: ms' := List.append_cancel_right (hout.symm.trans hout')
  refine hms g'.status (hsent ▸ List.mem_cons_self) ?_
  rw [← h.names]
  exact isStatus_status g'

/-- The turn frame that goes on by itself passes the turn on, and nothing more stirs for it. -/
theorem Step.passes (h : g.Sound) (hf : g.stack.frames = .turn :: below)
    (hstep : Step g .idle g') : g.Passes g' ∧ g'.stirred = g.stirred := by
  obtain ⟨hframes, hlives⟩ : g.stack.frames = [.turn] ∧ ∃ seat, g.isAlive seat = true := by
    cases h.shape_of hf with
    | turn hlives => exact ⟨hf, hlives⟩
  obtain ⟨d, hd, hle, hnext, hskipped, -⟩ := nextSeat_eq h.current
  have hnextLives := isAlive_nextSeat h.current hlives
  obtain ⟨venue, isOver, overAlarm, hout, rfl⟩ := hstep.idle_of_turn hf
  refine ⟨⟨hframes, rfl, ⟨d, hd, hle, hnext, hskipped⟩, hnextLives, fun hsame other hother => ?_,
    [], .nil, hout⟩, rfl⟩
  exact eq_current_of_nextSeat h.current hsame hother

/-- A frame other than the turn that goes on by itself stirs, or leaves the turn under way. -/
theorem Step.underWay_of_idle (hstep : Step g .idle g')
    (hturn : ∀ below, g.stack.frames ≠ .turn :: below) (hstill : g'.stirred = false) :
    g'.underWay = true := by
  cases hstep with
  | pass hf | finish hf => exact absurd hf (hturn _)
  | unopposed _ _ hgrant => cases (hgrant.stirred_eq rfl).symm.trans hstill
  | answerLast _ _ _ _ hanswer => cases hanswer.stirred_eq.symm.trans hstill
  | dropDead | loseAll => cases hstill
  | ask | showOnly => rfl
  | askSomebody hf hne =>
    rw [underWay, Stack.top?, hf, List.head?_cons]
    exact bne_iff_ne.2 fun heq => hne (Option.some.inj heq)

/-- When a game has settled, the turn has passed on, or it goes on. -/
theorem Settles.passes_or_continues (hsettles : Settles g g') (h : g.Sound)
    (hv : g.variant ≠ none) :
    g.Passes g' ∨ g.Continues g' ∧ (g' = g ∨ g'.underWay = true) := by
  induction hsettles with
  | rest => exact .inr ⟨.refl _, .inl rfl⟩
  | @go g g₁ g' hstirred hidle hsettles ih =>
    obtain ⟨hidled, hsound⟩ := h.idled hstirred hidle
    by_cases hturn : ∃ below, g.stack.frames = .turn :: below
    · -- The turn passes on, and that is the last thing that happens.
      obtain ⟨below, hf⟩ := hturn
      obtain ⟨hpasses, hstill⟩ := hidled.step.passes h.hush hf
      cases hsettles.eq_of_still hstill
      exact .inl { hpasses with }
    · have hturn : ∀ below, g.stack.frames ≠ .turn :: below := fun below hf => hturn ⟨below, hf⟩
      have hstay := hidled.step.continues h.hush hv fun _ => hturn
      have hstay : g.Continues g₁ := { hstay with }
      rcases ih hsound (hstay.variant.symm ▸ hv) with hpasses | ⟨hstay', rfl | hway⟩
      · exact .inl (hstay.passes hpasses)
      · exact .inr ⟨hstay, .inr (hidled.step.underWay_of_idle hturn hsettles.still)⟩
      · exact .inr ⟨hstay.trans hstay', .inr hway⟩

/-! ## What comes in -/

/-- The input is a move that the game waits for. -/
def Acts (g : Game) (i : Input) : Prop :=
  ∃ seat data m, i = .press seat data ∧ Move.parse? data = some m ∧ (seat, m) ∈ g.moves

/-- What comes of an input, or of the inputs from it on up to the end of a turn. -/
inductive Turned (g : Game) (i : Input) (g' : Game) : Prop where
  /-- The turn has not begun with a move, and no move comes in: at most there are questions, time
  passes, and the end is reported. -/
  | waits (hturn : g.underWay = false) (hidle : ¬ g.Acts i)
      (hsame : ∃ venue overAlarm, g' = { g with venue, overAlarm }) (h : g.Continues g')
  /-- The turn is under way, and goes on. -/
  | goesOn (hbusy : g.underWay = true ∨ g.Acts i) (hway : g'.underWay = true) (h : g.Continues g')
  /-- The turn was under way, and passes on. -/
  | passes (hbusy : g.underWay = true ∨ g.Acts i) (h : g.Passes g')

/-- What the current player presses at the beginning of a turn makes something stir, or the player
is asked for a target that is lacking. -/
theorem Step.of_turn (hf : g.stack.frames = .turn :: below) (hstep : Step g (.press seat m) x) :
    seat = g.current ∧ ((x.stirred = true ∧ m.lacksTarget = false) ∨
      (m.lacksTarget = true ∧ ∃ ms, g.Remarks ms ∧ x = g.said ms)) := by
  cases hstep with
  | income | coup | convert => exact ⟨rfl, .inl ⟨rfl, rfl⟩⟩
  | claim _ _ _ hm =>
    refine ⟨rfl, .inl ⟨rfl, Bool.eq_false_iff.2 fun hlacks => ?_⟩⟩
    cases (Move.effect?_of_lacksTarget hlacks).symm.trans hm
  | askTarget _ hm hms => exact ⟨rfl, .inr ⟨hm, _, hms, rfl⟩⟩
  | deal hf' | accept hf' | acceptLast hf' | challenge hf' | block hf' | answer hf' | lose hf'
  | keep hf' | keepLast hf' | showCard hf' | allow hf' | change hf' => cases hf.symm.trans hf'

/-- A step that stirs, or is taken while the turn is under way, makes the turn pass on or leaves it
under way. -/
theorem Step.passes_or_goesOn (h : g.AtRest) (hv : g.variant ≠ none) (hstep : Step g cause x)
    (hcause : cause ≠ .idle) (hbusy : g.underWay = true ∨ x.stirred = true) (hsound : x.Sound)
    (hsettles : Settles x g') : g.Passes g' ∨ g.Continues g' ∧ g'.underWay = true := by
  have hstay := hstep.continues h.toSound hv fun hidle => absurd hidle hcause
  rcases hsettles.passes_or_continues hsound (hstay.variant.symm ▸ hv) with
    hpasses | ⟨hstay', rfl | hway⟩
  · exact .inl (hstay.passes hpasses)
  · refine .inr ⟨hstay, ?_⟩
    have hstill := hsettles.still
    rcases hbusy with hway | hstirred
    · -- Nothing stirs, and with the turn on top the game would have been there before.
      by_contra hdone
      have hf' := hsound.frames_of_turn (Bool.not_eq_true _ ▸ hdone)
      rcases hstep.of_still hcause hstill with
        ⟨_, _, _, hf, -⟩ | ⟨_, _, hf, -⟩ | ⟨_, _, _, -, -, rfl⟩
      · exact hv (h.shape_of hf).variant_eq_none
      · cases hway.symm.trans (underWay_of_turn hf)
      · cases hf'
    · cases hstill.symm.trans hstirred
  · exact .inr ⟨hstay.trans hstay', hway⟩

/-- What comes of a press. -/
theorem AtRest.press_turned (h : g.AtRest) (hv : g.variant ≠ none)
    (hpress : g.press seat data = .ok g') : g.Turned (.press seat data) g' := by
  rcases press_cases h hpress with
    ⟨rfl, hignored⟩ | ⟨m, x, hdata, hover, -, hstep, hsound, hsettles⟩
  · by_cases hway : g'.underWay = true
    · exact .goesOn (.inl hway) hway (.refl _)
    · have hturn := Bool.not_eq_true _ ▸ hway
      have hf := h.frames_of_turn hturn
      refine .waits hturn ?_ ⟨_, _, rfl⟩ (.refl _)
      -- A move that the game waits for would not be ignored.
      rintro ⟨_, _, m, ⟨⟩, hdata, hmem⟩
      obtain ⟨rfl, hcan⟩ := canTake_of_mem_moves hf hmem
      obtain ⟨x, hdispatch, hstep, -, -⟩ := h.press_of_mem_moves hmem hdata
      cases hdispatch.symm.trans (hignored m hdata h.current (isOver_of_mem_moves hmem))
      rcases (hstep.of_turn hf).2 with ⟨hstirred, -⟩ | ⟨hlacks, -⟩
      · cases h.still.symm.trans hstirred
      · cases hcan.hasTarget.symm.trans hlacks
  · have hnext := fun hbusy => hstep.passes_or_goesOn h hv nofun hbusy hsound hsettles
    by_cases hway : g.underWay = true
    · rcases hnext (.inl hway) with hpasses | ⟨hstay, hway'⟩
      · exact .passes (.inl hway) hpasses
      · exact .goesOn (.inl hway) hway' hstay
    · have hturn := Bool.not_eq_true _ ▸ hway
      have hf := h.frames_of_turn hturn
      obtain ⟨rfl, ⟨hstirred, hhas⟩ | ⟨hlacks, ms, hms, rfl⟩⟩ := hstep.of_turn hf
      · have hacts : g.Acts (.press g.current data) := by
          refine ⟨_, _, m, rfl, hdata, ?_⟩
          rcases hstep.mem_moves h hover h.current with hmem | ⟨-, c, rest, hf'⟩ | ⟨hlacks, -⟩
          · exact hmem
          · cases hf.symm.trans hf'
          · cases hhas.symm.trans hlacks
        rcases hnext (.inr hstirred) with hpasses | ⟨hstay, hway'⟩
        · exact .passes (.inr hacts) hpasses
        · exact .goesOn (.inr hacts) hway' hstay
      · cases hsettles.eq_of_still h.still
        refine .waits hturn ?_ ⟨_, _, rfl⟩ ⟨rfl, rfl, rfl, ms, hms, rfl⟩
        rintro ⟨_, _, m', ⟨⟩, hdata', hmem⟩
        cases hdata.symm.trans hdata'
        cases (canTake_of_mem_moves hf hmem).2.hasTarget.symm.trans hlacks

namespace Turned

/-- An input that is no press leaves a game to which nothing has happened yet as it is. -/
theorem refl (hpress : ∀ seat data, i ≠ .press seat data) : g.Turned i g := by
  by_cases hway : g.underWay = true
  · exact .goesOn (.inl hway) hway (.refl g)
  · refine .waits (Bool.not_eq_true _ ▸ hway) ?_ ⟨_, _, rfl⟩ (.refl g)
    rintro ⟨seat, data, _, heq, -⟩
    exact hpress seat data heq

/-- The clock may move on, and the end be reported. -/
theorem later (h : g.Turned i x) (venue : Venue) (overAlarm : Option AlarmId)
    (hout : venue.outbox = x.venue.outbox) : g.Turned i { x with venue, overAlarm } := by
  cases h with
  | waits hturn hidle hsame hstay =>
    obtain ⟨_, _, rfl⟩ := hsame
    obtain ⟨ms, hms, hsent⟩ := hstay.remarks
    exact .waits hturn hidle ⟨_, _, rfl⟩ ⟨rfl, rfl, rfl, ms, hms, hout.trans hsent⟩
  | goesOn hbusy hway hstay =>
    obtain ⟨ms, hms, hsent⟩ := hstay.remarks
    exact .goesOn hbusy hway ⟨hstay.current, hstay.variant, hstay.names, ms, hms, hout.trans hsent⟩
  | passes hbusy hpasses =>
    obtain ⟨ms, hms, hsent⟩ := hpasses.status
    exact .passes hbusy { hpasses with status := ⟨ms, hms, hout.trans hsent⟩ }

/-- As long as the turn is under way, it goes on. -/
theorem of_underWay (h : g.Turned i x) (hway : x.underWay = true) :
    (g.underWay = true ∨ g.Acts i) ∧ g.Continues x := by
  cases h with
  | waits hturn _ hsame _ =>
    obtain ⟨_, _, rfl⟩ := hsame
    cases hturn.symm.trans hway
  | goesOn hbusy _ hstay => exact ⟨hbusy, hstay⟩
  | passes _ hpasses => cases (underWay_of_turn hpasses.frames).symm.trans hway

/-- A turn that is under way passes on, or goes on. -/
theorem trans (h : g.Turned i x) (hway : x.underWay = true)
    (hnext : x.Passes g' ∨ x.Continues g' ∧ g'.underWay = true) : g.Turned i g' := by
  obtain ⟨hbusy, hstay⟩ := h.of_underWay hway
  rcases hnext with hpasses | ⟨hstay', hway'⟩
  · exact .passes hbusy (hstay.passes hpasses)
  · exact .goesOn hbusy hway' (hstay.trans hstay')

/-- An alarm that goes off as well. -/
theorem expire {id : AlarmId} (h : g.Turned i x) (hrest : x.AtRest) (hv : g.variant ≠ none)
    (hexpire : x.expire id = .ok x') : g.Turned i x' := by
  rcases expire_cases hrest hexpire with ⟨-, rfl⟩ | rfl | ⟨x₁, hstep, hsound, hsettles⟩
  · exact h.later x.venue.reportOver none rfl
  · exact h
  · -- A claim waits for the alarm, so that the turn is under way.
    have hway : x.underWay = true := by
      cases hstep with
      | timeOut hf =>
        rw [underWay, Stack.top?, hf]
        rfl
    have hvariant := (h.of_underWay hway).2.variant
    have hcause : Cause.alarm id ≠ .idle := by simp
    exact h.trans hway
      (hstep.passes_or_goesOn hrest (hvariant ▸ hv) hcause (.inl hway) hsound hsettles)

end Turned

/-- What comes of an input. -/
theorem AtRest.feed_turned (h : g.AtRest) (hv : g.variant ≠ none) (hfeed : g.feed i = .ok g') :
    g.Turned i g' := by
  cases i with
  | press seat data => exact h.press_turned hv hfeed
  | expire id => exact (Turned.refl (i := .expire id) nofun).expire h hv hfeed
  | advance time =>
    refine advanceIn_induction (P := g.Turned (.advance time)) ?_ ?_ h (.refl nofun) hfeed
    · rintro x _ due venue hx hdue
      obtain ⟨a, rfl, -⟩ := Venue.eq_of_advance hdue
      exact hx.later { x.venue with alarms := a } x.overAlarm rfl
    · exact fun x x' id hrest hx hexpire => hx.expire hrest hv hexpire

/-- What comes of the inputs up to the end of a turn. -/
theorem Turned.run (h : g.Turned i x) (hrest : x.AtRest) (hv : g.variant ≠ none)
    (hrun : RunsThrough (·.underWay = true) x inputs g') : g.Turned i g' := by
  induction hrun with
  | done => exact h
  | @next x x₁ _ j _ hway hfeed _ ih =>
    have hvariant := (h.of_underWay hway).2.variant
    have hturned := hrest.feed_turned (hvariant ▸ hv) hfeed
    refine ih (h.trans hway ?_) (hrest.feed hfeed)
    cases hturned with
    | waits hturn => cases hturn.symm.trans hway
    | goesOn _ hway' hstay => exact .inr ⟨hstay, hway'⟩
    | passes _ hpasses => exact .inl hpasses

/-- Before the cards are dealt an input leaves the turn where it is. -/
theorem AtRest.current_of_variant (h : g.AtRest) (hv : g.variant = none)
    (hfeed : g.feed i = .ok g') : g'.current = g.current := by
  have hf := (h.undealt hv).1
  rcases feed_cases h hf nofun (fun _ => nofun) hfeed with
    ⟨⟨venue, rfl⟩, -⟩ | ⟨seat, data, m, x, -, -, -, hstep, -, hsettles⟩
  · rfl
  · obtain ⟨hidle, -⟩ | ⟨_, _, v, ms, -, -, hdeal⟩ := hstep.of_variantChoice hf
    · cases hidle
    · obtain ⟨built, ms', -, rfl⟩ := h.of_deal hf hdeal
      cases hsettles.eq_of_still h.still
      rfl

/-- In a reachable game the turn goes round. Before the cards are dealt it stays where it is, and
afterwards, whenever a turn is to begin, the player whose turn it is is alive. An input at the
beginning of a turn that is no move the game waits for leaves the turn where it is. Otherwise it
stays as long as anything is on top of it, and when the inputs have led to the end of it, it has
passed on once, to the first living player round the table, with one status. -/
theorem Reachable.turn_rotates (h : Reachable g) :
    (g.variant = none → ∀ i x, g.feed i = .ok x → x.current = g.current) ∧
    (g.variant ≠ none → g.underWay = false → g.isAlive g.current = true) ∧
    (g.variant ≠ none → ∀ i x inputs g', g.feed i = .ok x →
      RunsThrough (·.underWay = true) x inputs g' →
      g.Turned i g' ∧ ¬ (g.Continues g' ∧ g.Passes g')) := by
  have hrest := h.atRest
  refine ⟨fun hv i x => hrest.current_of_variant hv, fun _ hturn => ?_,
    fun hv i x inputs g' hfeed hrun => ?_⟩
  · exact hrest.awake (hrest.frames_of_turn hturn)
  · exact ⟨(hrest.feed_turned hv hfeed).run (hrest.feed hfeed) hv hrun,
      fun hboth => hboth.1.not_passes hboth.2⟩

/-- Bob has lost both cards. Ada takes tax, Cid lets it through, and the turn passes to Cid, with
one status. -/
theorem turn_rotates_tax : ∃ g x g',
    playOut ["Ada", "Bob", "Cid"]
        { seed := some 0, startPlayer := some 0, variant := some .classic }
        [.press 0 "tax", .press 1 "challenge", .press 0 "reveal:1", .press 1 "lose:0",
          .press 1 "tax", .press 0 "challenge", .press 2 "income"] = some g ∧
      g.current = 0 ∧ g.isAlive 0 = true ∧ g.isAlive 1 = false ∧
      g.feed (.press 0 "tax") = .ok x ∧ g.Continues x ∧
      RunsThrough (·.underWay = true) x [.press 2 "accept"] g' ∧ g.Passes g' ∧ g'.current = 2 := by
  have hrun : ((playOut ["Ada", "Bob", "Cid"]
      { seed := some 0, startPlayer := some 0, variant := some .classic }
      [.press 0 "tax", .press 1 "challenge", .press 0 "reveal:1", .press 1 "lose:0",
        .press 1 "tax", .press 0 "challenge", .press 2 "income"]).bind
      fun g => (g.runThrough? (fun _ => true) [.press 0 "tax"]).bind fun x =>
        (x.runThrough? underWay [.press 2 "accept"]).map fun g' =>
          ((g.current, g.underWay, g.variant.isSome, g.isAlive 1), x.underWay, g'.current))
      = some ((0, false, true, false), true, 2) := by
    decide +kernel
  obtain ⟨g, hg, hrun⟩ := Option.bind_eq_some_iff.1 hrun
  obtain ⟨x, hx, hrun⟩ := Option.bind_eq_some_iff.1 hrun
  obtain ⟨g', hg', hrun⟩ := Option.map_eq_some_iff.1 hrun
  simp only [Prod.mk.injEq] at hrun
  obtain ⟨⟨hcurrent, hturn, hv, hdead⟩, hway, hcurrent'⟩ := hrun
  have hv : g.variant ≠ none := Option.isSome_iff_ne_none.1 hv
  have hfeed := feed_of_runThrough? hx
  have hrun := runsThrough_of_runThrough? hg'
  obtain ⟨-, hlives, hturned⟩ := (reachable_of_playOut hg).turn_rotates
  have hstay := ((hturned hv _ x [] x hfeed .done).1.of_underWay hway).2
  have hpasses : g.Passes g' := by
    cases (hturned hv _ _ _ _ hfeed hrun).1 with
    | waits _ _ _ hstay' | goesOn _ _ hstay' =>
      cases hcurrent'.symm.trans (hstay'.current.trans hcurrent)
    | passes _ hpasses => exact hpasses
  exact ⟨g, x, g', hg, hcurrent, hcurrent ▸ hlives hv hturn, hdead, hfeed, hstay, hrun, hpasses,
    hcurrent'⟩

end CoupTable.Game
