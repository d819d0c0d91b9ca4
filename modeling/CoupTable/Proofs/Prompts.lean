import CoupTable.Game.Moves
import CoupTable.Proofs.Choosing
import CoupTable.Proofs.Exposure
import CoupTable.Proofs.Patience

/-!
# What is offered is what is waited for

The buttons under a message are made where the message is, and the moves that a game waits for are
listed elsewhere. The two agree. A player who has to decide something alone was asked last, with a
button for each move in the order of the list (`Offers`); the table was asked for the variant with a
button for each; and the status of a turn has a button for each kind of move that the current player
could make, and for no other (`standFor_turnButtons`).

Questions are sent when a frame goes on by itself, and once nothing stirs the last one is still
good: nothing is sent for a press that is ignored, and a question for a target is no status.
`Asked` says so of a game between two inputs.
-/

namespace CoupTable

/-- The player who has to decide about a frame alone, if there is one. -/
def Frame.decider? : Frame → Option Nat
  | loss seat => some seat
  | reveal r => some r.challenged
  | exchange e => some e.player
  | interrogation i => some (if i.shown.isSome then i.inquisitor else i.target)
  | turn | variantChoice | claim _ => none

namespace Game

variable {g g' : Game} {cause : Cause} {f : Frame} {below below' : List Frame} {seat slot : Nat}
  {p : Player} {c : Claim} {r : Reveal} {i : Interrogation} {v : Variant}

/-! ## The buttons of a turn -/

/-- The buttons stand for the moves: a command is on one of them if some move has it. -/
def StandFor (buttons : List Button) (moves : List Move) : Prop :=
  ∀ command, command ∈ buttons.map (·.data) ↔ command ∈ moves.map (·.command)

namespace StandFor

variable {buttons buttons' : List Button} {moves moves' : List Move}

/-- Buttons with the commands of the moves, in the same order, stand for them. -/
theorem of_map_eq (h : buttons.map (·.data) = moves.map (·.command)) : StandFor buttons moves :=
  fun _ => by rw [h]

/-- What stands for some moves and for others stands for all of them. -/
theorem append (h : StandFor buttons moves) (h' : StandFor buttons' moves') :
    StandFor (buttons ++ buttons') (moves ++ moves') := by
  intro command
  rw [List.map_append, List.map_append, List.mem_append, List.mem_append, h, h']

/-- Buttons and moves may be there on one condition. -/
theorem ite {b : Prop} [Decidable b] (h : b → StandFor buttons moves) :
    StandFor (if b then buttons else []) (if b then moves else []) := by
  split
  next hb => exact h hb
  next => exact of_map_eq rfl

/-- One button stands for moves that all have its command, if there are any. -/
theorem one {label : String} {m : Move} (hdata : m.data = m.command) (hne : moves ≠ [])
    (hcommand : ∀ m' ∈ moves, m'.command = m.command) : StandFor [⟨label, m.data⟩] moves := by
  intro command
  obtain ⟨m', hm'⟩ := List.exists_mem_of_ne_nil _ hne
  rw [List.map_singleton, List.mem_singleton, hdata, List.mem_map]
  constructor
  · rintro rfl
    exact ⟨m', hm', hcommand m' hm'⟩
  · rintro ⟨m'', hm'', rfl⟩
    exact hcommand m'' hm''

/-- One button stands for a move against each target, if there is one. -/
theorem against {label : String} {make : Option Nat → Move} (htargets : g.targets ≠ [])
    (hdata : (make none).data = (make none).command)
    (hmake : ∀ target, (make (some target)).command = (make none).command) :
    StandFor [⟨label, (make none).data⟩] (g.targets.map fun target => make (some target)) := by
  refine one hdata (fun hnil => htargets (List.map_eq_nil_iff.1 hnil)) fun m hm => ?_
  obtain ⟨target, -, rfl⟩ := List.mem_map.1 hm
  exact hmake target

/-- Whoever has a coin can change sides, since the own change costs one. -/
theorem convert (hlives : g.isAlive g.current = true) (coins : Nat) :
    StandFor (if coins > 0 then [⟨"Convert", (Move.convert none).data⟩] else [])
      ((g.livingSeats.filter fun target => conversionCost g.current target ≤ coins).map
        fun target => Move.convert (some target)) := by
  split
  next hcoins =>
    have hself : conversionCost g.current g.current ≤ coins := by
      rw [conversionCost, if_pos rfl]
      exact hcoins
    refine one rfl (List.ne_nil_of_mem (a := .convert (some g.current)) ?_) fun m hm => ?_
    · exact List.mem_map_of_mem
        (List.mem_filter.2 ⟨mem_livingSeats.2 hlives, decide_eq_true hself⟩)
    · obtain ⟨target, -, rfl⟩ := List.mem_map.1 hm
      rfl
  next hcoins =>
    have hnone : (g.livingSeats.filter fun target => conversionCost g.current target ≤ coins)
        = [] := by
      refine List.filter_eq_nil_iff.2 fun target _ => ?_
      unfold conversionCost
      rw [decide_eq_true_eq]
      split <;> omega
    rw [hnone]
    exact of_map_eq rfl

end StandFor

/-- The buttons under the status of a turn stand for the moves that the current player could make,
if there is a target. -/
theorem standFor_turnButtons (htargets : g.targets ≠ []) (hlives : g.isAlive g.current = true) :
    StandFor g.turnButtons g.turnMoves := by
  unfold turnButtons turnMoves
  dsimp only
  split
  next => exact .against htargets rfl fun _ => rfl
  next =>
    repeat' refine .append ?_ ?_
    · exact .of_map_eq rfl
    · exact .ite fun _ => .against htargets rfl fun _ => rfl
    · exact .ite fun _ => .append (.convert hlives _) (.of_map_eq rfl)
    · exact .of_map_eq rfl
    · exact .ite fun _ => .against htargets rfl fun _ => rfl
    · exact .of_map_eq rfl
    · exact .ite fun _ => .against htargets rfl fun _ => rfl
    · exact .against htargets rfl fun _ => rfl

/-! ## Questions to one player -/

/-- The last message asks a player about the frame, with a button for each move that it waits
for. -/
def Offers (g : Game) (seat : Nat) (f : Frame) : Prop :=
  ∃ m rest, g.venue.outbox = m :: rest ∧ m.recipient = .player seat ∧
    m.buttons.map (·.data) = (g.movesFor f).map (·.2.data)

/-- A player who is told something with the right buttons is asked. -/
theorem offers_tell {text : String} {buttons : List Button}
    (h : buttons.map (·.data) = (g.movesFor f).map (·.2.data)) :
    (g.tell seat text buttons).Offers seat f := by
  have hsame : (g.tell seat text buttons).movesFor f = g.movesFor f := by
    cases f <;> rfl
  exact ⟨_, _, rfl, rfl, by rw [hsame, h]⟩

/-- The buttons for the own living cards stand for the moves about them. -/
theorem data_slotMoves (hp : g.players[seat]? = some p) (make : Nat → Move) :
    (p.living.map fun (slot, c) => (⟨c.name, (make slot).data⟩ : Button)).map (·.data)
      = (g.slotMoves seat make).map (·.2.data) := by
  rw [slotMoves, hp]
  simp only [Player.livingSlots, List.map_map]
  rfl

/-- A player who has to lose a card, and not all that are left, is asked which. -/
theorem lossIdle_offers (hf : g.stack.frames = .loss seat :: below)
    (hp : g.players[seat]? = some p) (hidle : g.lossIdle seat = .ok g')
    (hstill : g'.stirred = false) : g'.Offers seat (.loss seat) := by
  by_cases hall : g.losesAll seat p.livingCount = true
  · rw [lossIdle_all hf hp hall] at hidle
    cases hidle
    cases hstill
  · rw [lossIdle_ask hp hall] at hidle
    cases hidle
    exact offers_tell (f := .loss seat) (data_slotMoves hp .lose)

/-- The buttons for the answer to a challenge stand for the moves that answer it. -/
theorem data_revealMoves (hp : g.players[r.challenged]? = some p) :
    (revealButtons r p).map (·.data) = (g.revealMoves r).map (·.2.data) := by
  unfold revealButtons revealMoves
  split
  · rw [hp, Option.any_some]
    cases p.holds r.clans <;> rfl
  · exact data_slotMoves hp .reveal

/-- A challenged player who has a choice is asked. -/
theorem askChallenged_offers (hp : g.players[r.challenged]? = some p)
    (hask : g.askChallenged r = .ok g') : g'.Offers r.challenged (.reveal r) := by
  unfold askChallenged at hask
  obtain ⟨challenger, -, hask⟩ := exists_ok_of_bind hask
  rw [player_eq hp, ok_bind] at hask
  cases hask
  exact offers_tell (f := .reveal r) (data_revealMoves hp)

/-- A challenged player is asked, unless the last card is revealed at once. -/
theorem revealIdle_offers (h : g.Sound) (hf : g.stack.frames = .reveal r :: .claim c :: below)
    (hidle : g.revealIdle r = .ok g') (hstill : g'.stirred = false) :
    g'.Offers r.challenged (.reveal r) := by
  obtain ⟨-, p, -, hp, -⟩ := h.of_challenge hf
  have hlives : p.isAlive = true := by
    rw [← isAlive_eq hp]
    exact (h.shape_of hf).isAlive_challenged
  unfold revealIdle at hidle
  rw [player_eq hp, ok_bind, hlives, if_neg (by decide)] at hidle
  split at hidle
  next slot hplain hsingle =>
    obtain ⟨x, hreveal, hanswer⟩ :=
      revealCard_eq h hf hp hplain (Player.singleLiving?_eq_some hsingle).1
    cases hreveal.symm.trans hidle
    cases hanswer.stirred_eq.symm.trans hstill
  next => exact askChallenged_offers hp hidle

/-- A player who exchanges cards is asked which to keep. -/
theorem exchangeIdle_offers (e : Exchange) : (g.exchangeIdle e).Offers e.player (.exchange e) := by
  refine offers_tell ?_
  have hindices : e.offered.zipIdx.map Prod.snd = List.range e.offered.length := by
    rw [List.zipIdx_map_snd, List.range_eq_range']
  rw [movesFor, ← hindices]
  simp only [List.map_map]
  rfl

/-- The inquisitor is asked about the card that is shown. -/
theorem askInquisitor_offers (hask : g.askInquisitor i slot = .ok g') : g'.stack = g.stack ∧
    g'.Offers i.inquisitor (.interrogation { i with shown := some slot }) := by
  unfold askInquisitor at hask
  obtain ⟨target, -, hask⟩ := exists_ok_of_bind hask
  obtain ⟨c, -, hask⟩ := exists_ok_of_bind hask
  cases hask
  exact ⟨rfl, offers_tell rfl⟩

/-- Whoever has to decide next in an interrogation is asked. -/
theorem interrogationIdle_offers (h : g.Sound) (hf : g.stack.frames = .interrogation i :: below)
    (hidle : g.interrogationIdle i = .ok g') (hf' : g'.stack.frames = f :: below')
    (hseat : f.decider? = some seat) : g'.Offers seat f := by
  obtain ⟨inquisitor, target, hinquisitor, htarget, -⟩ := h.of_interrogation hf
  unfold interrogationIdle at hidle
  rw [player_eq hinquisitor, ok_bind, player_eq htarget, ok_bind] at hidle
  split at hidle
  next slot hshown =>
    obtain ⟨hstack, hoffers⟩ := askInquisitor_offers hidle
    rw [hstack, hf] at hf'
    cases hf'
    rw [← hshown] at hoffers
    rw [Frame.decider?, hshown] at hseat
    cases hseat
    exact hoffers
  next slot _ _ =>
    obtain ⟨hstack, hoffers⟩ := askInquisitor_offers hidle
    rw [hstack, setTop_eq hf] at hf'
    cases hf'
    cases hseat
    exact hoffers
  next hshown _ =>
    cases hidle
    cases hf.symm.trans hf'
    rw [Frame.decider?, hshown] at hseat
    cases hseat
    refine offers_tell ?_
    rw [movesFor, interrogationMoves, hshown]
    exact data_slotMoves htarget .showCard

/-- Once a frame has gone on by itself and nothing stirs, whoever has to decide about the frame on
top alone was asked. -/
theorem Sound.offers_of_idle (h : g.Sound) (hidle : g.idle = .ok g') (hstep : Step g .idle g')
    (hstill : g'.stirred = false) (hf' : g'.stack.frames = f :: below)
    (hseat : f.decider? = some seat) : g'.Offers seat f := by
  unfold idle Stack.top? at hidle
  cases hstep with
  -- After these something stirs still, or nobody alone has to decide.
  | unopposed _ _ hgrant => cases (hgrant.stirred_eq rfl).symm.trans hstill
  | answerLast _ _ _ _ hanswer => cases hanswer.stirred_eq.symm.trans hstill
  | dropDead | loseAll => cases hstill
  | pass hf | finish hf =>
    cases hf.symm.trans hf'
    cases hseat
  | ask =>
    cases hf'
    cases hseat
  -- What is left is a frame that asks its player, and each offers the moves it heeds.
  | showOnly hf =>
    rw [hf] at hidle
    exact interrogationIdle_offers h hf hidle hf' hseat
  | askSomebody hf =>
    cases hf.symm.trans hf'
    rw [hf] at hidle
    cases f with
    | turn | variantChoice | claim c => cases hseat
    | loss loser =>
      cases hseat
      obtain ⟨p, hp, -⟩ := h.of_loss hf
      exact lossIdle_offers hf hp hidle hstill
    | reveal r =>
      cases hseat
      obtain ⟨c, rest, rfl⟩ := (h.shape_of hf).exists_claim
      exact revealIdle_offers h hf hidle hstill
    | exchange e =>
      cases hseat
      rw [← Except.ok.inj hidle]
      exact exchangeIdle_offers e
    | interrogation i => exact interrogationIdle_offers h hf hidle hf' hseat

/-! ## The status of a turn -/

/-- The last message is the status. -/
def HasStatus (g : Game) : Prop := ∃ rest, g.venue.outbox = g.status :: rest

/-- The status is sent as it is once it is sent. -/
theorem hasStatus_of_showStatus (h : g.showStatus = .ok g') : g'.HasStatus := by
  by_cases hends : g.isFinished = true ∧ g.isOver = false
  · rw [showStatus_final hends.1 hends.2] at h
    obtain ⟨armed, harm, h⟩ := exists_ok_of_bind h
    obtain ⟨a, hvenue⟩ := Venue.eq_of_arm harm
    cases h
    exact ⟨_, congrArg (·.outbox) hvenue⟩
  · rw [showStatus_eq fun hfinished => by simpa [hfinished] using hends] at h
    cases h
    exact ⟨_, rfl⟩

/-- A deal ends with the status of the first turn. -/
theorem hasStatus_of_deal (h : g.deal v = .ok g') : g'.HasStatus := by
  unfold deal dealFrom at h
  obtain ⟨_, -, h⟩ := exists_ok_of_bind h
  obtain ⟨_, -, h⟩ := exists_ok_of_bind h
  obtain ⟨_, -, h⟩ := exists_ok_of_bind h
  exact hasStatus_of_showStatus h

/-! ## Between two inputs -/

/-- Whoever is waited for was asked, and the question still stands. -/
structure Asked (g : Game) : Prop where
  /-- Whoever has to decide alone was asked last of all. -/
  alone : ∀ f below seat, g.stack.frames = f :: below → f.decider? = some seat → g.Offers seat f
  /-- The table was asked for the variant last of all. -/
  variant : ∀ below, g.stack.frames = .variantChoice :: below →
    ∃ g₀ : Game, g.venue.outbox = g₀.askVariant.venue.outbox
  /-- The last status is that of the turn. -/
  turn : ∀ below, g.stack.frames = .turn :: below →
    ∃ ms rest, g.venue.outbox = ms ++ g.status :: rest ∧ g.Remarks ms

/-- At the beginning of a turn the status is all that is asked. -/
theorem HasStatus.asked (h : g.HasStatus) (hf : g.stack.frames = [.turn]) : g.Asked where
  alone f below seat hf' hseat := by
    cases hf.symm.trans hf'
    cases hseat
  variant below hf' := by cases hf.symm.trans hf'
  turn below _ := by
    obtain ⟨rest, hout⟩ := h
    exact ⟨[], rest, hout, .nil⟩

/-- A press or an alarm that leaves nothing to stir leaves what is asked as it was, or the cards are
dealt. -/
theorem Step.asked (h : g.AtRest) (hg : g.Asked) (hstep : Step g cause g')
    (hcause : cause ≠ .idle) (hstill : g'.stirred = false) : g'.Asked := by
  obtain ⟨v, ms, below, hf, hdeal⟩ | ⟨ms, below, hf, hms, rfl⟩ | ⟨c, below, seat, -, -, rfl⟩ :=
    hstep.of_still hcause hstill
  · have hstatus := hasStatus_of_deal hdeal
    obtain ⟨built, ms', -, rfl⟩ := h.of_deal hf hdeal
    exact hstatus.asked rfl
  · obtain ⟨ms', rest, hout, hremarks⟩ := hg.turn _ hf
    exact {
      alone := fun f below seat hf' hseat => by
        cases hf.symm.trans hf'
        cases hseat
      variant := fun below hf' => by cases hf.symm.trans hf'
      turn := fun below _ =>
        ⟨ms ++ ms', rest, (congrArg (ms ++ ·) hout).trans (List.append_assoc ..).symm,
          hms.append hremarks⟩ }
  · exact {
      alone := fun f below seat hf' hseat => by
        cases hf'
        cases hseat
      variant := fun below hf' => by cases hf'
      turn := fun below hf' => by cases hf' }

/-- Once a frame has gone on by itself and nothing stirs, whoever is waited for was asked. -/
theorem Sound.asked_of_idle (h : g.Sound) (hidle : g.idle = .ok g') (hstep : Step g .idle g')
    (hstill : g'.stirred = false) (hsound : g'.Sound) (hv : g'.variant ≠ none) : g'.Asked where
  alone f below seat hf' hseat := h.offers_of_idle hidle hstep hstill hf' hseat
  variant below hf' := absurd (hsound.shape_of hf').variant_eq_none hv
  turn below hf' := by
    -- Only the turn that has passed on leaves the turn on top.
    by_cases hturn : ∃ below, g.stack.frames = .turn :: below
    · obtain ⟨below₀, hf⟩ := hturn
      obtain ⟨ms, -, hout⟩ := (hstep.passes h hf).1.status
      exact ⟨[], _, hout, .nil⟩
    · have hway := hstep.underWay_of_idle (fun below hf => hturn ⟨below, hf⟩) hstill
      rw [underWay, Stack.top?, hf'] at hway
      cases hway

/-- When a game has settled, whoever is waited for was asked. -/
theorem Settles.asked (hsettles : Settles g g') (h : g.Sound) (hv : g.variant ≠ none)
    (hg : g.stirred = false → g.Asked) : g'.Asked := by
  induction hsettles with
  | rest hstill => exact hg hstill
  | @go g g₁ g' hstirred hidle _ ih =>
    obtain ⟨hidled, hsound⟩ := h.idled hstirred hidle
    have hv₁ := hidled.step.variant_ne_none h.hush hv
    exact ih hsound hv₁ fun hstill =>
      h.hush.asked_of_idle hidle hidled.step hstill hsound hv₁

/-- After a press or an alarm that is a step the variant is chosen. -/
theorem Step.variant_chosen (h : g.Sound) (hstep : Step g cause g') (hcause : cause ≠ .idle) :
    g'.variant ≠ none := by
  by_cases hv : g.variant = none
  · have hf := (h.undealt hv).1
    obtain ⟨hidle, -⟩ | ⟨_, _, v, ms, -, -, hdeal⟩ := hstep.of_variantChoice hf
    · exact absurd hidle hcause
    · obtain ⟨built, ms', -, rfl⟩ := h.of_deal hf hdeal
      exact nofun
  · exact hstep.variant_ne_none h hv

/-- After every event whoever is waited for was asked. -/
theorem Happening.asked (h : g.AtRest) (hg : g.Asked) (hevent : Happening g g') :
    g'.Asked := by
  cases hevent with
  | clock hdue =>
    obtain ⟨a, rfl, -⟩ := Venue.eq_of_advance hdue
    exact { hg with }
  | report => exact { hg with }
  | step hstep hcause _ hsound hsettles =>
    exact hsettles.asked hsound (hstep.variant_chosen h.toSound hcause) fun hstill =>
      hstep.asked h hg hcause hstill

/-- A new table is asked for the variant, or has seen the status of the first turn. -/
theorem asked_of_start {names : List String} {s : Settings} {entropy : Pcg}
    (hstart : start names s entropy = .ok g) : g.Asked := by
  have hbegin := begin_of_start hstart
  cases hv : s.variant with
  | none =>
    rw [hv, begin_none] at hbegin
    cases hbegin
    exact {
      alone := fun f below seat hf hseat => by
        cases hf
        cases hseat
      variant := fun _ _ => ⟨_, rfl⟩
      turn := nofun }
  | some v =>
    rw [hv, begin_some] at hbegin
    have hsound : (opened names s entropy).Sound := sound_opened (begun_of_start hstart).1
    obtain ⟨ms, hdeal⟩ := hsound.deal_eq rfl v [.turn] []
    have hseated : (seated names s entropy).deal v = _ := hdeal
    cases hseated.symm.trans hbegin
    exact (hasStatus_of_deal hbegin).asked rfl

/-- In a reachable game whoever is waited for was asked. -/
theorem Reachable.asked (h : Reachable g) : g.Asked := by
  induction h with
  | started hstart => exact asked_of_start hstart
  | fed hg hfeed ih =>
    exact hg.atRest.feed_induction (fun _ _ h hg hevent => hevent.asked h hg) ih hfeed

/-! ## The result -/

/-- A player who is asked last of all, and for whose decision there is a move, has the moves under
the last question to the player. -/
theorem Offers.find? (h : g.Offers seat f) (hne : g.movesFor f ≠ []) :
    ∃ m, g.venue.outbox.find? (fun m => m.recipient == .player seat && !m.buttons.isEmpty)
        = some m ∧ m.buttons.map (·.data) = (g.movesFor f).map (·.2.data) := by
  obtain ⟨m, rest, hout, hrecipient, hdata⟩ := h
  have hbuttons : m.buttons ≠ [] := by
    rintro hnil
    rw [hnil, List.map_nil] at hdata
    exact hne (List.map_eq_nil_iff.1 hdata.symm)
  refine ⟨m, ?_, hdata⟩
  rw [hout, List.find?_cons_of_pos]
  rw [hrecipient, beq_self_eq_true, Bool.true_and, Bool.not_eq_true', List.isEmpty_eq_false_iff]
  exact hbuttons

/-- Whoever has to decide about a frame alone is the only one that it waits for. -/
theorem seat_of_mem_movesFor {move : Nat × Move} (hseat : f.decider? = some seat)
    (hmem : move ∈ g.movesFor f) : move.1 = seat := by
  cases f with
  | turn | variantChoice | claim c => cases hseat
  | loss loser =>
    cases hseat
    exact (mem_slotMoves.1 hmem).1
  | reveal r =>
    -- Both answers of a player who denies, and each card of one who does not, are the player's.
    cases hseat
    change move ∈ g.revealMoves r at hmem
    unfold revealMoves at hmem
    dsimp only at hmem
    split at hmem
    next =>
      rcases List.mem_cons.1 hmem with rfl | hmem
      · rfl
      · split at hmem
        · cases hmem
        · rw [List.mem_singleton.1 hmem]
    next => exact (mem_slotMoves.1 hmem).1
  | exchange e =>
    cases hseat
    exact (mem_movesFor_exchange.1 hmem).1
  | interrogation i =>
    rcases mem_interrogationMoves.1 hmem with ⟨hshown, hwho, -⟩ | ⟨hshown, hwho, -⟩
    · rw [Frame.decider?, hshown] at hseat
      cases hseat
      exact hwho
    · rw [Frame.decider?, if_pos (Option.isSome_iff_ne_none.2 hshown)] at hseat
      cases hseat
      exact hwho

/-- While the variant is open the game waits for the same moves from everybody. -/
theorem moves_of_variantChoice (hover : g.isOver = false)
    (hf : g.stack.frames = .variantChoice :: below) (hseat : seat < g.players.length) :
    (g.moves.filter (·.1 == seat)).map (·.2.data)
      = Variant.all.map fun v => (Move.gameType v.index).data := by
  -- The seat comes up once among all seats, and only its own moves are kept.
  obtain ⟨before, after, hseats⟩ := List.append_of_mem (List.mem_range.2 hseat)
  have hnodup := List.nodup_range (n := g.players.length)
  rw [hseats, List.nodup_middle, List.nodup_cons, List.mem_append, not_or] at hnodup
  have hothers : ∀ seats : List Nat, seat ∉ seats → (seats.flatMap fun other =>
      (Variant.all.map fun v => (other, Move.gameType v.index)).filter (·.1 == seat)) = [] := by
    intro seats hnot
    refine List.flatMap_eq_nil_iff.2 fun other hother => List.filter_eq_nil_iff.2 ?_
    intro move hmove
    obtain ⟨v, -, rfl⟩ := List.mem_map.1 hmove
    rw [beq_iff_eq]
    rintro rfl
    exact hnot hother
  have hown : (Variant.all.map fun v => (seat, Move.gameType v.index)).filter (·.1 == seat)
      = Variant.all.map fun v => (seat, Move.gameType v.index) := by
    refine List.filter_eq_self.2 fun move hmove => ?_
    obtain ⟨v, -, rfl⟩ := List.mem_map.1 hmove
    exact beq_self_eq_true seat
  rw [moves_eq hover hf, movesFor, seats, hseats, List.filter_flatMap, List.flatMap_append,
    List.flatMap_cons, hothers before hnodup.1.1, hothers after hnodup.1.2, hown, List.nil_append,
    List.append_nil, List.map_map]
  rfl

/-- What is offered outside claims is what is waited for. In a reachable game that is not over,
whoever has to decide alone finds the data of all moves, in order, under the last message with
buttons, and nobody else is waited for; while the variant is open, the question for it has the data
of everybody's moves; and at the beginning of a turn the buttons under the last status have the
commands of the current player's moves, and no other. -/
theorem Reachable.buttons_offer_moves (h : Reachable g) (hover : g.isOver = false)
    (hf : g.stack.frames = f :: below) :
    (∀ seat, f.decider? = some seat →
      (∃ m, g.venue.outbox.find? (fun m => m.recipient == .player seat && !m.buttons.isEmpty)
          = some m ∧ m.buttons.map (·.data) = g.moves.map (·.2.data)) ∧
        ∀ move ∈ g.moves, move.1 = seat) ∧
    (f = .variantChoice → ∃ m, g.venue.lastBroadcast? = some m ∧ m.text = Wording.askVariant ∧
      ∀ seat < g.players.length,
        m.buttons.map (·.data) = (g.moves.filter (·.1 == seat)).map (·.2.data)) ∧
    (f = .turn → ∃ later before, g.venue.outbox = later ++ g.status :: before ∧ g.Remarks later ∧
      ∀ command, command ∈ g.status.buttons.map (·.data) ↔
        command ∈ g.turnMoves.map (·.command)) := by
  have hrest := h.atRest
  -- The current player has somebody to aim at, since the game is not finished.
  have htargets : g.stack.frames = [.turn] → g.targets ≠ [] := by
    intro hf
    obtain ⟨target, htarget⟩ := exists_isTarget (hrest.variant_ne_none hf nofun)
      ((h.isFinished_eq hf).trans hover) (hrest.awake hf)
    exact List.ne_nil_of_mem (mem_targets.2 htarget)
  have hmoves := moves_eq hover hf
  refine ⟨fun seat hseat => ⟨?_, ?_⟩, ?_, ?_⟩
  · -- Whom the frame asks was asked last, with the moves for buttons.
    have hne := hrest.moves_ne_nil hover htargets
    rw [hmoves] at hne ⊢
    exact (h.asked.alone f below seat hf hseat).find? hne
  · rw [hmoves]
    exact fun move => seat_of_mem_movesFor hseat
  · rintro rfl
    obtain ⟨g₀, hout⟩ := h.asked.variant below hf
    refine ⟨⟨.everyone, Wording.askVariant, _⟩, by rw [Venue.lastBroadcast?, hout]; rfl, rfl,
      fun seat hseat => ?_⟩
    rw [moves_of_variantChoice hover hf hseat]
    rfl
  · -- At a turn the status stands before any remarks, and its commands are those of the moves.
    rintro rfl
    obtain ⟨later, before, hout, hremarks⟩ := h.asked.turn below hf
    have hf : g.stack.frames = [.turn] := by
      cases hrest.shape_of hf with
      | turn => exact hf
    have hgoes : g.isFinished = false := (h.isFinished_eq hf).trans hover
    refine ⟨later, before, hout, hremarks, ?_⟩
    rw [status, hgoes, if_neg Bool.false_ne_true]
    exact standFor_turnButtons (htargets hf) (hrest.awake hf)

/-- Ada exchanges cards, and is asked with a button for each of the four on offer. -/
theorem buttons_offer_moves_exchange : ∃ g m,
    playOut ["Ada", "Bob", "Cid"]
        { seed := some 0, startPlayer := some 0, variant := some .classic }
        [.press 0 "exchange", .press 1 "accept", .press 2 "accept"] = some g ∧
      g.venue.outbox.find? (fun m => m.recipient == .player 0 && !m.buttons.isEmpty) = some m ∧
      m.buttons.map (·.data) = ["keep:0", "keep:1", "keep:2", "keep:3"] := by
  have hrun : (playOut ["Ada", "Bob", "Cid"]
      { seed := some 0, startPlayer := some 0, variant := some .classic }
      [.press 0 "exchange", .press 1 "accept", .press 2 "accept"]).map (fun g =>
        (g.isOver, g.stack.top?.bind (·.decider?), g.moves.map (·.2.data)))
      = some (false, some 0, ["keep:0", "keep:1", "keep:2", "keep:3"]) := by
    decide +kernel
  obtain ⟨g, hg, hrun⟩ := Option.map_eq_some_iff.1 hrun
  simp only [Prod.mk.injEq] at hrun
  obtain ⟨hover, hseat, hmoves⟩ := hrun
  obtain ⟨f, htop, hseat⟩ := Option.bind_eq_some_iff.1 hseat
  obtain ⟨below, hf⟩ := List.head?_eq_some_iff.1 htop
  obtain ⟨hasked, -⟩ := (reachable_of_playOut hg).buttons_offer_moves hover hf
  obtain ⟨⟨m, hm, hdata⟩, -⟩ := hasked 0 hseat
  exact ⟨g, m, hg, hm, hdata.trans hmoves⟩

end Game

end CoupTable
