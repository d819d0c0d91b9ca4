import CoupTable.Proofs.Continuing
import CoupTable.Proofs.Events
import CoupTable.Proofs.Exposure

/-!
# Hidden cards stay hidden

Two games that differ only in what one player hides stay alike to the others, as long as that player
shows no card (`AtRest.hidden_cards_unseen`). A press is taken in by the frame on top, and frames
then go on by themselves: each call either keeps the veil (`veil_idle`) or, where cards of the
player go back to the deck unseen, puts both games back to the turn with different draw piles
(`Indistinct`). No draw follows in the same settlement, since a game at the turn settles as soon as
the turn has passed on (`settle_of_turn`); so what is left of the input does not bring the
difference to light.
-/

namespace CoupTable.Game

variable {q seat : Nat} {g g' x x' : Game} {m : Move} {i : Input} {e e' : Exchange}
  {below : List Frame}

/-! ## Results that look the same -/

/-- Results that look the same are the same fault, or games that do. -/
theorem cases_of_veil {result result' : Except Fault Game} (h : veil q result = veil q result') :
    (∃ cause, result = .error cause ∧ result' = .error cause) ∨
      ∃ x x', result = .ok x ∧ result' = .ok x' ∧ x.veiled q = x'.veiled q := by
  cases result with
  | error cause =>
    cases result' with
    | error cause' =>
      cases h
      exact .inl ⟨cause, rfl, rfl⟩
    | ok x' => cases h
  | ok x =>
    cases result' with
    | error cause' => cases h
    | ok x' => exact .inr ⟨x, x', rfl, rfl, Except.ok.inj h⟩

/-! ## Presses -/

/-- Two games are back at the turn, and differ for others in the draw pile at most. -/
structure Swapped (q : Nat) (g g' : Game) : Prop where
  /-- The turn is on top in one. -/
  frames : g.stack.frames = [.turn]
  /-- And in the other. -/
  frames' : g'.stack.frames = [.turn]
  /-- They look the same. -/
  look : g.outside q = g'.outside q

/-- Both games come to what looks the same, or both are back at the turn and do so but for the draw
pile. -/
def Indistinct (q : Nat) (result result' : Except Fault Game) : Prop :=
  veil q result = veil q result' ∨ ∃ x x', result = .ok x ∧ result' = .ok x' ∧ Swapped q x x'

/-- A card that the hidden player keeps is seen by nobody else. -/
theorem kept_veiled (hq : e.player = q) (he : e.veiled q = e'.veiled q) (c c' : Character)
    {index : Nat} (hindex : index < e.offered.length) :
    Exchange.veiled q { e with
        hand := e.hand ++ [⟨c, false⟩], offered := e.offered.eraseIdx index }
      = Exchange.veiled q { e' with
        hand := e'.hand ++ [⟨c', false⟩], offered := e'.offered.eraseIdx index } := by
  have hplayer : e'.player = q := (Exchange.player_eq_of_veiled he).trans hq
  have hoffered := Exchange.length_offered_eq_of_veiled he
  have hhand : e.hand.map (·.veiled) = e'.hand.map (·.veiled) := by
    have hveiled := congrArg Exchange.hand he
    simpa only [Exchange.veiled, hq, hplayer, if_true] using hveiled
  simp only [Exchange.veiled, hq, hplayer, if_true, List.map_append, hhand, List.map_const',
    List.length_eraseIdx_of_lt hindex, List.length_eraseIdx_of_lt (hoffered ▸ hindex), hoffered]
  rfl

/-- An exchange of the hidden player ends with cards that look the same, in games that do. -/
theorem endExchange_swapped (h : g.Sound) (hsame : g.veiled q = g'.veiled q)
    (hf : g.stack.frames = [.exchange e, .turn]) (hf' : g'.stack.frames = [.exchange e', .turn])
    (hq : e.player = q) (hq' : e'.player = q) {d d' : Exchange} (hd : d.player = q)
    (hd' : d'.player = q) (hhand : d.hand.map (·.veiled) = d'.hand.map (·.veiled)) :
    ∃ x x', g.endExchange d = .ok x ∧ g'.endExchange d' = .ok x' ∧ Swapped q x x' := by
  obtain ⟨p, hp⟩ : ∃ p, g.players[q]? = some p := by
    cases h.shape_of hf with
    | exchange hplayer =>
      rw [← hq, hplayer]
      exact h.exists_current
  obtain ⟨p', hp'⟩ := exists_player_of_veiled hsame hp
  obtain ⟨x, hx, hframes, hlook⟩ := endExchange_outside d hf (hd.trans hq.symm) hq hp
  obtain ⟨x', hx', hframes', hlook'⟩ := endExchange_outside d' hf' (hd'.trans hq'.symm) hq' hp'
  have hplayers : (g.players.set q { p with cards := d.hand }).modify q (·.veiled)
      = (g'.players.set q { p' with cards := d'.hand }).modify q (·.veiled) := by
    have hplayer : ({ p with cards := d.hand } : Player).veiled
        = ({ p' with cards := d'.hand } : Player).veiled := by
      calc ({ p.veiled with cards := d.hand.map (·.veiled) } : Player)
        _ = { p'.veiled with cards := d'.hand.map (·.veiled) } := by
          rw [player_veiled_eq hsame hp hp', hhand]
    exact modify_set_veiled (congrArg (·.players) hsame) (fun _ => hplayer)
      fun hne => absurd rfl hne
  refine ⟨x, x', hx, hx', hframes, hframes', ?_⟩
  let ending (g : Game) (players : List Player) : Game := { g with
    rng := ⟨0, 0⟩, players, deck := {}, stack := ⟨[.turn]⟩, stirred := true }
  calc x.outside q
      = ending (g.veiled q) ((g.players.set q { p with cards := d.hand }).modify q (·.veiled)) :=
        hlook
    _ = ending (g'.veiled q)
        ((g'.players.set q { p' with cards := d'.hand }).modify q (·.veiled)) := by
      rw [hplayers, hsame]
    _ = x'.outside q := hlook'.symm

/-- What the hidden player presses during an exchange looks the same to others. -/
theorem exchangeInput_indistinct (h : g.Sound) (hsame : g.veiled q = g'.veiled q)
    (hf : g.stack.frames = [.exchange e, .turn]) (hf' : g'.stack.frames = [.exchange e', .turn])
    (hq : e.player = q) (he : e.veiled q = e'.veiled q) :
    Indistinct q (g.exchangeInput e seat m) (g'.exchangeInput e' seat m) := by
  have hstay : veil q (.ok g) = veil q (.ok g') := congrArg Except.ok hsame
  have hq' : e'.player = q := (Exchange.player_eq_of_veiled he).trans hq
  have hoffered := Exchange.length_offered_eq_of_veiled he
  cases m with
  | keep index =>
    unfold exchangeInput
    dsimp only
    by_cases hindex : index < e.offered.length
    · have hindex' : index < e'.offered.length := hoffered ▸ hindex
      rw [List.getElem?_eq_getElem hindex, List.getElem?_eq_getElem hindex']
      dsimp only
      by_cases hseat : seat = q
      · -- Both hands get as long, so that both exchanges go on, or both end.
        rw [if_pos (hseat.trans hq.symm), if_pos (hseat.trans hq'.symm)]
        have hkept := kept_veiled hq he e.offered[index] e'.offered[index] hindex
        have hhand := congrArg Exchange.hand hkept
        simp only [Exchange.veiled, hq, hq', if_true] at hhand
        have hlength := congrArg List.length hhand
        simp only [List.length_map] at hlength
        rw [hlength]
        split
        · have htop : (g.setTop (.exchange _)).veiled q = (g'.setTop (.exchange _)).veiled q :=
            setTop_veiled hsame (congrArg Frame.exchange hkept)
          exact .inl (congrArg (fun x : Game => Except.ok x.stir) htop)
        · exact .inr (endExchange_swapped h hsame hf hf' hq hq' hq hq' hhand)
      · rw [if_neg fun hown => hseat (hown.trans hq), if_neg fun hown => hseat (hown.trans hq')]
        exact .inl hstay
    · rw [List.getElem?_eq_none (Nat.not_lt.1 hindex),
        List.getElem?_eq_none (hoffered ▸ Nat.not_lt.1 hindex)]
      exact .inl hstay
  | _ => exact .inl hstay

/-- The decision about a card of the hidden player looks the same to others. -/
theorem interrogationInput_indistinct {i : Interrogation} (h : g.Sound)
    (hsame : g.veiled q = g'.veiled q) (hf : g.stack.frames = .interrogation i :: below)
    (hf' : g'.stack.frames = .interrogation i :: below) (hq : i.target = q) :
    Indistinct q (g.interrogationInput i seat m) (g'.interrogationInput i seat m) := by
  obtain ⟨inquisitor, p, hinquisitor, hp, hlives⟩ := h.of_interrogation hf
  obtain ⟨inquisitor', hinquisitor'⟩ := exists_player_of_veiled hsame hinquisitor
  obtain ⟨p', hp'⟩ := exists_player_of_veiled hsame hp
  have hstay : veil q (.ok g) = veil q (.ok g') := congrArg Except.ok hsame
  unfold interrogationInput
  split
  next slot hshown =>
    split
    · exact .inl (discreet_showInput i g g' hsame)
    · exact .inl hstay
  next allowed slot hshown =>
    split
    · cases allowed with
      | true => exact .inl (discreet_letKeep i g g' hsame)
      | false =>
        have hslot := hlives slot hshown
        have hslot' : p'.hasLiving slot = true := by
          subst hq
          rw [← eq_of_veiled (·.hasLiving slot) (·.hasLiving_veiled slot)
            (player_veiled_eq hsame hp hp')]
          exact hslot
        obtain ⟨x, hx, hframes, hlook⟩ := makeChange_outside hf hinquisitor hp hslot hq
        obtain ⟨x', hx', hframes', hlook'⟩ := makeChange_outside hf' hinquisitor' hp' hslot' hq
        cases h.shape_of hf
        -- Both say that a card was changed, and go back to the turn.
        let change (g : Game) : Game := { g.note (Wording.madeChange (g.nameOf i.inquisitor)
          (g.nameOf i.target)) with stack := ⟨[.turn]⟩, stirred := true }
        have hchange : ∀ g, outside q (change g) = outside q (change (g.veiled q)) := by
          intro g
          have hveiled : (change g).veiled q = change (g.veiled q) := by
            simp only [change, nameOf_veiled]
            rfl
          unfold outside
          rw [← hveiled, veiled_veiled]
        refine .inr ⟨x, x', hx, hx', hframes, hframes', ?_⟩
        calc x.outside q = outside q (change g) := hlook
          _ = outside q (change (g.veiled q)) := hchange g
          _ = outside q (change (g'.veiled q)) := by rw [hsame]
          _ = outside q (change g') := (hchange g').symm
          _ = x'.outside q := hlook'.symm
    · exact .inl hstay
  next => exact .inl hstay

/-- A press by which no card is shown looks the same in games that look the same. -/
theorem dispatch_indistinct (h : g.Sound) (hsame : g.veiled q = g'.veiled q)
    (hhides : Hides q g (.press seat m) (g.dispatch seat m))
    (hhides' : Hides q g' (.press seat m) (g'.dispatch seat m)) :
    Indistinct q (g.dispatch seat m) (g'.dispatch seat m) := by
  unfold dispatch Stack.top? at *
  -- The frames are the same, or they are exchanges that differ in their cards. What another player
  -- answers is discreet, and only the player's own answers have to be looked at.
  rcases h.frames_cases hsame with ⟨hframes, hnone⟩ | ⟨e, e', hf, hf', he⟩
  · rw [hframes] at hhides' ⊢
    cases hf : g.stack.frames with
    | nil => exact .inl (congrArg Except.ok hsame)
    | cons f below =>
      rw [hf] at hhides hhides' hnone hframes
      cases f with
      | turn => exact .inl (discreet_turnInput seat m g g' hsame)
      | variantChoice => exact .inl (discreet_variantInput m g g' hsame)
      | claim c => exact .inl (discreet_claimInput c seat m g g' hsame)
      | loss loser =>
        by_cases hq : loser = q
        · subst hq
          exact .inl (veil_lossInput h hf hsame hhides)
        · exact .inl (discreet_lossInput hq m g g' hsame)
      | reveal r =>
        by_cases hq : r.challenged = q
        · exact .inl (veil_revealInput h hf hframes hsame hq hhides hhides')
        · exact .inl (discreet_revealInput hq m g g' hsame)
      | exchange e => exact absurd List.mem_cons_self (hnone e)
      | interrogation i =>
        by_cases hq : i.target = q
        · exact interrogationInput_indistinct h hsame hf hframes hq
        · exact .inl (discreet_interrogationInput hq m g g' hsame)
  · rw [hf, hf']
    by_cases hq : e.player = q
    · exact exchangeInput_indistinct h hsame hf hf' hq he
    · rw [← Exchange.eq_of_veiled he hq]
      exact .inl (discreet_exchangeInput hq m g g' hsame)

/-! ## Frames that go on -/

/-- What is asked in an exchange looks the same. -/
theorem veil_exchangeIdle (hsame : g.veiled q = g'.veiled q) (he : e.veiled q = e'.veiled q) :
    veil q (.ok (g.exchangeIdle e)) = veil q (.ok (g'.exchangeIdle e')) := by
  by_cases hq : e.player = q
  · have hq' : e'.player = q := (Exchange.player_eq_of_veiled he).trans hq
    subst hq
    calc veil e.player (.ok (g.exchangeIdle e))
      _ = .ok (g.veiled e.player) := veil_tell_self _ _ _
      _ = .ok (g'.veiled e.player) := congrArg Except.ok hsame
      _ = veil e.player (.ok (g'.exchangeIdle e')) := by
        rw [← hq']
        exact (veil_tell_self _ _ _).symm
  · rw [← Exchange.eq_of_veiled he hq]
    exact discreet_exchangeIdle e g g' hsame

/-- A frame that goes on without a card being shown looks the same in games that look the same. -/
theorem veil_idle (h : g.Sound) (hsame : g.veiled q = g'.veiled q)
    (hhides : Hides q g .idle g.idle) : veil q g.idle = veil q g'.idle := by
  unfold idle Stack.top? at *
  rcases h.frames_cases hsame with ⟨hframes, hnone⟩ | ⟨e, e', hf, hf', he⟩
  · rw [hframes]
    cases hf : g.stack.frames with
    | nil => exact congrArg Except.ok hsame
    | cons f below =>
      rw [hf] at hhides hnone
      cases f with
      | turn => exact discreet_nextTurn g g' hsame
      | variantChoice => exact congrArg Except.ok hsame
      | claim c => exact discreet_claimIdle c g g' hsame
      | exchange e => exact absurd List.mem_cons_self (hnone e)
      | loss loser =>
        by_cases hq : loser = q
        · subst hq
          exact veil_lossIdle h hf hsame hhides
        · exact discreet_lossIdle hq g g' hsame
      | reveal r =>
        by_cases hq : r.challenged = q
        · exact veil_revealIdle h hf hsame hq hhides
        · exact discreet_revealIdle hq g g' hsame
      | interrogation i =>
        by_cases hq : i.target = q
        · exact veil_interrogationIdle h hf hsame hq hhides
        · exact discreet_interrogationIdle hq g g' hsame
  · rw [hf, hf']
    exact veil_exchangeIdle hsame he

/-- Frames that go on by themselves without a card being shown look the same in games that look the
same. -/
theorem veil_settleIn (fuel : Nat) (h : g.Sound) (hsame : g.veiled q = g'.veiled q)
    (hhides : ∀ k ∈ settleInCalls fuel g, k.exposes q = false) :
    veil q (settleIn fuel g) = veil q (settleIn fuel g') := by
  induction fuel generalizing g g' with
  | zero => exact congrArg Except.ok hsame
  | succ fuel ih =>
    have hstirred : g'.stirred = g.stirred := congrArg (·.stirred) hsame.symm
    unfold settleInCalls at hhides
    unfold settleIn
    rw [hstirred]
    cases hg : g.stirred with
    | false => exact congrArg Except.ok hsame
    | true =>
      rw [hg, if_pos rfl] at hhides
      rw [if_pos rfl, if_pos rfl]
      have hhush : veiled q { g with stirred := false } = veiled q { g' with stirred := false } :=
        congrArg (fun g : Game => { g with stirred := false }) hsame
      have hidle : Hides q { g with stirred := false } .idle
          (idle { g with stirred := false }) := by
        intro x hx
        rw [hx] at hhides
        exact hhides _ List.mem_cons_self
      rcases cases_of_veil (veil_idle h.hush hhush hidle) with
        ⟨cause, hx, hx'⟩ | ⟨x, x', hx, hx', hlook⟩
      · rw [hx, hx']
      · rw [hx] at hhides ⊢
        rw [hx']
        obtain ⟨-, hsound⟩ := h.idled hg hx
        exact ih hsound hlook fun k hk => hhides k (List.mem_cons_of_mem _ hk)

/-- Games that look the same settle in games that do, if no card is shown. -/
theorem veil_settle (h : g.Sound) (hsame : g.veiled q = g'.veiled q)
    (hhides : ∀ k ∈ g.settleCalls, k.exposes q = false) : veil q g.settle = veil q g'.settle := by
  have hdepth : g'.stack.depth = g.stack.depth :=
    read_eq_of_veiled (r := (·.stack.depth)) (depth_veiled q) hsame.symm
  unfold settle
  rw [hdepth]
  exact veil_settleIn _ h hsame hhides

/-- Where no call shows a card the first one does not. -/
theorem hides_of_callsFrom {cause : Cause} {result : Except Fault Game}
    (h : ∀ k ∈ g.callsFrom cause result, k.exposes q = false) : Hides q g cause result := by
  rintro x rfl
  exact h _ List.mem_cons_self

/-- A call and the frames that go on after it look the same if the call does. -/
theorem veil_callsFrom {cause : Cause} {result result' : Except Fault Game}
    (hlook : veil q result = veil q result') (hsound : ∀ x, result = .ok x → x.Sound)
    (hhides : ∀ k ∈ g.callsFrom cause result, k.exposes q = false) :
    veil q (result >>= settle) = veil q (result' >>= settle) := by
  rcases cases_of_veil hlook with ⟨cause, rfl, rfl⟩ | ⟨x, x', rfl, rfl, hsame⟩
  · rfl
  · exact veil_settle (hsound x rfl) hsame fun k hk => hhides k (List.mem_cons_of_mem _ hk)

/-! ## The turn after cards were changed -/

/-- What comes of a step as it looks to others, but for the draw pile. -/
def gist (q : Nat) (result : Except Fault Game) : Except Fault Game := (·.outside q) <$> result

/-- What looks the same does so but for the draw pile. -/
theorem gist_of_veil {result result' : Except Fault Game} (h : veil q result = veil q result') :
    gist q result = gist q result' := by
  rcases cases_of_veil h with ⟨cause, rfl, rfl⟩ | ⟨x, x', rfl, rfl, hsame⟩
  · rfl
  · exact congrArg (fun g : Game => Except.ok { g with rng := ⟨0, 0⟩, deck := {} }) hsame

/-- The turn passes on whatever there is to be drawn. -/
theorem nextTurn_of_pile (g : Game) (rng : Pcg) (deck : Deck) :
    nextTurn { g with rng, deck } = (fun x => { x with rng, deck }) <$> g.nextTurn := by
  have hconclude : ∀ x : Game, conclude { x with rng, deck }
      = (fun x => { x with rng, deck }) <$> x.conclude := by
    intro x
    change (if x.isFinished && !x.isOver then _ else _) = _ <$> (if _ then _ else _)
    split
    · change (x.venue.arm 0 >>= _) = _ <$> (x.venue.arm 0 >>= _)
      cases x.venue.arm 0 <;> rfl
    · rfl
  let y : Game := { g with current := g.nextSeat }
  exact hconclude (y.broadcast y.statusText (if y.isFinished then [] else y.turnButtons))

/-- The turn that passes on looks the same but for the draw pile. -/
theorem gist_nextTurn (hlook : g.outside q = g'.outside q) :
    gist q g.nextTurn = gist q g'.nextTurn := by
  have hsame : veiled q { g with rng := g'.rng, deck := g'.deck } = g'.veiled q :=
    congrArg (fun x : Game => { x with rng := g'.rng, deck := g'.deck }) hlook
  have hnext := gist_of_veil (discreet_nextTurn _ _ hsame)
  rw [nextTurn_of_pile] at hnext
  refine Eq.trans ?_ hnext
  cases g.nextTurn <;> rfl

/-- Nothing stirs when the turn has passed on. -/
theorem stirred_of_nextTurn (h : g.nextTurn = .ok x) : x.stirred = g.stirred := by
  obtain ⟨text, buttons, hnext⟩ := g.nextTurn_eq
  rw [hnext] at h
  unfold conclude at h
  split at h
  · obtain ⟨armed, -, hx⟩ := exists_ok_of_bind h
    cases hx
    rfl
  · cases h
    rfl

/-- A game that is back at the turn settles as soon as the turn has passed on. -/
theorem settle_of_turn (hf : g.stack.frames = [.turn]) :
    g.settle = if g.stirred then nextTurn { g with stirred := false } else .ok g := by
  have hfuel : g.settle = settleIn 3 g := by
    unfold settle Stack.depth
    rw [hf]
    rfl
  have hidle : idle { g with stirred := false } = nextTurn { g with stirred := false } := by
    unfold idle Stack.top?
    rw [hf]
    rfl
  rw [hfuel]
  cases hstirred : g.stirred with
  | false => exact settleIn_of_still hstirred 3
  | true =>
    unfold settleIn
    rw [hstirred, if_pos rfl, if_pos rfl, hidle]
    cases hnext : nextTurn { g with stirred := false } with
    | error cause => rfl
    | ok x => exact settleIn_of_still (stirred_of_nextTurn hnext) 2

/-- Games that are back at the turn after cards were changed settle in games that look the same but
for the draw pile. -/
theorem gist_settle (h : Swapped q g g') : gist q g.settle = gist q g'.settle := by
  have hstirred : g.stirred = g'.stirred := congrArg (·.stirred) h.look
  rw [settle_of_turn h.frames, settle_of_turn h.frames', hstirred]
  split
  · exact gist_nextTurn (congrArg (fun x : Game => { x with stirred := false }) h.look)
  · exact congrArg Except.ok h.look

/-! ## Inputs -/

/-- What comes of a press is sound. -/
theorem AtRest.sound_of_dispatch (h : g.AtRest) (hover : g.isOver = false)
    (hx : g.dispatch seat m = .ok x) : x.Sound := by
  obtain ⟨y, hy, hstep⟩ := dispatch_yields h seat m
  cases hx.symm.trans hy
  rcases hstep with ⟨rfl, -⟩ | hstep
  · exact h.toSound
  · exact hstep.sound h.toSound h.still hover

/-- A press by which no card is shown looks the same in games that look the same, but for the draw
pile. -/
theorem gist_press {data : String} (h : g.AtRest) (hsame : g.veiled q = g'.veiled q)
    (hhides : ∀ k ∈ g.pressCalls seat data, k.exposes q = false)
    (hhides' : ∀ k ∈ g'.pressCalls seat data, k.exposes q = false) :
    gist q (g.press seat data) = gist q (g'.press seat data) := by
  have hstay : gist q (.ok g) = gist q (.ok g') := gist_of_veil (congrArg Except.ok hsame)
  have hlength : g'.players.length = g.players.length :=
    read_eq_of_veiled (r := (·.players.length)) (length_players_veiled q) hsame.symm
  have hover : g'.isOver = g.isOver := congrArg (·.isOver) hsame.symm
  unfold pressCalls at hhides hhides'
  unfold press
  rw [hlength, hover] at hhides' ⊢
  by_cases hopen : (decide (seat < g.players.length) && !g.isOver) = true
  · rw [if_pos hopen] at hhides hhides' ⊢
    rw [if_pos hopen]
    simp only [Bool.and_eq_true, Bool.not_eq_true'] at hopen
    cases hparse : Move.parse? data with
    | none => exact hstay
    | some m =>
      rw [hparse] at hhides hhides'
      rcases dispatch_indistinct h.toSound hsame (hides_of_callsFrom hhides)
        (hides_of_callsFrom hhides') with hlook | ⟨x, x', hx, hx', hswapped⟩
      · exact gist_of_veil
          (veil_callsFrom hlook (fun x => h.sound_of_dispatch hopen.2) hhides)
      · simp only [hx, hx', ok_bind]
        exact gist_settle hswapped
  · rw [if_neg hopen, if_neg hopen]
    exact hstay

/-- What comes of an alarm is sound. -/
theorem AtRest.sound_of_timeOut {c : Claim} {id : AlarmId} (h : g.AtRest)
    (htop : g.stack.top? = some (.claim c)) (hid : c.alarm = some id)
    (hx : (g.setTop (.claim { c with alarm := none })).resolve { c with alarm := none } = .ok x) :
    x.Sound := by
  obtain ⟨below, hf⟩ : ∃ below, g.stack.frames = .claim c :: below :=
    ⟨_, (List.head?_eq_some_iff.1 htop).choose_spec⟩
  obtain ⟨y, hy, hgrant⟩ := h.resolve_eq hf { c with alarm := none } rfl rfl
  cases hx.symm.trans hy
  have hstep : Step g (.alarm id) x := .timeOut hf hid hgrant
  exact hstep.sound h.toSound h.still (h.isOver_eq_false hf nofun)

/-- An alarm by which no card is shown looks the same in games that look the same. -/
theorem veil_expire {id : AlarmId} (h : g.AtRest) (hsame : g.veiled q = g'.veiled q)
    (hhides : ∀ k ∈ g.expireCalls id, k.exposes q = false) :
    veil q (g.expire id) = veil q (g'.expire id) := by
  have hstay : veil q (.ok g) = veil q (.ok g') := congrArg Except.ok hsame
  have halarm : g'.overAlarm = g.overAlarm := congrArg (·.overAlarm) hsame.symm
  unfold expireCalls at hhides
  unfold expire
  rw [halarm]
  by_cases hover : g.overAlarm = some id
  · rw [if_pos hover, if_pos hover]
    exact congrArg (fun g : Game => Except.ok
      { g with overAlarm := none, venue := g.venue.reportOver }) hsame
  · rw [if_neg hover] at hhides
    rw [if_neg hover, if_neg hover]
    -- The veil hides nothing of a frame on top but the cards of an exchange, which has no alarm.
    rcases top?_eq_or hsame with htop | ⟨e, e', he, he', -, -⟩
    · rw [← htop]
      cases hf : g.stack.top? with
      | none => exact hstay
      | some f =>
        cases f with
        | claim c =>
          rw [hf] at hhides
          dsimp only at hhides ⊢
          by_cases hid : c.alarm = some id
          · rw [if_pos hid] at hhides
            rw [if_pos hid, if_pos hid]
            have hresolve : Discreet q fun g =>
                (g.setTop (.claim { c with alarm := none })).resolve { c with alarm := none } :=
              (discreet_resolve _).onTop _
            exact veil_callsFrom (hresolve g g' hsame) (fun x => h.sound_of_timeOut hf hid) hhides
          · rw [if_neg hid, if_neg hid]
            exact hstay
        | _ => exact hstay
    · rw [he, he']
      exact hstay

/-- Alarms by which no card is shown look the same in games that look the same. -/
theorem veil_expireAll {due : List AlarmId} (h : g.AtRest) (hsame : g.veiled q = g'.veiled q)
    (hhides : ∀ k ∈ g.expireAllCalls due, k.exposes q = false) :
    veil q (due.foldlM (fun g id => g.expire id) g)
      = veil q (due.foldlM (fun g id => g.expire id) g') := by
  induction due generalizing g g' with
  | nil => exact congrArg Except.ok hsame
  | cons id due ih =>
    rw [expireAllCalls] at hhides
    obtain ⟨hfirst, hrest⟩ := List.forall_mem_append.1 hhides
    rw [List.foldlM_cons, List.foldlM_cons]
    rcases cases_of_veil (veil_expire h hsame hfirst) with
      ⟨cause, hx, hx'⟩ | ⟨x, x', hx, hx', hlook⟩
    · rw [hx, hx']
    · rw [hx] at hrest ⊢
      rw [hx']
      exact ih (h.feed (i := .expire id) hx) hlook hrest

/-- Time in which no card is shown passes the same in games that look the same. -/
theorem veil_advanceIn {fuel time : Nat} (h : g.AtRest) (hsame : g.veiled q = g'.veiled q)
    (hhides : ∀ k ∈ advanceInCalls fuel time g, k.exposes q = false) :
    veil q (advanceIn fuel time g) = veil q (advanceIn fuel time g') := by
  induction fuel generalizing g g' time with
  | zero => exact congrArg Except.ok hsame
  | succ fuel ih =>
    -- The clocks are the same, and so the same alarms are due, or both clocks end.
    have hclock : g'.venue.alarms = g.venue.alarms := congrArg (·.venue.alarms) hsame.symm
    unfold advanceInCalls Venue.advance at hhides
    unfold advanceIn Venue.advance
    rw [hclock]
    cases hdue : g.venue.alarms.advance time with
    | error cause => rfl
    | ok due =>
      rw [hdue] at hhides
      simp only [ok_bind, pure_eq_ok] at hhides ⊢
      have hlater : veiled q { g with venue := { g.venue with alarms := due.2 } }
          = veiled q { g' with venue := { g'.venue with alarms := due.2 } } :=
        congrArg (fun g : Game => { g with venue := { g.venue with alarms := due.2 } }) hsame
      by_cases hnone : due.1.isEmpty = true
      · rw [if_pos hnone, if_pos hnone]
        exact congrArg Except.ok hlater
      · rw [if_neg hnone] at hhides
        rw [if_neg hnone, if_neg hnone]
        obtain ⟨hfirst, hrest⟩ := List.forall_mem_append.1 hhides
        have hg := h.of_venue { g.venue with alarms := due.2 }
        rcases cases_of_veil (veil_expireAll hg hlater hfirst) with
          ⟨cause, hx, hx'⟩ | ⟨x, x', hx, hx', hlook⟩
        · rw [hx, hx']
        · rw [hx] at hrest ⊢
          rw [hx']
          exact ih (expireAll_chain (P := fun _ => True) hg hx).2 hlook hrest

/-- An input by which no card is shown looks the same in games that look the same, but for the draw
pile. -/
theorem gist_feed (h : g.AtRest) (hsame : g.veiled q = g'.veiled q)
    (hhides : ∀ k ∈ g.feedCalls i, k.exposes q = false)
    (hhides' : ∀ k ∈ g'.feedCalls i, k.exposes q = false) :
    gist q (g.feed i) = gist q (g'.feed i) := by
  cases i with
  | press seat data => exact gist_press h hsame hhides hhides'
  | expire id => exact gist_of_veil (veil_expire h hsame hhides)
  | advance time =>
    have hdepth : g'.stack.depth = g.stack.depth :=
      read_eq_of_veiled (r := (·.stack.depth)) (depth_veiled q) hsame.symm
    have hpasses := veil_advanceIn h hsame hhides
    unfold feed advance
    rw [hdepth]
    exact gist_of_veil hpasses

/-! ## Messages -/

/-- What was sent, and then sent, was sent. -/
theorem Tells.trans {y : Game} (h : g.Tells x) (h' : x.Tells y) : g.Tells y := by
  obtain ⟨ms, hout⟩ := h
  obtain ⟨ms', hout'⟩ := h'
  exact ⟨ms' ++ ms, by rw [hout', hout, List.append_assoc]⟩

/-- A game that settles takes no message back. -/
theorem Settles.tells (hsettles : Settles g x) (h : g.Sound) : g.Tells x := by
  induction hsettles with
  | rest => exact ⟨[], rfl⟩
  | @go g g₁ _ hstirred hidle _ ih =>
    obtain ⟨hidled, hsound⟩ := h.idled hstirred hidle
    have hcall : g.Tells g₁ := Step.tells (g := { g with stirred := false }) h.hush hidled.step
    exact hcall.trans (ih hsound)

/-- No input takes a message back. -/
theorem AtRest.tells_of_feed (h : g.AtRest) (hfeed : g.feed i = .ok x) : g.Tells x := by
  refine h.feed_induction (P := fun x => g.Tells x) (fun y z hy htells hevent => ?_) ⟨[], rfl⟩ hfeed
  refine htells.trans ?_
  cases hevent with
  | clock hdue =>
    obtain ⟨a, rfl, -⟩ := Venue.eq_of_advance hdue
    exact ⟨[], rfl⟩
  | report => exact ⟨[], rfl⟩
  | step hstep _ _ hsound hsettles => exact (hstep.tells hy.toSound).trans (hsettles.tells hsound)

/-! ## The result -/

/-- What was sent to the table and to everybody but one player, the oldest message first. -/
def overheard (q : Nat) (g : Game) : List Message :=
  g.venue.messages.filter (·.recipient != .player q)

/-- What was sent to the others is there under the veil. -/
theorem overheard_eq (q : Nat) (g : Game) : g.overheard q = (g.veiled q).venue.outbox.reverse :=
  List.filter_reverse

/-- Nobody but one player could tell what led from one game to another from what led from a second
one to a third. -/
structure LooksAlike (q : Nat) (g x g' x' : Game) : Prop where
  /-- The same messages were sent to the table and to the others, in the same order. -/
  sent : ∃ ms, x.overheard q = g.overheard q ++ ms ∧ x'.overheard q = g'.overheard q ++ ms
  /-- Everybody has the same coins. -/
  coins : ∀ seat, x.coinsOf seat = x'.coinsOf seat
  /-- The same coins are in the treasury. -/
  treasury : x.treasury = x'.treasury
  /-- It is the turn of the same player. -/
  current : x.current = x'.current
  /-- The same cards are dead, in the same slots. -/
  dead : x.players.map (fun p => p.cards.map (·.upturned))
    = x'.players.map fun p => p.cards.map (·.upturned)
  /-- The same frames are on the stack, but for the cards of an exchange. -/
  frames : x.stack.frames.map (·.veiled q) = x'.stack.frames.map (·.veiled q)
  /-- The same alarms are set. -/
  alarms : x.venue.alarms = x'.venue.alarms
  /-- The end is to be reported by the same alarm. -/
  overAlarm : x.overAlarm = x'.overAlarm

/-- Games that look the same but for the draw pile look alike in all that others get to know. -/
theorem looksAlike_of_outside (hsame : g.veiled q = g'.veiled q) (htells : g.Tells x)
    (hlook : x.outside q = x'.outside q) : LooksAlike q g x g' x' where
  sent := by
    -- What was sent meanwhile comes after what was sent before, which is the same in both games.
    obtain ⟨ms, hout⟩ := htells
    have hfirst : x.overheard q
        = g.overheard q ++ ms.reverse.filter (·.recipient != .player q) := by
      rw [overheard, Venue.messages, hout, List.reverse_append, List.filter_append]
      rfl
    have hbefore : g'.overheard q = g.overheard q := by
      rw [overheard_eq, overheard_eq, hsame]
    have hafter : x'.overheard q = x.overheard q := by
      rw [overheard_eq, overheard_eq]
      exact congrArg (·.venue.outbox.reverse) hlook.symm
    refine ⟨_, hfirst, ?_⟩
    rw [hafter, hbefore]
    exact hfirst
  coins seat := by
    rw [← coinsOf_veiled q x, ← coinsOf_veiled q x']
    exact congrArg (·.coinsOf seat) hlook
  treasury := congrArg (·.treasury) hlook
  current := congrArg (·.current) hlook
  dead := by
    -- From outside even the player's own hand looks as it did before: the dead cards are face up.
    have hcards : ∀ p : Player, p.veiled.cards.map (·.upturned) = p.cards.map (·.upturned) := by
      intro p
      simp [Player.veiled, Function.comp_def]
    have hplayers : ∀ y : Game, (y.outside q).players.map (fun p => p.cards.map (·.upturned))
        = y.players.map fun p => p.cards.map (·.upturned) :=
      fun y => map_modify_eq hcards y.players q
    rw [← hplayers x, hlook, hplayers x']
  frames := congrArg (·.stack.frames) hlook
  alarms := congrArg (·.venue.alarms) hlook
  overAlarm := congrArg (·.overAlarm) hlook

/-- Hidden cards do not leak. Take a game at rest and another one that looks the same to everybody
but one player: it may differ in the characters of the living cards of that player, be they in the
hand or kept and on offer in an exchange. Let the same press, alarm or passing of time come into
both. If on the way no card of the player dies, is revealed or shown to the table, or is submitted
to an inquisitor, then both games go on to games that nobody else can tell apart by any message, by
coins, by dead cards, by what is suspended or by the alarms that are set; or both meet the end of
the clock. -/
theorem AtRest.hidden_cards_unseen (h : g.AtRest) (hsame : g.veiled q = g'.veiled q) (i : Input)
    (hhides : ∀ k ∈ g.feedCalls i, k.exposes q = false)
    (hhides' : ∀ k ∈ g'.feedCalls i, k.exposes q = false) :
    (∃ x x', g.feed i = .ok x ∧ g'.feed i = .ok x' ∧ LooksAlike q g x g' x') ∨
      g.feed i = .error .clockOverflow ∧ g'.feed i = .error .clockOverflow ∧
        clockEnd ≤ g.venue.alarms.now + i.duration + g.waitTime := by
  have hgist := gist_feed h hsame hhides hhides'
  have hrests := feed_rests h i
  cases hfeed : g.feed i with
  | ok x =>
    cases hfeed' : g'.feed i with
    | ok x' =>
      rw [hfeed, hfeed'] at hgist
      have hlook : x.outside q = x'.outside q := Except.ok.inj hgist
      exact .inl ⟨x, x', rfl, rfl, looksAlike_of_outside hsame (h.tells_of_feed hfeed) hlook⟩
    | error cause =>
      rw [hfeed, hfeed'] at hgist
      cases hgist
  | error cause =>
    rw [hfeed] at hrests
    obtain ⟨rfl, hclock⟩ := hrests
    cases hfeed' : g'.feed i with
    | ok x' =>
      rw [hfeed, hfeed'] at hgist
      cases hgist
    | error cause' =>
      rw [hfeed, hfeed'] at hgist
      cases hgist
      exact .inr ⟨rfl, rfl, hclock⟩

/-- Ada ends an exchange. For Bob it makes no difference that all cards she had were dukes, though
the draw pile is not the same afterwards. -/
theorem hidden_cards_unseen_exchanged : ∃ g x x',
    playOut ["Ada", "Bob"] { seed := some 0, startPlayer := some 0, variant := some .classic }
        [.press 0 "exchange", .press 1 "accept", .press 0 "keep:0"] = some g ∧
      g.players ≠ (g.veiled 0).players ∧
      g.feed (.press 0 "keep:0") = .ok x ∧ (g.veiled 0).feed (.press 0 "keep:0") = .ok x' ∧
      x.deck ≠ x'.deck ∧ LooksAlike 0 g x (g.veiled 0) x' := by
  have hrun : ((playOut ["Ada", "Bob"]
      { seed := some 0, startPlayer := some 0, variant := some .classic }
      [.press 0 "exchange", .press 1 "accept", .press 0 "keep:0"]).bind fun g =>
        (g.feed (.press 0 "keep:0")).toOption.bind fun x =>
          ((g.veiled 0).feed (.press 0 "keep:0")).toOption.map fun x' =>
            decide (g.players ≠ (g.veiled 0).players) && decide (x.deck ≠ x'.deck)
              && (g.feedCalls (.press 0 "keep:0")).all (!·.exposes 0)
              && ((g.veiled 0).feedCalls (.press 0 "keep:0")).all (!·.exposes 0))
      = some true := by
    decide +kernel
  obtain ⟨g, hg, hrun⟩ := Option.bind_eq_some_iff.1 hrun
  obtain ⟨x, hx, hrun⟩ := Option.bind_eq_some_iff.1 hrun
  obtain ⟨x', hx', hrun⟩ := Option.map_eq_some_iff.1 hrun
  simp only [Bool.and_eq_true, decide_eq_true_eq, List.all_eq_true, Bool.not_eq_true'] at hrun
  obtain ⟨⟨⟨hplayers, hdeck⟩, hhides⟩, hhides'⟩ := hrun
  have hok := eq_ok_of_toOption hx
  have hok' := eq_ok_of_toOption hx'
  refine ⟨g, x, x', hg, hplayers, hok, hok', hdeck, ?_⟩
  rcases (reachable_of_playOut hg).atRest.hidden_cards_unseen (veiled_veiled 0 g).symm
      (.press 0 "keep:0") hhides hhides' with ⟨y, y', hy, hy', hlook⟩ | ⟨hfault, -, -⟩
  · cases hok.symm.trans hy
    cases hok'.symm.trans hy'
    exact hlook
  · cases hok.symm.trans hfault

end CoupTable.Game
