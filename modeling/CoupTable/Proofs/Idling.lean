import CoupTable.Proofs.CardPresses

/-!
# Frames that go on by themselves

A frame that gets its chance to go on takes a step, and the only fault that it can meet is the end
of the clock, when an alarm is to be set. If the step stirs, the stack weighs less after it, so
frames go on by themselves only so often.
-/

namespace CoupTable

/-- What a frame weighs: claims and challenges may give way to another frame. -/
def Frame.weight : Frame → Nat
  | claim _ | reveal _ => 2
  | turn | variantChoice | loss _ | exchange _ | interrogation _ => 1

namespace Game

variable {g g' : Game} {c : Claim} {r : Reveal} {f : Frame} {below : List Frame}
  {choice seat : Nat}  {p : Player} {limit : Nat} {P Q : Game → Prop} {x : Except Fault Game}

/-- What the stack weighs. -/
def weight (g : Game) : Nat := (g.stack.frames.map (·.weight)).sum

/-- A stack weighs at most twice as much as it has frames. -/
theorem weight_le (g : Game) : g.weight ≤ 2 * g.stack.depth := by
  unfold weight Stack.depth
  induction g.stack.frames with
  | nil => exact Nat.le_refl _
  | cons f frames ih =>
    have hf : f.weight ≤ 2 := by cases f <;> simp [Frame.weight]
    rw [List.map_cons, List.sum_cons, List.length_cons]
    omega

/-- The frame on top weighs with the others. -/
theorem weight_eq (hf : g.stack.frames = f :: below) :
    g.weight = f.weight + (below.map (·.weight)).sum := by
  rw [weight, hf, List.map_cons, List.sum_cons]

/-! ## Faults -/

/-- The result is a game for which `P` holds, or the clock ended before a limit. -/
def Timely (limit : Nat) (P : Game → Prop) : Except Fault Game → Prop
  | .ok g => P g
  | .error cause => cause = .clockOverflow ∧ clockEnd ≤ limit

/-- A result that is in time is so by any later limit and for any weaker property. -/
theorem Timely.mono (h : Timely limit P x) {limit' : Nat} (hlimit : limit ≤ limit')
    (hPQ : ∀ g, P g → Q g) : Timely limit' Q x := by
  cases x with
  | ok g => exact hPQ g h
  | error cause => exact ⟨h.1, Nat.le_trans h.2 hlimit⟩

/-- What follows a result in time is in time if it is so for every game that may come. -/
theorem Timely.bind {k : Game → Except Fault Game} (h : Timely limit P x)
    (hk : ∀ g, P g → Timely limit Q (k g)) : Timely limit Q (x >>= k) := by
  cases x with
  | ok g => exact hk g h
  | error cause => exact h

/-! ## Going on -/

/-- What comes of a frame that went on by itself. -/
structure Idled (g g' : Game) : Prop where
  /-- It took a step. -/
  step : Step g .idle g'
  /-- If it stirred, the stack weighs less. -/
  lighter : g'.stirred = true → g'.weight < g.weight
  /-- If it did not stir, the frame on top waits now. -/
  waiting : g'.stirred = false → g'.Waiting

/-- Somebody is asked, and that is all. -/
theorem Idled.ask (hstill : g.stirred = false) (hf : g.stack.frames = f :: below) (hne : f ≠ .turn)
    (hclaim : ∀ c, f ≠ .claim c) (hwaits : g.Waits f) {ms : List Message} (hms : g.Remarks ms) :
    Idled g (g.said ms) where
  step := .askSomebody hf hne hclaim hms
  lighter hstirred := absurd (hstill.symm.trans hstirred) nofun
  waiting _ := Waits.waiting (hwaits.congr rfl rfl rfl) hf

/-- A player of whom not the last card is wanted has a choice. -/
theorem hasChoice_of_singleLiving? (hp : g.players[seat]? = some p)
    (h : p.singleLiving? = none) : g.HasChoice seat := by
  intro q hq hone
  rw [hp] at hq
  cases hq
  obtain ⟨slot, hslot⟩ := Player.singleLiving?_isSome hone
  rw [h] at hslot
  cases hslot

/-- A player of whom not all cards are wanted has a choice. -/
theorem hasChoice_of_losesAll (hf : g.stack.frames = .loss seat :: below)
    (hp : g.players[seat]? = some p) (h : ¬ g.losesAll seat p.livingCount = true) :
    g.HasChoice seat := by
  intro q hq hone
  rw [hp] at hq
  cases hq
  refine h ?_
  rw [hone]
  simp [losesAll, Stack.depth, hf]

/-! ## The turn -/

/-- The first status of a finished game sets the alarm that reports the end. -/
theorem showStatus_final (hfinished : g.isFinished = true) (hover : g.isOver = false) :
    g.showStatus = (g.venue.saying [g.status]).arm 0 >>= fun armed => .ok { g
      with venue := armed.2, isOver := true, overAlarm := some armed.1 } := by
  have hlast : ((g.broadcast g.statusText []).isFinished
      && !(g.broadcast g.statusText []).isOver) = true := by
    change (g.isFinished && !g.isOver) = true
    rw [hfinished, hover]
    rfl
  unfold showStatus status
  simp only [hfinished, if_true, hlast]
  rfl

/-- The turn passes on, and the game ends where at most one player is left. -/
theorem nextTurn_idled (h : g.Sound) (hf : g.stack.frames = [.turn]) (hstill : g.stirred = false)
    (hover : g.isOver = false) : Timely g.venue.alarms.now (Idled g) g.nextTurn := by
  have hlives : g.isAlive g.nextSeat = true := by
    cases h.shape_of hf with
    | turn hlives => exact isAlive_nextSeat h.current hlives
  unfold nextTurn
  cases hfinished : g.isFinished with
  | false =>
    -- The turn passes on to a player who is alive.
    have hgo : g.isFinished = true → g.isOver = true := by
      rw [hfinished]
      exact nofun
    rw [showStatus_eq (g := { g with current := g.nextSeat }) hgo]
    exact {
      step := .pass hf hgo
      lighter := fun hstirred => absurd (hstill.symm.trans hstirred) nofun
      waiting := fun _ => Waits.waiting (f := .turn) hlives hf }
  | true =>
    rw [showStatus_final (g := { g with current := g.nextSeat }) hfinished hover]
    -- The game ends. The alarm that reports the end is set without delay, and so nothing but the
    -- end of the clock can keep it from being set.
    by_cases hclock : g.venue.alarms.now + 0 < clockEnd
    · rw [Venue.arm_eq (v := g.venue.saying _) hclock, ok_bind]
      exact {
        step := .finish hf hfinished hover
        lighter := fun hstirred => absurd (hstill.symm.trans hstirred) nofun
        waiting := fun _ => Waits.waiting (f := .turn) hlives hf }
    · rw [Venue.arm_eq_error (v := g.venue.saying _) (Nat.not_lt.1 hclock), error_bind]
      exact ⟨rfl, Nat.not_lt.1 hclock⟩

/-! ## Losses -/

/-- Several cards in a hand are turned face up. -/
theorem killCard_all {slots : List Nat} (hp : g.players[seat]? = some p)
    (hslots : ∀ slot ∈ slots, slot < p.cards.length) :
    slots.foldlM (fun g slot => g.killCard seat slot) g
      = .ok { g with players := g.players.set seat (slots.foldl Player.killSlot p) } := by
  induction slots generalizing g p with
  | nil =>
    obtain ⟨hlt, hget⟩ := List.getElem?_eq_some_iff.1 hp
    have hself : g.players.set seat p = g.players := by rw [← hget, List.set_getElem_self]
    simp [hself]
  | cons slot slots ih =>
    obtain ⟨hlt, -⟩ := List.getElem?_eq_some_iff.1 hp
    have hkill := killCard_eq hp (hslots slot List.mem_cons_self)
    have hnext := ih (g := { g with players := g.players.set seat (p.killSlot slot) })
      (List.getElem?_set_self hlt) fun other hother => by
        rw [Player.length_killSlot]
        exact hslots other (List.mem_cons_of_mem _ hother)
    rw [List.foldlM_cons, hkill, ok_bind, hnext]
    simp only [List.set_set, List.foldl_cons]

/-- A loss that is left takes all cards where all are owed. -/
theorem lossIdle_all (hf : g.stack.frames = .loss seat :: below) (hp : g.players[seat]? = some p)
    (hall : g.losesAll seat p.livingCount = true) :
    g.lossIdle seat = .ok { g with
      players := g.players.set seat p.killAll, stack := ⟨below⟩, stirred := true } := by
  have hslots : ∀ slot ∈ p.livingSlots, slot < p.cards.length := by
    intro slot hslot
    obtain ⟨card, hcard, -⟩ := Player.hasLiving_iff.1 (Player.mem_livingSlots.1 hslot)
    exact (List.getElem?_eq_some_iff.1 hcard).1
  unfold lossIdle
  rw [player_eq hp, ok_bind, if_pos hall, pop_eq (g := g.stir) hf, ok_bind, @killCard_all _ seat p]
  · rfl
  · exact hp
  · exact hslots

/-- A loss that is left asks for a card where not all are owed. -/
theorem lossIdle_ask (hp : g.players[seat]? = some p)
    (hall : ¬ g.losesAll seat p.livingCount = true) :
    g.lossIdle seat = .ok (g.tell seat Wording.askLoss
      (p.living.map fun (slot, c) => ⟨c.name, (Move.lose slot).data⟩)) := by
  unfold lossIdle
  rw [player_eq hp, ok_bind, if_neg hall]
  rfl

/-- A loss that is left takes all cards or asks for one. -/
theorem lossIdle_idled (h : g.Sound) (hf : g.stack.frames = .loss seat :: below)
    (hstill : g.stirred = false) : Timely limit (Idled g) (g.lossIdle seat) := by
  obtain ⟨p, hp, -⟩ := h.of_loss hf
  by_cases hall : g.losesAll seat p.livingCount = true
  · rw [lossIdle_all hf hp hall]
    exact {
      step := .loseAll hf hp hall
      lighter := fun _ => by simp [weight, hf, Frame.weight]
      waiting := nofun }
  · rw [lossIdle_ask hp hall, tell_eq]
    exact Idled.ask hstill hf nofun (fun _ => nofun) (hasChoice_of_losesAll hf hp hall)
      (g.remarks_told _ _ _)

/-! ## Claims and challenges -/

/-- A claim that goes through puts at most one light frame on the stack. -/
theorem Grant.weight_le {effect : Effect} (h : Grant g seat effect g') :
    g'.weight ≤ g.weight + 1 := by
  cases h with
  | assassinate | exchange | inspect =>
    simp only [weight, List.map_cons, List.sum_cons, Frame.weight]
    omega
  | block hf | blockKill hf =>
    simp only [weight, hf, List.map_cons, List.sum_cons]
    omega
  | _ => exact Nat.le_succ _

/-- An answer makes the stack lighter. -/
theorem Answer.weight_lt (h : Answer g r c below choice g')
    (hf : g.stack.frames = .reveal r :: .claim c :: below) : g'.weight < g.weight := by
  cases h with
  | _ =>
    simp only [weight, hf, List.map_cons, List.sum_cons, Frame.weight]
    omega

/-- After an answer something stirs. -/
theorem Answer.stirred_eq (h : Answer g r c below choice g') : g'.stirred = true := by
  cases h <;> rfl

/-- After a claim went through something stirs still, if it did before. -/
theorem Grant.stirred_eq {effect : Effect} (h : Grant g seat effect g') (hg : g.stirred = true) :
    g'.stirred = true := by
  cases h with
  | block | blockKill => rfl
  | _ => exact hg

/-- A press or an alarm after which nothing stirs deals the cards, asks for a target, or is an
acceptance that is not enough. -/
theorem Step.of_still (hstep : Step g cause g') (hcause : cause ≠ .idle)
    (hstill : g'.stirred = false) :
    (∃ v ms below, g.stack.frames = .variantChoice :: below ∧
      { g with venue := g.venue.saying ms, stack := ⟨below⟩ }.deal v = .ok g') ∨
    (∃ ms below, g.stack.frames = .turn :: below ∧ g.Remarks ms ∧
      g' = { g with venue := g.venue.saying ms }) ∨
    ∃ c below seat, g.stack.frames = .claim c :: below ∧ cause = .press seat .accept ∧
      g' = { g with stack := ⟨.claim { c with accepted := c.accepted.insert seat } :: below⟩ } := by
  cases hstep with
  | deal hf _ hdeal => exact .inl ⟨_, _, _, hf, hdeal⟩
  | askTarget hf _ hms => exact .inr (.inl ⟨_, _, hf, hms, rfl⟩)
  | accept hf => exact .inr (.inr ⟨_, _, _, hf, rfl, rfl⟩)
  | acceptLast _ _ hgrant | timeOut _ _ hgrant => cases (hgrant.stirred_eq rfl).symm.trans hstill
  | answer _ hanswer => cases hanswer.stirred_eq.symm.trans hstill
  | pass | finish | ask | unopposed | answerLast | dropDead | loseAll | showOnly | askSomebody =>
    exact absurd rfl hcause
  | _ => cases hstill

/-- A claim that somebody could oppose is put to the table once its alarm is set. -/
theorem claimIdle_eq_arm (hf : g.stack.frames = .claim c :: below)
    (ha : g.isAccepted { c with accepted := ∅ } = false) :
    g.claimIdle c = (g.venue.release c.alarm).arm g.waitTime >>= fun armed => .ok { g with
      venue := armed.2.saying [⟨.everyone, g.claimText c, claimButtons c⟩]
      stack := ⟨.claim { c with accepted := ∅, alarm := some armed.1 } :: below⟩ } := by
  have ha' : isAccepted (g.setTop (.claim { c with accepted := ∅ })) { c with accepted := ∅ }
      = false := ha
  unfold claimIdle askTable
  dsimp only
  rw [ha', if_neg Bool.false_ne_true, setTop_eq hf, cancelAlarm_eq]
  refine congrArg ((g.venue.release c.alarm).arm g.waitTime >>= ·) (funext fun armed => ?_)
  dsimp only
  rw [@setTop_eq _ (.claim { c with accepted := ∅ }) below rfl, broadcast_eq]
  rfl

/-- A claim that somebody could oppose is put to the table as long as its alarm rings before the end
of the clock. -/
theorem claimIdle_eq (hf : g.stack.frames = .claim c :: below)
    (ha : g.isAccepted { c with accepted := ∅ } = false)
    (hclock : g.venue.alarms.now + g.waitTime < clockEnd) :
    g.claimIdle c = .ok { g with
      venue := ((g.venue.release c.alarm).arming g.waitTime).saying
        [⟨.everyone, g.claimText c, claimButtons c⟩]
      stack := ⟨.claim { c with accepted := ∅, alarm := some g.venue.alarms.next } :: below⟩ } := by
  rw [claimIdle_eq_arm hf ha, Venue.arm_eq (by rwa [Venue.now_release]), ok_bind,
    Venue.next_release]

/-- No claim is put to the table whose alarm would ring after the end of the clock. -/
theorem claimIdle_eq_error (hf : g.stack.frames = .claim c :: below)
    (ha : g.isAccepted { c with accepted := ∅ } = false)
    (hclock : clockEnd ≤ g.venue.alarms.now + g.waitTime) :
    g.claimIdle c = .error .clockOverflow := by
  rw [claimIdle_eq_arm hf ha, Venue.arm_eq_error (by rwa [Venue.now_release]), error_bind]

/-- A claim that is left goes through unopposed, or the table is asked about it. -/
theorem claimIdle_idled (h : g.Sound) (hf : g.stack.frames = .claim c :: below)
    (hstill : g.stirred = false) :
    Timely (g.venue.alarms.now + g.waitTime) (Idled g) (g.claimIdle c) := by
  cases ha : g.isAccepted { c with accepted := ∅ } with
  | true =>
    -- Nobody can oppose the claim: it goes through, and the stack is lighter without its frame.
    obtain ⟨g', hresolve, hgrant⟩ := h.resolve_eq hf { c with accepted := ∅ } rfl rfl
    have ha' : isAccepted (g.setTop (.claim { c with accepted := ∅ })) { c with accepted := ∅ }
        = true := ha
    have hstirred := hgrant.stirred_eq rfl
    have hweight := hgrant.weight_le
    unfold claimIdle
    dsimp only
    rw [ha', if_pos rfl, hresolve]
    refine Idled.mk (.unopposed hf ha hgrant) (fun _ => ?_) (fun hstill' => ?_)
    · have hbefore : g.weight = 2 + (g.lifted { c with accepted := ∅ } below).weight := weight_eq hf
      omega
    · rw [hstirred] at hstill'
      cases hstill'
  | false =>
    -- The table is asked, unless the alarm of the claim would ring after the end of the clock.
    by_cases hclock : g.venue.alarms.now + g.waitTime < clockEnd
    · rw [claimIdle_eq hf ha hclock]
      exact {
        step := .ask hf ha (remarks_claim _ c)
        lighter := fun hstirred => absurd (hstill.symm.trans hstirred) nofun
        waiting := fun _ => Waits.waiting
          (f := .claim { c with accepted := ∅, alarm := some g.venue.alarms.next })
          ⟨nofun, ha⟩ rfl }
    · rw [claimIdle_eq_error hf ha (Nat.not_lt.1 hclock)]
      exact ⟨rfl, Nat.not_lt.1 hclock⟩

/-- A challenge that is left is answered with the last card, or the challenged player is asked. -/
theorem revealIdle_idled (h : g.Sound) (hf : g.stack.frames = .reveal r :: .claim c :: below)
    (hstill : g.stirred = false) : Timely limit (Idled g) (g.revealIdle r) := by
  obtain ⟨challenger, challenged, hchallenger, hchallenged, -⟩ := h.of_challenge hf
  have hlives : challenged.isAlive = true := by
    rw [← isAlive_eq hchallenged]
    exact (h.shape_of hf).isAlive_challenged
  unfold revealIdle
  rw [player_eq hchallenged, ok_bind]
  simp only [hlives, Bool.not_true, Bool.false_eq_true, if_false]
  split
  next slot hplain hsingle =>
    -- A last card is revealed without asking.
    obtain ⟨g', hreveal, hanswer⟩ := revealCard_eq h hf hchallenged hplain
      (Player.singleLiving?_eq_some hsingle).1
    rw [hreveal]
    exact {
      step := .answerLast hf hchallenged hplain hsingle hanswer
      lighter := fun _ => hanswer.weight_lt hf
      waiting := fun hstill' => absurd (hanswer.stirred_eq.symm.trans hstill') nofun }
  next hnot =>
    -- Otherwise the challenged player has a choice, and is asked.
    have hwaits : g.Waits (.reveal r) := fun hplain => hasChoice_of_singleLiving? hchallenged <|
      Option.eq_none_iff_forall_ne_some.2 fun slot hslot => hnot slot hplain hslot
    unfold askChallenged
    rw [player_eq hchallenger, ok_bind, player_eq hchallenged, ok_bind]
    dsimp only
    rw [pure_eq_ok, note_eq, tell_eq, said_said]
    refine Idled.ask hstill hf nofun (fun _ => nofun) hwaits ?_
    refine (g.remarks_told _ _ _).append (remarks_noted ?_)
    split
    · exact Text.endsCalmly_append _ (by decide)
    · exact Text.endsCalmly_append _ (by decide)

/-! ## All frames -/

/-- An exchange that is left asks for the next card to keep. -/
theorem exchangeIdle_idled {e : Exchange} (hf : g.stack.frames = .exchange e :: below)
    (hstill : g.stirred = false) : Idled g (g.exchangeIdle e) := by
  unfold exchangeIdle
  dsimp only
  rw [tell_eq]
  exact .ask hstill hf nofun (fun _ => nofun) trivial (g.remarks_told _ _ _)

/-- The inquisitor is asked about a card of the target. -/
theorem askInquisitor_eq {i : Interrogation} {slot : Nat} (hp : g.players[i.target]? = some p)
    (hlives : p.hasLiving slot = true) :
    ∃ ms, g.Remarks ms ∧ g.askInquisitor i slot = .ok (g.said ms) := by
  obtain ⟨card, hcard, -⟩ := Player.hasLiving_iff.1 hlives
  unfold askInquisitor
  rw [player_eq hp, ok_bind, characterAt_eq hp hcard, ok_bind]
  dsimp only
  rw [pure_eq_ok, tell_eq]
  exact ⟨_, g.remarks_told _ _ _, rfl⟩

/-- An interrogation that is left shows the only card or asks one of its players. -/
theorem interrogationIdle_idled {i : Interrogation} (h : g.Sound)
    (hf : g.stack.frames = .interrogation i :: below) (hstill : g.stirred = false) :
    Timely limit (Idled g) (g.interrogationIdle i) := by
  obtain ⟨inquisitor, target, hinquisitor, htarget, hlives⟩ := h.of_interrogation hf
  unfold interrogationIdle
  rw [player_eq hinquisitor, ok_bind, player_eq htarget, ok_bind]
  split
  next slot hshown =>
    -- A card was shown, and the inquisitor is asked about it.
    obtain ⟨ms, hremarks, hms⟩ := askInquisitor_eq htarget (hlives slot hshown)
    rw [hms]
    have hwaits : g.Waits (.interrogation i) := fun hnone => by
      rw [hshown] at hnone
      cases hnone
    exact Idled.ask hstill hf nofun (fun _ => nofun) hwaits hremarks
  next slot hshown hsingle =>
    -- The target has a last card, which is shown without asking.
    have hslot := (Player.singleLiving?_eq_some hsingle).1
    obtain ⟨ms, hremarks, hms⟩ := askInquisitor_eq (g := { g with
      stack := ⟨.interrogation { i with shown := some slot } :: below⟩ }) (i := i) htarget hslot
    rw [setTop_eq hf, hms]
    exact {
      step := .showOnly hf hshown ((livesAt_eq htarget).trans hslot) htarget hsingle
        hremarks
      lighter := fun hstirred => absurd (hstill.symm.trans hstirred) nofun
      waiting := fun _ => Waits.waiting (f := .interrogation { i with shown := some slot })
        nofun rfl }
  next hnone hsingle =>
    -- The target has a choice of what to show.
    dsimp only
    rw [pure_eq_ok, tell_eq]
    have hwaits : g.Waits (.interrogation i) :=
      fun _ => hasChoice_of_singleLiving? htarget hsingle
    exact Idled.ask hstill hf nofun (fun _ => nofun) hwaits
      (g.remarks_told _ _ _)

/-- A frame other than a claim that gets its chance to go on takes a step, unless the clock has
ended. -/
theorem idle_idled_of_ne_claim (h : g.Sound) (hstill : g.stirred = false)
    (hover : g.isOver = false) (hclaim : ∀ c below, g.stack.frames ≠ .claim c :: below) :
    Timely g.venue.alarms.now (Idled g) g.idle := by
  have hshape := h.shape
  unfold idle Stack.top?
  cases hf : g.stack.frames with
  | nil =>
    rw [hf] at hshape
    cases hshape
  | cons f below =>
    rw [hf] at hshape
    cases f with
    | turn =>
      cases hshape with
      | turn => exact nextTurn_idled h hf hstill hover
    | variantChoice => exact Idled.ask hstill hf nofun (fun _ => nofun) trivial .nil
    | loss loser => exact lossIdle_idled h hf hstill
    | claim c => exact absurd hf (hclaim c below)
    | reveal r =>
      cases hshape with
      | challenged => exact revealIdle_idled h hf hstill
    | exchange e => exact exchangeIdle_idled hf hstill
    | interrogation i => exact interrogationIdle_idled h hf hstill

/-- A frame that gets its chance to go on takes a step, unless an alarm would ring after the end of
the clock. -/
theorem idle_idled (h : g.Sound) (hstill : g.stirred = false) (hover : g.isOver = false) :
    Timely (g.venue.alarms.now + g.waitTime) (Idled g) g.idle := by
  by_cases hclaim : ∃ c below, g.stack.frames = .claim c :: below
  · obtain ⟨c, below, hf⟩ := hclaim
    unfold idle Stack.top?
    rw [hf]
    exact claimIdle_idled h hf hstill
  · have hclaim : ∀ c below, g.stack.frames ≠ .claim c :: below :=
      fun c below hf => hclaim ⟨c, below, hf⟩
    exact (idle_idled_of_ne_claim h hstill hover hclaim).mono (Nat.le_add_right ..) fun _ => id

end Game

end CoupTable
