import CoupTable.Proofs.OwnHands

/-!
# Losses on top of each other

Several losses may lie on the stack at once, of one player or of several, in any order. Where those
on top take all cards of a player, all of these go at once and with a single frame, so that the
frames left over of a player who is dead have to go without taking anything. Otherwise the player
chooses, and the choice may change what the frames below amount to.

Whichever way a frame goes, what a player has lost so far and what the frames left can still take
amount to the same together (`Paying`), up to the number of cards that there were.
-/

namespace CoupTable

/-! ## Lost cards -/

namespace Player

variable {p q r : Player} {slot m n : Nat}

/-- A player loses some living cards, one after the other. -/
inductive Loses (p : Player) : Nat → Player → Prop
  /-- No card at all. -/
  | none : Loses p 0 p
  /-- One more card. -/
  | more {n : Nat} {q : Player} {slot : Nat} (h : Loses p n q) (hlives : q.hasLiving slot = true) :
    Loses p (n + 1) (q.killSlot slot)

namespace Loses

/-- A card alone is lost. -/
theorem one (hlives : p.hasLiving slot = true) : p.Loses 1 (p.killSlot slot) := none.more hlives

/-- Some cards are lost and then others. -/
theorem trans (h : p.Loses m q) (h' : q.Loses n r) : p.Loses (m + n) r := by
  induction h' with
  | none => exact h
  | more _ hlives ih => exact ih.more hlives

/-- As many cards are alive no longer. -/
theorem livingCount_add (h : p.Loses n q) : q.livingCount + n = p.livingCount := by
  induction h with
  | none => rfl
  | more _ hlives ih =>
    have hkill := livingCount_killSlot hlives
    omega

/-- Slots that are alive can be lost one after the other. -/
theorem of_slots {slots : List Nat} (hnodup : slots.Nodup)
    (hlives : ∀ slot ∈ slots, p.hasLiving slot = true) :
    p.Loses slots.length (slots.foldl killSlot p) := by
  induction slots generalizing p with
  | nil => exact none
  | cons slot slots ih =>
    obtain ⟨hnot, hnodup⟩ := List.nodup_cons.1 hnodup
    have hrest : ∀ other ∈ slots, (p.killSlot slot).hasLiving other = true := by
      intro other hother
      have hne : slot ≠ other := fun heq => hnot (heq ▸ hother)
      rw [hasLiving_killSlot, hlives other (List.mem_cons_of_mem _ hother), Bool.true_and]
      exact bne_iff_ne.2 hne
    have hall := (one (hlives slot List.mem_cons_self)).trans (ih hnodup hrest)
    rwa [Nat.add_comm] at hall

/-- All cards can be lost. -/
theorem all (p : Player) : p.Loses p.livingCount p.killAll := by
  have hall := of_slots (p := p) livingSlots_nodup fun slot => mem_livingSlots.1
  rwa [livingSlots, List.length_map] at hall

/-- Nobody is alive who lost all cards. -/
theorem livingCount_killAll (p : Player) : p.killAll.livingCount = 0 := by
  have hall := (all p).livingCount_add
  omega

end Loses

end Player

/-! ## Questions -/

/-- Who is asked for a card to lose, if anybody is. -/
def Message.asksLoss? (m : Message) : Option Nat :=
  match m.recipient with
  | .everyone => none
  | .player seat => if m.text = Wording.askLoss then some seat else none

namespace Game

variable {g g' x y : Game} {losers owed asked : List Nat} {seat other slot n : Nat}
  {p q q' : Player} {data : String}

/-- Who was asked for a card to lose, the last one first. -/
def askedToLose (g : Game) : List Nat := g.venue.outbox.filterMap (·.asksLoss?)

/-- Those asked by new messages come before those asked earlier. -/
theorem askedToLose_said (g : Game) (ms : List Message) :
    (g.said ms).askedToLose = ms.filterMap (·.asksLoss?) ++ g.askedToLose :=
  List.filterMap_append

/-- A hand that is shown is not taken for the question. -/
theorem askedToLose_showCards (h : g.showCards seat = .ok g') : g'.askedToLose = g.askedToLose := by
  obtain ⟨p, -, h⟩ := exists_ok_of_bind h
  split at h
  next =>
    cases h
    have hgreets := greets_handText p
    have hne : p.handText ≠ Wording.askLoss := fun heq => by
      rw [heq] at hgreets
      exact absurd hgreets (by decide)
    have hnone : Message.asksLoss? ⟨.player seat, p.handText, []⟩ = none := by
      unfold Message.asksLoss?
      exact if_neg hne
    rw [tell_eq, askedToLose_said, List.filterMap_cons_none hnone]
    rfl
  next =>
    cases h
    rfl

/-- Turning a card face up asks nobody. -/
theorem askedToLose_killCard (h : g.killCard seat slot = .ok g') :
    g'.askedToLose = g.askedToLose := by
  obtain ⟨p, -, h⟩ := exists_ok_of_bind h
  split at h
  next =>
    obtain ⟨q, -, h⟩ := exists_ok_of_bind h
    cases h
    rfl
  next => cases h

/-- Taking a frame off asks nobody. -/
theorem askedToLose_pop (h : g.pop = .ok g') : g'.askedToLose = g.askedToLose := by
  obtain ⟨⟨f, rest⟩, -, h⟩ := exists_ok_of_bind h
  cases h
  cases f.alarm <;> rfl

/-- Nobody is asked for another card by giving one up. -/
theorem askedToLose_lossInput {loser : Nat} {m : Move} (h : g.lossInput loser seat m = .ok g') :
    g'.askedToLose = g.askedToLose := by
  unfold lossInput at h
  split at h
  next slot =>
    obtain ⟨p, -, h⟩ := exists_ok_of_bind h
    split at h
    next =>
      obtain ⟨killed, hkill, h⟩ := exists_ok_of_bind h
      obtain ⟨shown, hshow, h⟩ := exists_ok_of_bind h
      calc g'.askedToLose = shown.askedToLose := askedToLose_pop h
        _ = killed.askedToLose := askedToLose_showCards hshow
        _ = g.stir.askedToLose := askedToLose_killCard hkill
    next =>
      cases h
      rfl
  next =>
    cases h
    rfl

/-! ## Frames on top -/

/-- How many losses of a player lie on top of the stack, with nothing between them. -/
def lossesOf (g : Game) (seat : Nat) : Nat := (g.stack.frames.takeWhile (· == .loss seat)).length

/-- The first `n` frames are there and are all `f` when as many come before any other frame. -/
theorem all_take_iff (f : Frame) (frames : List Frame) (n : Nat) :
    (n ≤ frames.length ∧ (frames.take n).all (· == f) = true)
      ↔ n ≤ (frames.takeWhile (· == f)).length := by
  induction frames generalizing n with
  | nil => simp
  | cons top frames ih =>
    cases n with
    | zero => simp
    | succ n =>
      cases htop : top == f with
      | false => simp [htop]
      | true => simpa [htop] using ih n

/-- The frames on top take all cards when there are at least as many as cards. -/
theorem losesAll_iff : g.losesAll seat n = true ↔ n ≤ g.lossesOf seat := by
  rw [losesAll, Bool.and_eq_true, decide_eq_true_eq]
  exact all_take_iff _ _ n

/-- Among losses lie at least as many of a player as on top. -/
theorem lossesOf_le_count (hf : g.stack.frames = owed.map .loss ++ [.turn]) (seat : Nat) :
    g.lossesOf seat ≤ owed.count seat := by
  have hall : (g.stack.frames.takeWhile (· == .loss seat)).count (.loss seat)
      = g.lossesOf seat := by
    refine List.count_eq_length.2 fun f hmem => ?_
    have htop := List.mem_takeWhile_imp hmem
    exact (beq_iff_eq.1 htop).symm
  have hinj : Function.Injective Frame.loss := fun _ _ heq => Frame.loss.inj heq
  calc g.lossesOf seat
      = (g.stack.frames.takeWhile (· == .loss seat)).count (.loss seat) := hall.symm
    _ ≤ g.stack.frames.count (.loss seat) := (List.takeWhile_sublist _).count_le _
    _ = owed.count seat := by
      rw [hf, List.count_append, List.count_map_of_injective _ _ hinj]
      rfl

/-! ## Putting losses on the stack -/

/-- Has players lose cards, the last one first, and lets the frames go on. -/
def loseCards (g : Game) (losers : List Nat) : Except Fault Game := do
  let g ← losers.foldlM pushLoss g
  g.stir.settle

/-- The losses go on top of the stack while there is room. -/
theorem pushLoss_all (hroom : g.stack.frames.length + losers.length ≤ Stack.maxDepth) :
    losers.foldlM pushLoss g
      = .ok { g with stack := ⟨losers.reverse.map .loss ++ g.stack.frames⟩ } := by
  induction losers generalizing g with
  | nil => rfl
  | cons seat losers ih =>
    rw [List.length_cons] at hroom
    have hpush : g.pushLoss seat = .ok { g with stack := ⟨.loss seat :: g.stack.frames⟩ } :=
      push_eq (by omega) _
    rw [List.foldlM_cons, hpush, ok_bind, ih (by rw [List.length_cons]; omega)]
    simp

/-! ## Going on -/

/-- What frames that go on by themselves come to after some players were asked for cards. -/
inductive AsksNext (asked : List Nat) (x : Game) : Prop
  /-- A turn begins, and nobody else was asked. -/
  | nobody (hf : x.stack.frames = [.turn]) (hasked : x.askedToLose = asked)
  /-- One player was asked, at last, who has more living cards than losses on top of the stack. -/
  | loser {seat : Nat} {below : List Frame} {p : Player} (hf : x.stack.frames = .loss seat :: below)
    (hp : x.players[seat]? = some p) (hmore : x.lossesOf seat < p.livingCount)
    (hasked : x.askedToLose = seat :: asked)
    (hlast : x.venue.outbox.head? = some ⟨.player seat, Wording.askLoss,
      p.living.map fun (slot, c) => ⟨c.name, (Move.lose slot).data⟩⟩)

/-- The turn begins with a status, which asks nobody for a card. -/
theorem exists_nextTurn (hover : g.isOver = false) (hclock : g.venue.alarms.now < clockEnd) :
    ∃ g', g.nextTurn = .ok g' ∧ g'.players = g.players ∧ g'.stack = g.stack ∧
      g'.stirred = g.stirred ∧ g'.askedToLose = g.askedToLose := by
  unfold nextTurn
  cases hfinished : g.isFinished with
  | false =>
    have hgo : g.isFinished = true → g.isOver = true := by
      rw [hfinished]
      exact nofun
    rw [showStatus_eq (g := { g with current := g.nextSeat }) hgo]
    exact ⟨_, rfl, rfl, rfl, rfl, rfl⟩
  | true =>
    rw [showStatus_final (g := { g with current := g.nextSeat }) hfinished hover,
      Venue.arm_eq (v := g.venue.saying _) hclock, ok_bind]
    exact ⟨_, rfl, rfl, rfl, rfl, rfl⟩

/-- Losses lie on the stack that were owed by some players of another game, less those that are
settled: what a player has lost and what the frames left can take from what is left of the hand is
what all frames could take from the hand at first. -/
structure Paying (g : Game) (losers owed : List Nat) (x : Game) : Prop where
  /-- The losses that are left lie on the turn. -/
  frames : x.stack.frames = owed.map .loss ++ [.turn]
  /-- They are losses of players at the table. -/
  seats : ∀ seat ∈ owed, seat < g.players.length
  /-- The players have lost what is not owed any more. -/
  paid : ∀ seat p, g.players[seat]? = some p → ∃ n q, x.players[seat]? = some q ∧ p.Loses n q ∧
    n + min (owed.count seat) q.livingCount = min (losers.count seat) p.livingCount

/-- At first nothing is settled. -/
theorem Paying.start (hf : g.stack.frames = [.turn])
    (hseats : ∀ seat ∈ losers, seat < g.players.length)
    (hroom : losers.length < Stack.maxDepth) :
    ∃ x, losers.foldlM pushLoss g = .ok x ∧ g.Paying losers losers.reverse x ∧
      x.isOver = g.isOver ∧ x.venue = g.venue := by
  have hpush : losers.foldlM pushLoss g
      = .ok { g with stack := ⟨losers.reverse.map .loss ++ g.stack.frames⟩ } :=
    pushLoss_all (by rw [hf, List.length_singleton]; omega)
  refine ⟨_, hpush, ?_, rfl, rfl⟩
  exact {
    frames := by rw [hf]
    seats := fun seat hmem => hseats seat (List.mem_reverse.1 hmem)
    paid := fun seat p hp => ⟨0, p, hp, .none, by rw [List.count_reverse, Nat.zero_add]⟩ }

/-- Whoever owes the loss on top sits at the table. -/
theorem Paying.exists_loser (h : g.Paying losers (seat :: owed) x) :
    ∃ q, x.players[seat]? = some q := by
  obtain ⟨p, hp⟩ := exists_player (h.seats seat List.mem_cons_self)
  obtain ⟨n, q, hq, -⟩ := h.paid seat p hp
  exact ⟨q, hq⟩

/-- The loss on top is settled by cards that are worth it: with what the losses below can take from
the hand that is left they are as many as all of these could take. -/
theorem Paying.settleTop (h : g.Paying losers (seat :: owed) x) (hq : x.players[seat]? = some q)
    (hloses : q.Loses n q')
    (hworth : n + min (owed.count seat) q'.livingCount
      = min (owed.count seat + 1) q.livingCount)
    (hps : y.players = x.players.set seat q')
    (hf : y.stack.frames = owed.map .loss ++ [.turn]) : g.Paying losers owed y where
  frames := hf
  seats := fun other hmem => h.seats other (List.mem_cons_of_mem _ hmem)
  paid := by
    intro other p hp
    obtain ⟨m, r, hr, hlost, hsum⟩ := h.paid other p hp
    rw [hps]
    by_cases heq : seat = other
    · subst heq
      cases hq.symm.trans hr
      rw [List.count_cons_self] at hsum
      obtain ⟨hlt, -⟩ := List.getElem?_eq_some_iff.1 hq
      refine ⟨m + n, q', List.getElem?_set_self hlt, hlost.trans hloses, ?_⟩
      omega
    · rw [List.count_cons_of_ne heq] at hsum
      exact ⟨m, r, by rwa [List.getElem?_set_ne heq], hlost, hsum⟩

/-- Where the frames on top take all cards, all of these are worth the frames. -/
theorem Paying.takeAll (h : g.Paying losers (seat :: owed) x) (hq : x.players[seat]? = some q)
    (hall : x.losesAll seat q.livingCount = true)
    (hps : y.players = x.players.set seat q.killAll)
    (hf : y.stack.frames = owed.map .loss ++ [.turn]) : g.Paying losers owed y := by
  refine h.settleTop hq (.all q) ?_ hps hf
  have hle := (losesAll_iff.1 hall).trans (lossesOf_le_count h.frames seat)
  rw [List.count_cons_self] at hle
  rw [Player.Loses.livingCount_killAll]
  omega

/-- A card that is chosen is worth a frame. -/
theorem Paying.takeOne (h : g.Paying losers (seat :: owed) x) (hq : x.players[seat]? = some q)
    (hlives : q.hasLiving slot = true) (hps : y.players = x.players.set seat (q.killSlot slot))
    (hf : y.stack.frames = owed.map .loss ++ [.turn]) : g.Paying losers owed y := by
  refine h.settleTop hq (.one hlives) ?_ hps hf
  have hkill := Player.livingCount_killSlot hlives
  omega

/-- What is owed depends on the players and the stack alone. -/
theorem Paying.congr (h : g.Paying losers owed x) (hps : y.players = x.players)
    (hstack : y.stack = x.stack) : g.Paying losers owed y where
  frames := hstack ▸ h.frames
  seats := h.seats
  paid := hps ▸ h.paid

/-- What losses come to that go on by themselves: some may be left, and the game goes on as long as
there are any. -/
structure Resting (g : Game) (losers owed asked : List Nat) (x : Game) : Prop where
  /-- The losses that are left are owed still. -/
  paying : g.Paying losers owed x
  /-- The turn begins, or somebody is asked. -/
  asks : AsksNext asked x
  /-- The game is not over while losses are left. -/
  goesOn : owed ≠ [] → x.isOver = false
  /-- No time passes while losses are left. -/
  clock : owed ≠ [] → x.venue.alarms.now < clockEnd

/-- Losses on a turn go on until somebody has a choice or the turn begins, and nobody is asked but
the one who has the choice. -/
theorem Paying.settleIn_eq (h : g.Paying losers owed x) (hstirred : x.stirred = true)
    (hover : x.isOver = false) (hclock : x.venue.alarms.now < clockEnd) {fuel : Nat}
    (hfuel : owed.length < fuel) :
    ∃ y owed', settleIn fuel x = .ok y ∧ g.Resting losers owed' x.askedToLose y ∧
      owed'.length ≤ owed.length := by
  induction owed generalizing x fuel with
  | nil =>
    obtain ⟨fuel, rfl⟩ := Nat.exists_eq_succ_of_ne_zero (Nat.ne_of_gt hfuel)
    have hidle : Game.idle { x with stirred := false } = nextTurn { x with stirred := false } := by
      unfold idle Stack.top?
      rw [h.frames]
      rfl
    obtain ⟨y, hnext, hps, hstack, hstill, hasked⟩ :=
      exists_nextTurn (g := { x with stirred := false }) hover hclock
    have hpaying : g.Paying losers [] y := h.congr hps hstack
    refine ⟨y, [], ?_, ?_, Nat.le_refl _⟩
    · rw [settleIn_of_stirred hstirred (hidle.trans hnext), settleIn_of_still hstill]
    · exact {
        paying := hpaying
        asks := .nobody hpaying.frames hasked
        goesOn := fun hne => absurd rfl hne
        clock := fun hne => absurd rfl hne }
  | cons seat owed ih =>
    obtain ⟨fuel, rfl⟩ := Nat.exists_eq_succ_of_ne_zero (Nat.ne_of_gt (Nat.zero_lt_of_lt hfuel))
    obtain ⟨q, hq⟩ := h.exists_loser
    have hidle : Game.idle { x with stirred := false }
        = lossIdle { x with stirred := false } seat := by
      unfold idle Stack.top?
      rw [h.frames]
      rfl
    by_cases hall : x.losesAll seat q.livingCount = true
    · -- All cards go with the frame on top, and the frames below go on.
      have hloss := lossIdle_all (g := { x with stirred := false }) h.frames hq hall
      have hrest := h.takeAll (y := { x with
        players := x.players.set seat q.killAll
        stack := ⟨owed.map .loss ++ [.turn]⟩
        stirred := true }) hq hall rfl rfl
      obtain ⟨y, owed', hsettle, hresting, hlen⟩ :=
        ih hrest rfl hover hclock (Nat.lt_of_succ_lt_succ hfuel)
      refine ⟨y, owed', ?_, hresting, Nat.le_succ_of_le hlen⟩
      rw [settleIn_of_stirred hstirred (hidle.trans hloss)]
      exact hsettle
    · -- There is a choice, and the frames wait for it.
      have hask := lossIdle_ask (g := { x with stirred := false }) hq hall
      have hmore : x.lossesOf seat < q.livingCount :=
        Nat.lt_of_not_le fun hle => hall (losesAll_iff.2 hle)
      refine ⟨_, seat :: owed, (settleIn_of_stirred hstirred (hidle.trans hask) fuel).trans
        (settleIn_of_still rfl fuel), ?_, Nat.le_refl _⟩
      exact {
        paying := h.congr rfl rfl
        asks := .loser h.frames hq hmore rfl rfl
        goesOn := fun _ => hover
        clock := fun _ => hclock }

/-- The fuel of a game is enough for the losses on its stack. -/
theorem Paying.settle_eq (h : g.Paying losers owed x) (hstirred : x.stirred = true)
    (hover : x.isOver = false) (hclock : x.venue.alarms.now < clockEnd) :
    ∃ y owed', x.settle = .ok y ∧ g.Resting losers owed' x.askedToLose y ∧
      owed'.length ≤ owed.length := by
  refine h.settleIn_eq hstirred hover hclock ?_
  rw [Stack.depth, h.frames, List.length_append, List.length_map]
  omega

/-! ## Answers -/

/-- The press gives up a living card of the player who has to lose one. -/
def GivesUp (x : Game) (seat : Nat) (data : String) : Prop :=
  x.stack.top? = some (.loss seat) ∧
    ∃ slot, Move.parse? data = some (.lose slot) ∧ x.livesAt seat slot = true

/-- Questions are answered, one after the other, by presses that give up cards. -/
inductive Answering (g : Game) : Game → Prop
  /-- No question at all. -/
  | none : Answering g g
  /-- One more question. -/
  | more {x y : Game} {seat : Nat} {data : String} (h : Answering g x)
    (hgives : x.GivesUp seat data) (hpress : x.press seat data = .ok y) : Answering g y

/-- Where a player has to lose a card the press that gives one up is taken in, and one frame at
least goes. -/
theorem Resting.press_eq (h : g.Resting losers owed asked x) (hgives : x.GivesUp seat data) :
    ∃ y owed', x.press seat data = .ok y ∧ g.Resting losers owed' x.askedToLose y ∧
      owed'.length < owed.length := by
  obtain ⟨htop, slot, hparse, hlives⟩ := hgives
  cases owed with
  | nil =>
    rw [Stack.top?, h.paying.frames] at htop
    cases htop
  | cons loser owed =>
    have hf : x.stack.frames = .loss loser :: (owed.map .loss ++ [.turn]) := h.paying.frames
    obtain rfl : loser = seat := by
      rw [Stack.top?, hf] at htop
      cases htop
      rfl
    -- The card is taken, and what is owed then is settled as far as there is no choice.
    obtain ⟨q, hq⟩ := h.paying.exists_loser
    rw [livesAt_eq hq] at hlives
    obtain ⟨ms, -, hlose⟩ := lossInput_eq hf hq hlives
    have hover := h.goesOn (List.cons_ne_nil _ _)
    have hrest := h.paying.takeOne (y := { x with
      venue := x.venue.saying ms
      players := x.players.set loser (q.killSlot slot)
      stack := ⟨owed.map .loss ++ [.turn]⟩
      stirred := true }) hq hlives rfl rfl
    obtain ⟨y, owed', hsettle, hresting, hlen⟩ :=
      hrest.settle_eq rfl hover (h.clock (List.cons_ne_nil _ _))
    rw [askedToLose_lossInput hlose] at hresting
    refine ⟨y, owed', ?_, hresting, Nat.lt_succ_of_le hlen⟩
    -- The press gets as far as the frame on top, which is the loss.
    have hseat : (decide (loser < x.players.length) && !x.isOver) = true := by
      rw [hover, decide_eq_true (List.getElem?_eq_some_iff.1 hq).1]
      rfl
    unfold press
    rw [if_pos hseat, hparse]
    dsimp only
    unfold dispatch
    rw [htop]
    dsimp only
    rw [hlose, ok_bind]
    exact hsettle

/-- So it is after any number of answers. -/
theorem Resting.answering (h : g.Resting losers owed asked x) (hrun : x.Answering y) :
    ∃ owed' asked', g.Resting losers owed' asked' y := by
  induction hrun with
  | none => exact ⟨owed, asked, h⟩
  | more _ hgives hpress ih =>
    obtain ⟨owed', asked', hrest⟩ := ih
    obtain ⟨next, later, hnext, hresting, -⟩ := hrest.press_eq hgives
    cases hnext.symm.trans hpress
    exact ⟨later, _, hresting⟩

/-- Where the turn begins the losses are paid. -/
theorem Resting.paid_of_turn (h : g.Resting losers owed asked x)
    (htop : x.stack.top? = some .turn) : x.stack.frames = [.turn] ∧
      ∀ (seat : Nat) (p : Player), g.players[seat]? = some p → ∃ q, x.players[seat]? = some q ∧
        p.Loses (min (losers.count seat) p.livingCount) q := by
  have hf := h.paying.frames
  obtain rfl : owed = [] := by
    cases owed with
    | nil => rfl
    | cons seat owed =>
      rw [Stack.top?, hf] at htop
      cases htop
  refine ⟨hf, fun seat p hp => ?_⟩
  obtain ⟨n, q, hq, hloses, hsum⟩ := h.paying.paid seat p hp
  rw [List.count_nil, Nat.zero_min, Nat.add_zero] at hsum
  exact ⟨q, hq, hsum ▸ hloses⟩

/-- Where losses are left somebody has a card to give up. -/
theorem AsksNext.exists_livesAt (h : AsksNext asked x) (hf : x.stack.frames ≠ [.turn]) :
    ∃ seat slot, x.stack.top? = some (.loss seat) ∧ x.livesAt seat slot = true := by
  cases h with
  | nobody hturn => exact absurd hturn hf
  | @loser seat below p htop hp hmore =>
    have halive : p.isAlive = true :=
      Player.isAlive_iff_livingCount.2 (Nat.zero_lt_of_lt hmore)
    obtain ⟨slot, hslot⟩ := Player.isAlive_iff.1 halive
    refine ⟨seat, slot, ?_, (livesAt_eq hp).trans hslot⟩
    rw [Stack.top?, htop]
    rfl

/-- Losses of any players may be put on a turn that goes on, in any order, as long as there is room
on the stack. Whatever the players choose when they are asked, the losses are settled without a
fault: each answer takes frames off, and is followed by the turn or by one question, to a player who
has more living cards than losses on top of the stack. When the turn begins no loss is left, and
everybody has lost as many cards as there were losses, or all of them if there were fewer cards. The
clock has not ended, as it never has in a reachable game. -/
theorem losses_settle (hf : g.stack.frames = [.turn]) (hover : g.isOver = false)
    (hclock : g.venue.alarms.now < clockEnd) (hseats : ∀ seat ∈ losers, seat < g.players.length)
    (hroom : losers.length ≤ 7) :
    ∃ g₁, g.loseCards losers = .ok g₁ ∧ AsksNext g.askedToLose g₁ ∧ ∀ x, g₁.Answering x →
      (x.stack.top? = some .turn → x.stack.frames = [.turn] ∧
        ∀ (seat : Nat) (p : Player), g.players[seat]? = some p → ∃ q, x.players[seat]? = some q ∧
          p.Loses (min (losers.count seat) p.livingCount) q) ∧
      (x.stack.top? ≠ some .turn →
        ∃ seat slot, x.stack.top? = some (.loss seat) ∧ x.livesAt seat slot = true) ∧
      ∀ seat data, x.GivesUp seat data → ∃ y, x.press seat data = .ok y ∧
        AsksNext x.askedToLose y ∧ y.stack.depth < x.stack.depth := by
  obtain ⟨pushed, hpush, hpaying, hgoes, hvenue⟩ :=
    Paying.start hf hseats (Nat.lt_succ_of_le hroom)
  obtain ⟨g₁, owed, hsettle, hresting, -⟩ := Paying.settle_eq (x := pushed.stir)
    (hpaying.congr rfl rfl) rfl (hgoes.trans hover) (hvenue ▸ hclock)
  have hasked : pushed.stir.askedToLose = g.askedToLose := by
    change pushed.askedToLose = _
    rw [askedToLose, hvenue, askedToLose]
  rw [hasked] at hresting
  refine ⟨g₁, ?_, hresting.asks, fun x hrun => ?_⟩
  · rw [loseCards, hpush, ok_bind]
    exact hsettle
  · obtain ⟨owed', asked, hrest⟩ := hresting.answering hrun
    refine ⟨hrest.paid_of_turn, fun htop => ?_, fun seat data hgives => ?_⟩
    · refine hrest.asks.exists_livesAt fun hturn => htop ?_
      rw [Stack.top?, hturn]
      rfl
    · obtain ⟨y, later, hpress, hresting', hlen⟩ := hrest.press_eq hgives
      refine ⟨y, hpress, hresting'.asks, ?_⟩
      rw [Stack.depth, Stack.depth, hresting'.paying.frames, hrest.paying.frames]
      simpa using hlen

/-- Ada, who is to lose three cards, and so both that she has, is not asked. Bob is asked for the
first of two, as a loss of Cid lies between them, but not for the second one. -/
theorem losses_settle_between : ∃ g g₁ x₁ x,
    playOut ["Ada", "Bob", "Cid"]
        { seed := some 0, startPlayer := some 0, variant := some .classic } []
        = some g ∧
      g.loseCards [1, 2, 1, 0, 0, 0] = .ok g₁ ∧ AsksNext g.askedToLose g₁ ∧
      g₁.press 1 "lose:0" = .ok x₁ ∧ x₁.press 2 "lose:1" = .ok x ∧ x.stack.frames = [.turn] ∧
      ∀ (seat : Nat) (p : Player), g.players[seat]? = some p → ∃ q, x.players[seat]? = some q ∧
        p.Loses (min (List.count seat [1, 2, 1, 0, 0, 0]) p.livingCount) q := by
  have hrun : ((playOut ["Ada", "Bob", "Cid"]
      { seed := some 0, startPlayer := some 0, variant := some .classic } []).bind fun g =>
        (g.loseCards [1, 2, 1, 0, 0, 0]).toOption.bind fun g₁ =>
          (g₁.press 1 "lose:0").toOption.bind fun x₁ =>
            (x₁.press 2 "lose:1").toOption.map fun x =>
              ((g.stack.frames, g.isOver, g.players.length),
                (g₁.stack.top?, g₁.livesAt 1 0), (x₁.stack.top?, x₁.livesAt 2 1), x.stack.top?))
      = some (([.turn], false, 3), (some (.loss 1), true), (some (.loss 2), true),
          some .turn) := by
    decide +kernel
  obtain ⟨g, hg, hrun⟩ := Option.bind_eq_some_iff.1 hrun
  obtain ⟨g₁, hlose, hrun⟩ := Option.bind_eq_some_iff.1 hrun
  obtain ⟨x₁, hbob, hrun⟩ := Option.bind_eq_some_iff.1 hrun
  obtain ⟨x, hcid, hrun⟩ := Option.map_eq_some_iff.1 hrun
  simp only [Prod.mk.injEq] at hrun
  obtain ⟨⟨hf, hover, hlen⟩, ⟨htop₁, hlives₁⟩, ⟨htop₂, hlives₂⟩, htop⟩ := hrun
  have hseats : ∀ seat ∈ [1, 2, 1, 0, 0, 0], seat < g.players.length := by
    rw [hlen]
    decide
  obtain ⟨y, hlosses, hasks, hruns⟩ := losses_settle hf hover (reachable_of_playOut hg).now_lt
    hseats (by decide)
  cases hlosses.symm.trans (eq_ok_of_toOption hlose)
  have hpress₁ := eq_ok_of_toOption hbob
  have hpress₂ := eq_ok_of_toOption hcid
  have hanswers : g₁.Answering x :=
    .more (.more .none ⟨htop₁, 0, by decide, hlives₁⟩ hpress₁) ⟨htop₂, 1, by decide, hlives₂⟩
      hpress₂
  obtain ⟨hframes, hpaid⟩ := (hruns x hanswers).1 htop
  exact ⟨g, g₁, x₁, x, hg, eq_ok_of_toOption hlose, hasks, hpress₁, hpress₂, hframes, hpaid⟩

end Game

end CoupTable
