import CoupTable.Proofs.Deadlines
import CoupTable.Proofs.Graveyards
import CoupTable.Proofs.Replaying
import CoupTable.Proofs.Report

/-!
# Simulated games

A simulation makes random moves until the game is over, and looks whether it is before each move. So
as long as the game goes on the simulation is at the game that as many random moves lead to, with
the same generator, and only the messages differ, which it forgets (`simulate_add`). Once the game
is over before a move, the simulation has the end reported and gives the survivor.
-/

namespace CoupTable.Game

variable {R : Type} {g g' : Game} {rng : R} {time : Nat}

/-! ## Messages that are forgotten -/

/-- What a simulation gives, without the messages that its game still has. -/
def muted (outcome : Option Nat × Game × R) : Option Nat × Game × R :=
  (outcome.1, outcome.2.1.quiet, outcome.2.2)

/-- What a simulation gives is known but for messages once it is known without them. -/
theorem eq_ok_of_muted {outcome : Except Fault (Option Nat × Game × R)} {winner : Option Nat}
    (h : muted <$> outcome = .ok (muted (winner, g, rng))) :
    ∃ g', outcome = .ok (winner, g', rng) ∧ g'.quiet = g.quiet := by
  cases outcome with
  | error fault => cases h
  | ok outcome =>
    obtain ⟨winner', g', rng'⟩ := outcome
    have hmuted : muted (winner', g', rng') = muted (winner, g, rng) := Except.ok.inj h
    simp only [muted, Prod.mk.injEq] at hmuted
    obtain ⟨rfl, hquiet, rfl⟩ := hmuted
    exact ⟨g', rfl, hquiet⟩

variable [Generator R]

/-- A random move is the same whatever was sent before. -/
theorem randomStep_following (past : List Message) (g : Game) (rng : R) :
    (g.following past).randomStep rng
      = (fun made => (made.1, made.2.1.following past, made.2.2)) <$> g.randomStep rng := by
  unfold randomStep
  extract_lets waiting wait waiting' wait'
  have hwait : ∀ rng, wait rng
      = (fun made => (made.1, made.2.1.following past, made.2.2)) <$> wait' rng := by
    intro rng
    unfold wait wait'
    have hadvance : (g.following past).advance (g.following past).waitTime
        = (·.following past) <$> g.advance g.waitTime := unmoved_feed (.advance g.waitTime) past g
    rw [hadvance]
    cases g.advance g.waitTime <;> rfl
  have hmoves : (g.following past).moves = g.moves := rfl
  have hwaiting : waiting = waiting' := rfl
  simp only [hmoves, hwaiting]
  split
  next => exact hwait rng
  next hsome =>
    -- What the generator draws is the same.
    generalize (if waiting' = true then Generator.oneInFive rng else (false, rng)) = chance
    split
    next => exact hwait chance.2
    next =>
      generalize Generator.pick chance.2 g.moves hsome = picked
      obtain ⟨⟨seat, m⟩, rng⟩ := picked
      have hplay : (g.following past).play seat m = (·.following past) <$> g.play seat m :=
        unmoved_feed (.press seat m.data) past g
      dsimp only
      rw [hplay]
      cases g.play seat m <;> rfl

/-- A simulation makes its first move in a game that goes on. -/
theorem simulate_of_goesOn (hover : g.isOver = false) (m : Nat) (rng : R) :
    simulate (m + 1) g rng
      = g.randomStep rng >>= fun made => simulate m made.2.1.quiet made.2.2 := by
  rw [simulate, if_neg (by rw [hover]; exact Bool.false_ne_true)]
  rfl

/-- A simulation of a game that is over has the end reported. -/
theorem simulate_of_over (hover : g.isOver = true) (m : Nat) (rng : R) :
    simulate (m + 1) g rng = g.advance 0 >>= fun g => .ok (g.winner?, g, rng) := by
  rw [simulate, if_pos hover]
  rfl

/-- What was sent before makes no difference to a simulation but for the messages that are left. -/
theorem muted_simulate_quiet (m : Nat) (g : Game) (rng : R) :
    muted <$> simulate m g.quiet rng = muted <$> simulate m g rng := by
  have hg : g = g.quiet.following g.venue.outbox := rfl
  cases m with
  | zero => rfl
  | succ m =>
    cases hover : g.isOver with
    | true =>
      rw [simulate_of_over (g := g.quiet) hover, simulate_of_over hover]
      have hadvance : g.advance 0 = (·.following g.venue.outbox) <$> g.quiet.advance 0 :=
        unmoved_feed (.advance 0) g.venue.outbox g.quiet
      rw [hadvance]
      cases g.quiet.advance 0 <;> rfl
    | false =>
      rw [simulate_of_goesOn (g := g.quiet) hover, simulate_of_goesOn hover]
      have hstep : g.randomStep rng
          = (fun made => (made.1, made.2.1.following g.venue.outbox, made.2.2))
            <$> g.quiet.randomStep rng := randomStep_following g.venue.outbox g.quiet rng
      rw [hstep]
      cases g.quiet.randomStep rng <;> rfl

/-! ## Random moves before a game is over -/

/-- As long as the game goes on for some moves, a simulation makes these first, and only the
messages differ from those of the moves alone. -/
theorem simulate_add (k m : Nat) (g : Game) (rng : R)
    (hgoes : ∀ j < k, ∀ t x rng', g.ramble j rng = .ok (t, x, rng') → x.isOver = false) :
    muted <$> simulate (k + m) g rng
      = g.ramble k rng >>= fun played => muted <$> simulate m played.2.1 played.2.2 := by
  induction k generalizing g rng with
  | zero =>
    rw [Nat.zero_add]
    rfl
  | succ k ih =>
    have hover : g.isOver = false := hgoes 0 (Nat.succ_pos k) [] g rng rfl
    rw [Nat.add_right_comm, simulate_of_goesOn hover, ramble]
    cases hstep : g.randomStep rng with
    | error fault => rfl
    | ok made =>
      obtain ⟨e, g₁, rng₁⟩ := made
      have hgoes₁ : ∀ j < k, ∀ t x rng', g₁.ramble j rng₁ = .ok (t, x, rng') →
          x.isOver = false := by
        intro j hj t x rng' hplay
        refine hgoes (j + 1) (Nat.succ_lt_succ hj) (e :: t) x rng' ?_
        rw [ramble, hstep, ok_bind]
        dsimp only
        rw [hplay]
        rfl
      calc muted <$> simulate (k + m) g₁.quiet rng₁
          = muted <$> simulate (k + m) g₁ rng₁ := muted_simulate_quiet _ _ _
        _ = g₁.ramble k rng₁ >>= fun played => muted <$> simulate m played.2.1 played.2.2 :=
          ih g₁ rng₁ hgoes₁
        _ = _ := by
          rw [ok_bind]
          dsimp only
          cases g₁.ramble k rng₁ <;> rfl

/-- What was recorded came in as presses and as time that passes. -/
theorem Recorded.exists_inputs {t : Transcript} (h : Recorded g t g') :
    ∃ inputs, (∀ i ∈ inputs, ∀ id, i ≠ .expire id) ∧ g.feedAll inputs = .ok g' := by
  induction h with
  | nil => exact ⟨[], List.forall_mem_nil _, rfl⟩
  | @cons g g₁ g' e i t hrecords hfeed _ ih =>
    obtain ⟨inputs, hinputs, hfed⟩ := ih
    have htime : ∀ id, i ≠ .expire id := by
      cases hrecords <;> exact nofun
    refine ⟨i :: inputs, List.forall_mem_cons.2 ⟨htime, hinputs⟩, ?_⟩
    rw [feedAll_cons, hfeed, ok_bind, hfed]

/-! ## The end -/

/-- An alarm that goes off in a game that is over reports the end or is ignored. -/
theorem AtRest.expire_of_over (h : g.AtRest) (hover : g.isOver = true) (id : AlarmId) :
    ∃ g', g.expire id = .ok g' ∧ g'.AtRest ∧ g'.isOver = true ∧
      g'.venue.alarms = g.venue.alarms := by
  rcases expire_outcome h id with ⟨-, hreport⟩ | hstay | ⟨x, hgoes, -⟩
  · exact ⟨_, hreport, h.feed (i := .expire id) hreport, hover, rfl⟩
  · exact ⟨g, hstay, h, hover, rfl⟩
  · cases hgoes.symm.trans hover

/-- So do several alarms. -/
theorem AtRest.expireAll_of_over (h : g.AtRest) (hover : g.isOver = true) (due : List AlarmId) :
    ∃ g', due.foldlM (fun g id => g.expire id) g = .ok g' ∧ g'.AtRest ∧ g'.isOver = true ∧
      g'.venue.alarms = g.venue.alarms := by
  induction due generalizing g with
  | nil => exact ⟨g, rfl, h, hover, rfl⟩
  | cons id due ih =>
    obtain ⟨g₁, hexpire, hrest, hover₁, halarms⟩ := h.expire_of_over hover id
    obtain ⟨g', hlater, hrest', hover', halarms'⟩ := ih hrest hover₁
    refine ⟨g', ?_, hrest', hover', halarms'.trans halarms⟩
    rw [List.foldlM_cons, hexpire, ok_bind, hlater]

/-- After the end of a game time passes without a fault, up to the end of the clock. -/
theorem AtRest.advanceIn_of_over (h : g.AtRest) (hover : g.isOver = true)
    (hclock : g.venue.alarms.now + time < clockEnd) (fuel : Nat) :
    ∃ g', advanceIn fuel time g = .ok g' := by
  induction fuel generalizing g time with
  | zero => exact ⟨g, rfl⟩
  | succ fuel ih =>
    obtain ⟨due, pending, hadvance⟩ := Venue.advance_eq hclock
    have hlater : AtRest { g with venue := { g.venue with
        alarms := { g.venue.alarms with now := g.venue.alarms.now + time, pending } } } :=
      h.of_venue _
    unfold advanceIn
    rw [hadvance, ok_bind]
    dsimp only
    split
    next => exact ⟨_, rfl⟩
    next =>
      obtain ⟨g₁, hall, hrest, hover₁, halarms⟩ := hlater.expireAll_of_over hover due
      rw [hall, ok_bind]
      refine ih hrest hover₁ ?_
      rw [halarms]
      exact hclock

/-- A reachable game that is over has one survivor, and its end can be reported. Then it was
reported once, and no alarm is set if none was ever reported before its time. -/
theorem Reachable.closed (h : Reachable g) (hover : g.isOver = true) :
    ∃ seat g', g.advance 0 = .ok g' ∧ g'.winner? = some seat ∧ g'.livingSeats = [seat] ∧
      g'.venue.gameOvers = 1 ∧ (g.Punctual → g'.venue.alarms.pending = []) := by
  obtain ⟨g', hfeed⟩ : ∃ g', g.feed (.advance 0) = .ok g' :=
    h.atRest.advanceIn_of_over hover h.now_lt _
  have hreach := h.fed hfeed
  have hover' : g'.isOver = true := (h.atRest.feed_frozen hover hfeed).isOver_eq.trans hover
  have hframes := (hreach.atRest.ended hover').1
  have hfinished : g'.isFinished = true := (hreach.isFinished_eq hframes).trans hover'
  obtain ⟨seat, hone, hwinner, -⟩ := hreach.atRest.exists_winner hfinished
  obtain ⟨hnone, hreported⟩ := h.gameOvers_of_advance hfeed hover'
  refine ⟨seat, g', hfeed, hwinner, hone, hreported, fun hpunctual => ?_⟩
  have htime : ∀ id, Input.advance 0 = .expire id → g.venue.alarms.isPending id = false :=
    fun id => nofun
  have hlater : g'.Punctual := hpunctual.later ((OnTime.refl g).fed htime hfeed)
  exact (hlater.timed.unset_of_top hnone hframes rfl).pending

/-! ## The result -/

/-- After `k` random moves the game is over, and it was not before. -/
structure EndsAfter (g : Game) (rng : R) (k : Nat) (last : Game) (rng' : R) : Prop where
  /-- What the moves lead to. -/
  played : ∃ t, g.ramble k rng = .ok (t, last, rng')
  /-- The game is over. -/
  ended : last.isOver = true
  /-- With fewer moves it goes on. -/
  before : ∀ j < k, ∀ t x rng', g.ramble j rng = .ok (t, x, rng') → x.isOver = false

/-- A game that no number of moves ends goes on. -/
theorem goesOn_of_not_endsAfter {limit : Nat}
    (h : ∀ k ≤ limit, ∀ last rng', ¬ g.EndsAfter rng k last rng') :
    ∀ k ≤ limit, ∀ t last rng', g.ramble k rng = .ok (t, last, rng') → last.isOver = false := by
  intro k
  induction k using Nat.strongRecOn with
  | ind k ih =>
    intro hk t last rng' hplay
    by_contra hover
    refine h k hk last rng' ⟨⟨t, hplay⟩, Bool.eq_true_of_not_eq_false hover, fun j hj => ?_⟩
    exact ih j hj (Nat.le_trans (Nat.le_of_lt hj) hk)

/-- A simulation of a reachable game reports an end that it looks for. If the game is over after
fewer random moves than are allowed, whatever draws them, the simulation makes these and no other
one, names the only survivor and has the end reported once; and no alarm is set any more, if none
was reported on the way to the game before its time. If no number of moves that is allowed ends the
game, the simulation makes them all and names nobody, unless the clock ends. -/
theorem Reachable.simulate_reports (h : Reachable g) (maxMoves : Nat) (rng : R) :
    (∀ k last rng', k < maxMoves → g.EndsAfter rng k last rng' →
      ∃ seat g' final, simulate maxMoves g rng = .ok (some seat, g', rng') ∧
        last.advance 0 = .ok final ∧ g'.quiet = final.quiet ∧ g'.livingSeats = [seat] ∧
        g'.venue.gameOvers = 1 ∧ (g.Punctual → g'.venue.alarms.pending = [])) ∧
    ((∀ k ≤ maxMoves, ∀ last rng', ¬ g.EndsAfter rng k last rng') →
      (∀ t last rng', g.ramble maxMoves rng = .ok (t, last, rng') →
        ∃ g', simulate maxMoves g rng = .ok (none, g', rng') ∧ g'.quiet = last.quiet) ∧
      ∀ fault, g.ramble maxMoves rng = .error fault →
        fault = .clockOverflow ∧ simulate maxMoves g rng = .error fault) := by
  constructor
  · rintro k last rng' hk ⟨⟨t, hplay⟩, hover, hgoes⟩
    -- The moves are inputs of a run, so that the game they end is reachable and names its winner.
    obtain ⟨inputs, hinputs, hfed⟩ :=
      ((h.atRest.ramble k rng).2 t last rng' hplay).exists_inputs
    obtain ⟨seat, final, hadvance, hwinner, hone, hreported, hquiet⟩ :=
      (h.feedAll hfed).closed hover
    -- A move is left after them, before which the simulation sees the end, and waits for no time to
    -- have it reported.
    obtain ⟨rest, rfl⟩ : ∃ rest, maxMoves = k + (rest + 1) :=
      ⟨maxMoves - k - 1, by omega⟩
    have hmuted : muted <$> simulate (k + (rest + 1)) g rng
        = .ok (muted (some seat, final, rng')) := by
      rw [simulate_add k (rest + 1) g rng hgoes, hplay, ok_bind, simulate_of_over hover, hadvance,
        ok_bind, hwinner]
      rfl
    obtain ⟨g', hsimulate, hsame⟩ := eq_ok_of_muted hmuted
    refine ⟨seat, g', final, hsimulate, hadvance, hsame, ?_, ?_, fun hpunctual => ?_⟩
    · exact (congrArg livingSeats hsame).trans hone
    · exact (congrArg (·.venue.gameOvers) hsame).trans hreported
    · have hlater : last.Punctual := hpunctual.later (.of_feedAll hinputs hfed)
      exact (congrArg (·.venue.alarms.pending) hsame).trans (hquiet hlater)
  · -- No number of moves ends the game, so that the simulation makes all that it may, and stops
    -- where they stop.
    intro hends
    have hgoes := goesOn_of_not_endsAfter hends
    have hadd := simulate_add maxMoves 0 g rng fun j hj => hgoes j (Nat.le_of_lt hj)
    rw [Nat.add_zero] at hadd
    refine ⟨fun t last rng' hplay => eq_ok_of_muted ?_, fun fault hplay => ?_⟩
    · rw [hadd, hplay]
      rfl
    · refine ⟨(h.atRest.ramble maxMoves rng).1 fault hplay, ?_⟩
      rw [hplay] at hadd
      cases hsimulate : simulate maxMoves g rng with
      | error fault' =>
        rw [hsimulate] at hadd
        cases hadd
        rfl
      | ok outcome =>
        rw [hsimulate] at hadd
        cases hadd

/-- Ada is to show one of two captains to Bob, who has one card left: whichever she shows, the game
is over after one move. A simulation that may make no other one does not see that it is. -/
theorem endsAfter_captains : ∃ g last rng g' rng',
    playOut ["Ada", "Bob"]
        { seed := some 0, startPlayer := some 1, variant := some .classic,
          cardOverrides := [.captain, .captain, .contessa, .contessa] }
        [.press 1 "tax", .press 0 "challenge", .press 1 "reveal:0", .press 0 "steal:1",
          .press 1 "challenge"] = some g ∧
      g.EndsAfter (Pcg.ofSeed 0) 1 last rng ∧
      simulate 1 g (Pcg.ofSeed 0) = .ok (none, g', rng') ∧ g'.venue.gameOvers = 0 := by
  have hrun : ((playOut ["Ada", "Bob"]
      { seed := some 0, startPlayer := some 1, variant := some .classic,
        cardOverrides := [.captain, .captain, .contessa, .contessa] }
      [.press 1 "tax", .press 0 "challenge", .press 1 "reveal:0", .press 0 "steal:1",
        .press 1 "challenge"]).bind fun g =>
          (g.ramble 1 (Pcg.ofSeed 0)).toOption.bind fun played =>
            (simulate 1 g (Pcg.ofSeed 0)).toOption.map fun outcome =>
              (g.isOver, played.2.1.isOver, outcome.1, outcome.2.1.venue.gameOvers))
      = some (false, true, none, 0) := by
    decide +kernel
  obtain ⟨g, hg, hrun⟩ := Option.bind_eq_some_iff.1 hrun
  obtain ⟨⟨t, last, rng⟩, hplay, hrun⟩ := Option.bind_eq_some_iff.1 hrun
  obtain ⟨⟨winner, g', rng'⟩, hsimulate, hrun⟩ := Option.map_eq_some_iff.1 hrun
  simp only [Prod.mk.injEq] at hrun
  obtain ⟨hgoes, hover, rfl, hnone⟩ := hrun
  have hends : g.EndsAfter (Pcg.ofSeed 0) 1 last rng := by
    refine ⟨⟨t, eq_ok_of_toOption hplay⟩, hover, fun j hj t x rng' hplay => ?_⟩
    obtain rfl : j = 0 := Nat.lt_one_iff.1 hj
    cases hplay
    exact hgoes
  exact ⟨g, last, rng, g', rng', hg, hends, eq_ok_of_toOption hsimulate, hnone⟩

/-- With a move to spare the simulation names Ada, who has two captains to show, and has the end
reported. -/
theorem simulate_reports_captains : ∃ g last rng seat g',
    playOut ["Ada", "Bob"]
        { seed := some 0, startPlayer := some 1, variant := some .classic,
          cardOverrides := [.captain, .captain, .contessa, .contessa] }
        [.press 1 "tax", .press 0 "challenge", .press 1 "reveal:0", .press 0 "steal:1",
          .press 1 "challenge"] = some g ∧
      g.EndsAfter (Pcg.ofSeed 0) 1 last rng ∧
      simulate 2 g (Pcg.ofSeed 0) = .ok (some seat, g', rng) ∧ g'.livingSeats = [seat] ∧
      g'.venue.gameOvers = 1 ∧ g'.venue.alarms.pending = [] := by
  obtain ⟨g, last, rng, -, -, hg, hends, -⟩ := endsAfter_captains
  have hpunctual : g.Punctual := punctual_of_playOut (by simp) hg
  obtain ⟨seat, g', -, hsimulate, -, -, hone, hreported, hquiet⟩ :=
    (hpunctual.reachable.simulate_reports 2 (Pcg.ofSeed 0)).1 1 last rng (by decide) hends
  exact ⟨g, last, rng, seat, g', hg, hends, hsimulate, hone, hreported, hquiet hpunctual⟩

/-- The alarm of Ada's foreign aid is reported to the game although it is still set, and is set even
when the end was reported, as no time has passed. And where the only move ends the game, nobody is
named, and the end is not reported. -/
theorem simulate_unreported :
    (∃ g g' rng, playOut ["Ada", "Bob"]
        { seed := some 0, startPlayer := some 0, variant := some .classic,
          cardOverrides := [.captain, .captain, .contessa, .contessa] }
        [.press 0 "foreign_aid", .expire 0, .press 1 "tax", .press 0 "challenge",
          .press 1 "reveal:0", .press 0 "steal:1", .press 1 "challenge", .press 0 "reveal:0"]
            = some g ∧
      g.EndsAfter (Pcg.ofSeed 0) 0 g (Pcg.ofSeed 0) ∧
      simulate 1 g (Pcg.ofSeed 0) = .ok (some 0, g', rng) ∧
      g'.venue.alarms.pending = [(0, 60000000000)]) ∧
    ∃ g last rng g' rng', playOut ["Ada", "Bob"]
        { seed := some 0, startPlayer := some 1, variant := some .classic,
          cardOverrides := [.captain, .captain, .contessa, .contessa] }
        [.press 1 "tax", .press 0 "challenge", .press 1 "reveal:0", .press 0 "steal:1",
          .press 1 "challenge"] = some g ∧
      g.EndsAfter (Pcg.ofSeed 0) 1 last rng ∧
      simulate 1 g (Pcg.ofSeed 0) = .ok (none, g', rng') ∧ g'.venue.gameOvers = 0 := by
  refine ⟨?_, endsAfter_captains⟩
  have hrun : ((playOut ["Ada", "Bob"]
      { seed := some 0, startPlayer := some 0, variant := some .classic,
        cardOverrides := [.captain, .captain, .contessa, .contessa] }
      [.press 0 "foreign_aid", .expire 0, .press 1 "tax", .press 0 "challenge",
        .press 1 "reveal:0", .press 0 "steal:1", .press 1 "challenge",
        .press 0 "reveal:0"]).bind fun g =>
          (simulate 1 g (Pcg.ofSeed 0)).toOption.map fun outcome =>
            (g.isOver, outcome.1, outcome.2.1.venue.alarms.pending))
      = some (true, some 0, [(0, 60000000000)]) := by
    decide +kernel
  obtain ⟨g, hg, hrun⟩ := Option.bind_eq_some_iff.1 hrun
  obtain ⟨⟨winner, g', rng⟩, hsimulate, hrun⟩ := Option.map_eq_some_iff.1 hrun
  simp only [Prod.mk.injEq] at hrun
  obtain ⟨hover, rfl, hpending⟩ := hrun
  have hends : g.EndsAfter (Pcg.ofSeed 0) 0 g (Pcg.ofSeed 0) :=
    ⟨⟨[], rfl⟩, hover, fun j hj => absurd hj (Nat.not_lt_zero j)⟩
  exact ⟨g, g', rng, hg, hends, eq_ok_of_toOption hsimulate, hpending⟩

end CoupTable.Game
