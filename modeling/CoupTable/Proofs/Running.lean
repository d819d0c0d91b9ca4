import CoupTable.Proofs.Idling

/-!
# Runs without faults

Between two inputs a game is at rest: it is sound, nothing stirs, and whoever has the turn is
alive. Every input leads from rest to rest, however many frames go on by themselves in between, or
the clock ends; there is no other fault.

`Settles` spells out how frames go on by themselves. It does without the bound of `Game.settle`,
which is never reached, because every step that stirs makes the stack lighter.
-/

namespace CoupTable

/-- How much time passes with an input. -/
def Input.duration : Input → Nat
  | .press .. | .expire _ => 0
  | .advance time => time

namespace Game

variable {g g' : Game} {cause : Cause} {c : Claim} {f : Frame} {below : List Frame} {limit : Nat}

/-! ## Steps and the table -/

/-- No step touches the seats or the clock. -/
theorem Step.sameTable (h : g.Sound) (hstep : Step g cause g') : g.SameTable g' := by
  have hstep' := hstep
  cases hstep with
  | deal hf _ hdeal =>
    obtain ⟨built, ms', -, rfl⟩ := h.of_deal hf hdeal
    exact ⟨by simp [dealt], rfl, rfl⟩
  | income | coup => exact ⟨List.length_set .., rfl, rfl⟩
  | convert => exact ⟨by simp, rfl, rfl⟩
  | claim | askTarget | pass | finish | askSomebody => exact ⟨rfl, rfl, rfl⟩
  | acceptLast hf | unopposed hf | timeOut hf | answer hf | answerLast hf | lose hf | loseAll hf
  | keepLast hf | change hf | accept hf | ask hf | challenge hf | block hf | dropDead hf | keep hf
  | showCard hf | showOnly hf | allow hf =>
    exact (hstep'.sameTurn hf (by simp) (by simp)).toSameTable

/-- A step changes nothing about the end of the game, or is the turn that passes on in a finished
game, and ends it. -/
theorem Step.sameEnd_or_finish (h : g.Sound) (hstep : Step g cause g') :
    g'.isOver = g.isOver ∧ g'.overAlarm = g.overAlarm ∨
    cause = .idle ∧ g.isFinished = true ∧ g' = { g with
      venue := (g.venue.saying [{ g with current := g.nextSeat }.status]).arming 0
      current := g.nextSeat
      isOver := true
      overAlarm := some g.venue.alarms.next } := by
  have hstep' := hstep
  cases hstep with
  | finish _ hfinished => exact .inr ⟨rfl, hfinished, rfl⟩
  | deal hf _ hdeal =>
    obtain ⟨built, ms', -, rfl⟩ := h.of_deal hf hdeal
    exact .inl ⟨rfl, rfl⟩
  | income | coup | convert | claim | askTarget | pass | askSomebody => exact .inl ⟨rfl, rfl⟩
  | acceptLast hf | unopposed hf | timeOut hf | answer hf | answerLast hf | lose hf | loseAll hf
  | keepLast hf | change hf | accept hf | ask hf | challenge hf | block hf | dropDead hf | keep hf
  | showCard hf | showOnly hf | allow hf =>
    have hsame := hstep'.sameTurn hf nofun nofun
    exact .inl ⟨hsame.isOver, hsame.overAlarm⟩

/-- After a step from rest the frame on top waits or something stirs. -/
theorem Step.waiting (h : g.AtRest) (hstep : Step g cause g') (hstill : g'.stirred = false) :
    g'.Waiting := by
  cases hstep with
  | @deal v ms below seat index g' hf _ hdeal =>
    obtain ⟨built, ms', hperm, rfl⟩ := h.of_deal hf hdeal
    have hlives := isAlive_dealt (v := v) (hperm.length_eq.trans (Deck.length_full _)) h.seats
      h.current
    exact Waits.waiting (f := .turn) hlives rfl
  | askTarget hf | askSomebody hf =>
    exact Waits.waiting (Waits.congr (h.waiting _ _ hf) rfl rfl rfl) hf
  | pass hf | finish hf =>
    have hturn := hf
    cases h.shape_of hf with
    | turn hlives => exact Waits.waiting (f := .turn) (isAlive_nextSeat h.current hlives) hturn
  | acceptLast _ _ hgrant | unopposed _ _ hgrant | timeOut _ _ hgrant =>
    exact absurd (hgrant.stirred_eq rfl |>.symm.trans hstill) nofun
  | answer _ hanswer | answerLast _ _ _ _ hanswer =>
    exact absurd (hanswer.stirred_eq.symm.trans hstill) nofun
  | @accept c below seat hf ha =>
    have hwaits := h.waiting _ _ hf
    exact Waits.waiting (f := .claim { c with accepted := c.accepted.insert seat })
      ⟨hwaits.1, ha⟩ rfl
  | @ask c below ms hf ha =>
    exact Waits.waiting
      (f := .claim { c with accepted := ∅, alarm := some g.venue.alarms.next }) ⟨nofun, ha⟩ rfl
  | @showOnly i below slot =>
    exact Waits.waiting (f := .interrogation { i with shown := some slot }) nofun rfl
  | _ => cases hstill

/-! ## Settling -/

/-- The game `g'` comes from `g` by frames going on by themselves until nothing stirs. -/
inductive Settles : Game → Game → Prop where
  /-- Nothing stirs. -/
  | rest {g : Game} (hstill : g.stirred = false) : Settles g g
  /-- Something stirs, and the frame on top goes on. -/
  | go {g g₁ g' : Game} (hstirred : g.stirred = true)
      (hidle : { g with stirred := false }.idle = .ok g₁) (h : Settles g₁ g') : Settles g g'

/-- A game that is sound stays so when what stirred is taken note of. -/
theorem Sound.hush (h : g.Sound) : Sound { g with stirred := false } :=
  { h with
    shape := h.shape.congr rfl rfl rfl (.of_players_eq rfl)
    ended := fun hover => ⟨(h.ended hover).1, rfl⟩ }

/-- A game whose stack is not down to the turn goes on. -/
theorem Sound.isOver_eq_false (h : g.Sound) (hf : g.stack.frames = f :: below) (hne : f ≠ .turn) :
    g.isOver = false := by
  cases hover : g.isOver with
  | false => rfl
  | true => exact absurd (List.cons.inj (hf.symm.trans (h.ended hover).1)).1 hne

/-- A game in which something stirs goes on. -/
theorem Sound.isOver_of_stirred (h : g.Sound) (hstirred : g.stirred = true) :
    g.isOver = false := by
  cases hover : g.isOver with
  | false => rfl
  | true => exact absurd ((h.ended hover).2.symm.trans hstirred) nofun

/-- Where something stirs the frame on top goes on by a step to a sound game. -/
theorem Sound.idled (h : g.Sound) (hstirred : g.stirred = true)
    (hidle : idle { g with stirred := false } = .ok g') :
    Idled { g with stirred := false } g' ∧ g'.Sound := by
  have hover := h.isOver_of_stirred hstirred
  have hidled := idle_idled h.hush rfl hover
  rw [hidle] at hidled
  exact ⟨hidled, hidled.step.sound h.hush rfl hover⟩

/-- With enough fuel a sound game comes to rest. -/
theorem settleIn_rests (h : g.Sound) (hwaiting : g.stirred = false → g.Waiting) {fuel : Nat}
    (hfuel : g.stirred = true → g.weight < fuel) :
    Timely (g.venue.alarms.now + g.waitTime)
      (fun g' => g'.AtRest ∧ g.SameTable g' ∧ Settles g g') (settleIn fuel g) := by
  induction fuel generalizing g with
  | zero =>
    -- Without fuel nothing can stir, since the weight of the game would be below zero.
    have hstill : g.stirred = false := by
      cases hstirred : g.stirred with
      | false => rfl
      | true => exact absurd (hfuel hstirred) (Nat.not_lt_zero _)
    exact ⟨⟨h, hstill, hwaiting hstill⟩, .refl g, .rest hstill⟩
  | succ fuel ih =>
    unfold settleIn
    cases hstirred : g.stirred with
    | false =>
      simp only [Bool.false_eq_true, if_false]
      exact ⟨⟨h, hstirred, hwaiting hstirred⟩, .refl g, .rest hstirred⟩
    | true =>
      simp only [if_true]
      cases hidle : idle { g with stirred := false } with
      | error cause =>
        have hlate := idle_idled h.hush rfl (h.isOver_of_stirred hstirred)
        rw [hidle] at hlate
        exact hlate
      | ok g₁ =>
        obtain ⟨hidled, hsound⟩ := h.idled hstirred hidle
        -- The frame goes on. The game is lighter after it, and so the fuel that is left is enough.
        have htable : g.SameTable g₁ := { hidled.step.sameTable h.hush with }
        have hlight : g₁.stirred = true → g₁.weight < fuel := fun hstirred₁ =>
          Nat.lt_of_lt_of_le (hidled.lighter hstirred₁) (Nat.le_of_lt_succ (hfuel hstirred))
        have hnext := ih hsound hidled.waiting hlight
        rw [ok_bind]
        refine hnext.mono htable.limit_le fun g' hg' => ?_
        obtain ⟨hrest, htable', hsettles⟩ := hg'
        exact ⟨hrest, htable.trans htable', .go hstirred hidle hsettles⟩

/-- A sound game settles. -/
theorem settle_rests (h : g.Sound) (hwaiting : g.stirred = false → g.Waiting) :
    Timely (g.venue.alarms.now + g.waitTime)
      (fun g' => g'.AtRest ∧ g.SameTable g' ∧ Settles g g') g.settle :=
  settleIn_rests h hwaiting fun _ => Nat.lt_succ_of_le g.weight_le

/-- A game in which nothing stirs settles at once. -/
theorem settle_eq (hstill : g.stirred = false) : g.settle = .ok g := by
  unfold settle settleIn
  rw [hstill, if_neg nofun]
  rfl

/-- What comes of a step from rest once it has settled. -/
theorem Step.settle_rests (h : g.AtRest) (hover : g.isOver = false) (hstep : Step g cause g') :
    Timely (g.venue.alarms.now + g.waitTime)
      (fun g'' => g''.AtRest ∧ g.SameTable g'' ∧ Settles g' g'') g'.settle := by
  have htable := hstep.sameTable h.toSound
  have hsound := hstep.sound h.toSound h.still hover
  refine (Game.settle_rests hsound (hstep.waiting h)).mono htable.limit_le ?_
  rintro g'' ⟨hrest, htable', hsettles⟩
  exact ⟨hrest, htable.trans htable', hsettles⟩

/-! ## Inputs -/

/-- A press is ignored, or the frame on top takes a step and the game settles. -/
theorem press_outcome (h : g.AtRest) (seat : Nat) (data : String) :
    (g.press seat data = .ok g ∧ ∀ m, Move.parse? data = some m → seat < g.players.length →
      g.isOver = false → g.dispatch seat m = .ok g) ∨
    ∃ m g', Move.parse? data = some m ∧ g.isOver = false ∧ g.dispatch seat m = .ok g' ∧
      Step g (.press seat m) g' ∧ g.press seat data = g'.settle := by
  unfold press
  split
  next hopen =>
    simp only [Bool.and_eq_true, Bool.not_eq_true'] at hopen
    split
    next m hparse =>
      obtain ⟨g', hdispatch, hstep⟩ := dispatch_yields h seat m
      rw [hdispatch, ok_bind]
      rcases hstep with ⟨rfl, -⟩ | hstep
      · refine .inl ⟨settle_eq h.still, fun m' hparse' _ _ => ?_⟩
        cases hparse.symm.trans hparse'
        exact hdispatch
      · exact .inr ⟨m, g', hparse, hopen.2, hdispatch, hstep, rfl⟩
    next hparse =>
      refine .inl ⟨rfl, fun m hparse' => ?_⟩
      cases hparse.symm.trans hparse'
  next hclosed =>
    refine .inl ⟨rfl, fun m _ hseat hover => ?_⟩
    simp [hseat, hover] at hclosed

/-- An alarm reports the end, or is ignored, or the claim on top goes through and the game
settles. -/
theorem expire_outcome (h : g.AtRest) (id : AlarmId) :
    (g.overAlarm = some id ∧
      g.expire id = .ok { g with overAlarm := none, venue := g.venue.reportOver }) ∨
    g.expire id = .ok g ∨ ∃ g', g.isOver = false ∧ Step g (.alarm id) g' ∧
      g.expire id = g'.settle := by
  unfold expire
  split
  next halarm => exact .inl ⟨halarm, rfl⟩
  next =>
    refine .inr ?_
    unfold Stack.top?
    cases hf : g.stack.frames with
    | nil => exact .inl rfl
    | cons f below =>
      cases f with
      | claim c =>
        simp only [List.head?_cons]
        split
        next hid =>
          have hover := h.isOver_eq_false hf nofun
          obtain ⟨g', hresolve, hgrant⟩ := h.resolve_eq hf { c with alarm := none } rfl rfl
          rw [hresolve, ok_bind]
          exact .inr ⟨g', hover, .timeOut hf hid hgrant, rfl⟩
        next => exact .inl rfl
      | _ => exact .inl rfl

/-- A press leads from rest to rest. -/
theorem press_rests (h : g.AtRest) (seat : Nat) (data : String) :
    Timely (g.venue.alarms.now + g.waitTime) (fun g' => g'.AtRest ∧ g.SameTable g')
      (g.press seat data) := by
  obtain ⟨hstay, -⟩ | ⟨m, g', -, hover, -, hstep, hsettle⟩ := press_outcome h seat data
  · rw [hstay]
    exact ⟨h, .refl g⟩
  · rw [hsettle]
    exact (hstep.settle_rests h hover).mono (Nat.le_refl _) fun g'' hg'' => ⟨hg''.1, hg''.2.1⟩

/-- A game at rest stays so whatever happens to the venue. -/
theorem AtRest.of_venue (h : g.AtRest) (venue : Venue) : AtRest { g with venue } :=
  { h with
    shape := h.shape.congr rfl rfl rfl (.of_players_eq rfl)
    waiting := fun f below hf => Waits.congr (h.waiting f below hf) rfl rfl rfl }

/-- An alarm leads from rest to rest. -/
theorem expire_rests (h : g.AtRest) (id : AlarmId) :
    Timely (g.venue.alarms.now + g.waitTime) (fun g' => g'.AtRest ∧ g.SameTable g')
      (g.expire id) := by
  obtain ⟨halarm, hreport⟩ | hstay | ⟨g', hover, hstep, hsettle⟩ := expire_outcome h id
  · rw [hreport]
    have hover := h.overAlarm (by rw [halarm]; exact nofun)
    have hrest : AtRest { g with overAlarm := none, venue := g.venue.reportOver } :=
      { h with
        shape := h.shape.congr rfl rfl rfl (.of_players_eq rfl)
        overAlarm := fun hne => absurd rfl hne
        waiting := fun f below hf => Waits.congr (h.waiting f below hf) rfl rfl rfl }
    exact ⟨hrest, rfl, rfl, rfl⟩
  · rw [hstay]
    exact ⟨h, .refl g⟩
  · rw [hsettle]
    exact (hstep.settle_rests h hover).mono (Nat.le_refl _) fun g'' hg'' => ⟨hg''.1, hg''.2.1⟩

/-- Alarms one after the other lead from rest to rest. -/
theorem expireAll_rests (h : g.AtRest) (due : List AlarmId) :
    Timely (g.venue.alarms.now + g.waitTime) (fun g' => g'.AtRest ∧ g.SameTable g')
      (due.foldlM (fun g id => g.expire id) g) := by
  induction due generalizing g with
  | nil => exact ⟨h, .refl g⟩
  | cons id due ih =>
    rw [List.foldlM_cons]
    refine (expire_rests h id).bind fun g₁ hg₁ => ?_
    obtain ⟨hrest, htable⟩ := hg₁
    refine (ih hrest).mono htable.limit_le fun g' hg' => ?_
    exact ⟨hg'.1, htable.trans hg'.2⟩

/-- The passing of time leads from rest to rest. -/
theorem advanceIn_rests (h : g.AtRest) (fuel time : Nat) :
    Timely (g.venue.alarms.now + time + g.waitTime) AtRest (advanceIn fuel time g) := by
  induction fuel generalizing g time with
  | zero => exact h
  | succ fuel ih =>
    unfold advanceIn
    by_cases hclock : g.venue.alarms.now + time < clockEnd
    · obtain ⟨due, pending, hadvance⟩ := Venue.advance_eq hclock
      have hlater : AtRest { g with venue := { g.venue with
          alarms := { g.venue.alarms with now := g.venue.alarms.now + time, pending } } } :=
        h.of_venue _
      rw [hadvance, ok_bind]
      dsimp only
      split
      next => exact hlater
      next =>
        refine (expireAll_rests hlater due).bind fun g₁ hg₁ => ?_
        obtain ⟨hrest, htable⟩ := hg₁
        -- The clock stands still from here on.
        exact (ih hrest 0).mono htable.limit_le fun _ => id
    · rw [Venue.advance_eq_error (Nat.not_lt.1 hclock), error_bind]
      exact ⟨rfl, Nat.le_trans (Nat.not_lt.1 hclock) (Nat.le_add_right ..)⟩

/-- Every input leads from rest to rest, unless the clock ends. -/
theorem feed_rests (h : g.AtRest) (i : Input) :
    Timely (g.venue.alarms.now + i.duration + g.waitTime) AtRest (g.feed i) := by
  cases i with
  | press seat data => exact (press_rests h seat data).mono (Nat.le_refl _) fun g' hg' => hg'.1
  | expire id => exact (expire_rests h id).mono (Nat.le_refl _) fun g' hg' => hg'.1
  | advance time => exact advanceIn_rests h _ time

end Game

end CoupTable
