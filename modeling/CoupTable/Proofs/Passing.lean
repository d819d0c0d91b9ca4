import CoupTable.Proofs.Deadlines
import CoupTable.Proofs.Fates
import CoupTable.Proofs.Report

/-!
# How time passes

When time passes, the clock jumps first. Then the alarms go off that are due, and those that have
become due because of them, round after round until none is due any more. `Elapses` spells this out
without a bound on the rounds, which is never met (`Reachable.advance_exhausts`), and keeps which
alarm goes off in which game.

There is no way from a claim whose time is over to another claim, and so there is next to nothing
that can go off. The alarm of the claim on top may be due, and after it the alarm that reports the
end of the game, but no other (`Pair`). After that no alarm is set, whatever the clock shows, and so
it makes no difference when the clock is stopped on its way (`Punctual.advance_additive`).
-/

namespace CoupTable

namespace Venue

variable {v : Venue} {time due : Nat} {id : AlarmId}

/-- If no alarm is due nothing but the clock moves. -/
theorem advance_of_quiet (hquiet : ∀ e ∈ v.alarms.pending, v.alarms.now + time < e.2)
    (hclock : v.alarms.now + time < clockEnd) :
    v.advance time = .ok ([], { v with alarms := { v.alarms with
      now := v.alarms.now + time } }) := by
  have hdue : v.alarms.pending.filter (fun e => decide (e.2 ≤ v.alarms.now + time)) = [] :=
    List.filter_eq_nil_iff.2 fun e he => by simpa using hquiet e he
  have hkept : v.alarms.pending.filter (fun e => !decide (e.2 ≤ v.alarms.now + time)) =
      v.alarms.pending := List.filter_eq_self.2 fun e he => by simpa using hquiet e he
  rw [advance_eq_dueBy hclock, Alarms.dueBy, Alarms.keptAt, hdue, hkept, List.mergeSort_nil]
  rfl

/-- If the only alarm is due it is handed out. -/
theorem advance_of_single (hset : v.alarms.pending = [(id, due)])
    (hdue : due ≤ v.alarms.now + time) (hclock : v.alarms.now + time < clockEnd) :
    v.advance time = .ok ([id], { v with alarms := { v.alarms with
      now := v.alarms.now + time, pending := [] } }) := by
  rw [advance_eq_dueBy hclock, Alarms.dueBy, Alarms.keptAt, hset]
  simp [hdue]

end Venue

namespace Game

variable {g g' g₁ y : Game} {c : Claim} {below : List Frame} {id : AlarmId} {due : List AlarmId}
  {time fuel : Nat} {rung : List (Game × AlarmId)}

/-! ## Rounds -/

/-- The alarms `due` go off one after the other, each in the game that it finds. -/
inductive GoOff : Game → List AlarmId → List (Game × AlarmId) → Game → Prop where
  /-- None is left. -/
  | nil (g : Game) : GoOff g [] [] g
  /-- One goes off before the others. -/
  | cons {g g₁ g' : Game} {id : AlarmId} {due : List AlarmId} {rung : List (Game × AlarmId)}
      (hexpire : g.expire id = .ok g₁) (hlater : GoOff g₁ due rung g') :
      GoOff g (id :: due) ((g, id) :: rung) g'

/-- Time passes until no alarm is due any more, and the alarms `rung` go off, each in the game that
it finds. -/
inductive Elapses : Game → Nat → List (Game × AlarmId) → Game → Prop where
  /-- No alarm is due. -/
  | quiet {g : Game} {time : Nat} {venue : Venue} (hnone : g.venue.advance time = .ok ([], venue)) :
      Elapses g time [] { g with venue }
  /-- What is due goes off, and the clock stands still after that. -/
  | round {g g₁ g' : Game} {time : Nat} {due : List AlarmId} {venue : Venue}
      {rung later : List (Game × AlarmId)} (hdue : g.venue.advance time = .ok (due, venue))
      (hsome : due ≠ []) (hall : GoOff { g with venue } due rung g₁)
      (hlater : Elapses g₁ 0 later g') : Elapses g time (rung ++ later) g'

/-- At most two alarms go off: that of the claim on top, and then the one that reports the end. -/
def Pair (rung : List (Game × AlarmId)) : Prop :=
  ∃ claims reports, rung = claims ++ reports ∧ claims.length ≤ 1 ∧ reports.length ≤ 1 ∧
    (∀ p ∈ claims, ∃ c below, p.1.stack.frames = .claim c :: below ∧ c.alarm = some p.2) ∧
    ∀ p ∈ reports, p.1.overAlarm = some p.2

/-- As many alarms go off as are due. -/
theorem GoOff.length_eq (h : GoOff g due rung g') : rung.length = due.length := by
  induction h with
  | nil => rfl
  | cons _ _ ih => exact congrArg (· + 1) ih

/-- Alarms go off by a fold. -/
theorem GoOff.foldlM_eq (h : GoOff g due rung g') :
    due.foldlM (fun g id => g.expire id) g = .ok g' := by
  induction h with
  | nil => rfl
  | cons hexpire _ ih => rw [List.foldlM_cons, hexpire, ok_bind, ih]

/-- As much fuel as alarms go off, and one round more, is enough. -/
theorem Elapses.advanceIn_eq (h : Elapses g time rung g') (hfuel : rung.length < fuel) :
    advanceIn fuel time g = .ok g' := by
  induction h generalizing fuel with
  | quiet hnone =>
    cases fuel with
    | zero => cases hfuel
    | succ fuel =>
      unfold advanceIn
      rw [hnone, ok_bind]
      rfl
  | @round g g₁ g' time due venue rung later hdue hsome hall _ ih =>
    cases fuel with
    | zero => cases hfuel
    | succ fuel =>
      -- A round in which nothing goes off is the last one.
      have hrung : 0 < rung.length := by
        rw [hall.length_eq]
        exact List.length_pos_iff.2 hsome
      rw [List.length_append] at hfuel
      unfold advanceIn
      rw [hdue, ok_bind]
      dsimp only
      rw [List.isEmpty_eq_false_iff.2 hsome, if_neg Bool.false_ne_true, hall.foldlM_eq, ok_bind]
      exact ih (by omega)

/-- Alarms that have gone off one after the other did so each in the game that it found. -/
theorem exists_goOff (hall : due.foldlM (fun g id => g.expire id) g = .ok g') :
    ∃ rung, GoOff g due rung g' := by
  induction due generalizing g with
  | nil =>
    cases hall
    exact ⟨[], .nil _⟩
  | cons id due ih =>
    rw [List.foldlM_cons] at hall
    obtain ⟨g₁, hexpire, hlater⟩ := exists_ok_of_bind hall
    obtain ⟨rung, hrung⟩ := ih hlater
    exact ⟨_, .cons hexpire hrung⟩

/-- What comes of the first round: no alarm is due, or some go off before the next round. -/
theorem advanceIn_cases (hadvance : advanceIn (fuel + 1) time g = .ok g') :
    Elapses g time [] g' ∨ ∃ due venue rung g₁, g.venue.advance time = .ok (due, venue) ∧
      due ≠ [] ∧ GoOff { g with venue } due rung g₁ ∧ advanceIn fuel 0 g₁ = .ok g' := by
  unfold advanceIn at hadvance
  obtain ⟨⟨due, venue⟩, hdue, hadvance⟩ := exists_ok_of_bind hadvance
  dsimp only at hadvance
  split at hadvance
  next hnone =>
    cases hadvance
    rw [List.isEmpty_iff.1 hnone] at hdue
    exact .inl (.quiet hdue)
  next hsome =>
    obtain ⟨g₁, hall, hlater⟩ := exists_ok_of_bind hadvance
    obtain ⟨rung, hrung⟩ := exists_goOff hall
    exact .inr ⟨due, venue, rung, g₁, hdue, fun hnone => hsome (hnone ▸ rfl), hrung, hlater⟩

/-- When the alarms that were due have gone off and have left the others alone, the next round is
the last one. -/
theorem GoOff.elapses_of_alarms_eq {venue : Venue} (hrung : GoOff { g with venue } due rung g₁)
    (hdue : g.venue.advance time = .ok (due, venue)) (hsome : due ≠ [])
    (halarms : g₁.venue.alarms = venue.alarms) (hlater : advanceIn (fuel + 1) 0 g₁ = .ok g') :
    Elapses g time rung g' := by
  rw [← List.append_nil rung]
  refine .round hdue hsome hrung ?_
  rcases advanceIn_cases hlater with hquiet | ⟨due', _, _, _, hdue', hsome', -⟩
  · exact hquiet
  · exact absurd (Venue.due_eq_nil hdue halarms hdue') hsome'

/-- Without a claim two rounds are enough. -/
theorem AtRest.advanceIn_unclaimed (h : g.AtRest) (hclaim : g.claim? = none)
    (hadvance : advanceIn (fuel + 2) time g = .ok g') : ∃ rung, Elapses g time rung g' := by
  rcases advanceIn_cases hadvance with hquiet | ⟨due, venue, rung, g₁, hdue, hsome, hrung, hlater⟩
  · exact ⟨_, hquiet⟩
  · have hkept := (expireAll_induction
      (P := fun x => x.claim? = none ∧ x.venue.alarms = venue.alarms)
      (fun x x' id hrest hx hexpire => by
        obtain ⟨hnone, -, halarms⟩ := hrest.expire_unclaimed hx.1 hexpire
        exact ⟨hnone, halarms.trans hx.2⟩)
      (h.of_venue venue) ⟨hclaim, rfl⟩ hrung.foldlM_eq).2
    exact ⟨_, hrung.elapses_of_alarms_eq hdue hsome hkept.2 hlater⟩

/-- Time passes until no alarm is due any more: the rounds that there are suffice. -/
theorem AtRest.elapses (h : g.AtRest) (hadvance : g.advance time = .ok g') :
    ∃ rung, Elapses g time rung g' := by
  cases hover : g.isOver with
  | true =>
    have hclaim : g.claim? = none := h.claim?_of_turn (h.ended hover).1
    exact h.advanceIn_unclaimed hclaim hadvance
  | false =>
    rcases advanceIn_cases hadvance with
      hquiet | ⟨due, venue, rung, g₁, hdue, hsome, hrung, hlater⟩
    · exact ⟨_, hquiet⟩
    · -- Either all alarms were ignored, or a claim went through, and there is none any more.
      have hrest : AtRest { g with venue } := h.of_venue venue
      rcases hrest.expireAll_cases hover hrung.foldlM_eq with rfl | hclaim
      · exact ⟨_, hrung.elapses_of_alarms_eq hdue hsome rfl hlater⟩
      · have hrest₁ : g₁.AtRest := (expireAll_induction (P := fun _ => True)
          (fun _ _ _ _ _ _ => trivial) hrest trivial hrung.foldlM_eq).1
        obtain ⟨later, helapses⟩ := hrest₁.advanceIn_unclaimed hclaim hlater
        exact ⟨_, .round hdue hsome hrung helapses⟩

/-- Once time has passed no alarm is due. -/
theorem Elapses.now_lt (h : Elapses g time rung g') :
    ∀ e ∈ g'.venue.alarms.pending, g'.venue.alarms.now < e.2 := by
  induction h with
  | quiet hnone => exact fun e he => Venue.now_lt_of_advance hnone he
  | round _ _ _ _ ih => exact ih

/-- In a reachable game the passing of time is never cut off: it ends when no alarm is due. -/
theorem Reachable.advance_exhausts (h : Reachable g) (hadvance : g.advance time = .ok g') :
    (∃ rung, Elapses g time rung g') ∧
      ∀ e ∈ g'.venue.alarms.pending, g'.venue.alarms.now < e.2 := by
  obtain ⟨rung, helapses⟩ := h.atRest.elapses hadvance
  exact ⟨⟨rung, helapses⟩, helapses.now_lt⟩

/-- At most two alarms are two at most. -/
theorem Pair.length_le (h : Pair rung) : rung.length ≤ 2 := by
  obtain ⟨claims, reports, rfl, hclaims, hreports, -⟩ := h
  rw [List.length_append]
  omega

/-- Where at most two alarms go off the bound on the rounds does not come in. -/
theorem Elapses.advance_eq (h : Elapses g time rung g') (hpair : Pair rung) :
    g.advance time = .ok g' :=
  h.advanceIn_eq (Nat.lt_of_le_of_lt hpair.length_le (Nat.lt_of_lt_of_le (by decide)
    (Nat.le_add_left 3 _)))

/-! ## The clock -/

/-- The game at another time. -/
def onClock (g : Game) (now : Nat) : Game := g.withAlarms { g.venue.alarms with now }

/-- The game at another time, when all its alarms have been handed out. -/
def handedOut (g : Game) (now : Nat) : Game :=
  g.withAlarms { g.venue.alarms with now, pending := [] }

/-- The game once no alarm is set any more, and its end was reported if it was to be. -/
def rungOut (g : Game) : Game :=
  { g with
    overAlarm := none
    venue := { g.venue with
      alarms := { g.venue.alarms with pending := [] }
      gameOvers := g.venue.gameOvers + g.overAlarm.isSome.toNat } }

/-- If no alarm is due nothing but the clock moves. -/
theorem elapses_quiet (hquiet : ∀ e ∈ g.venue.alarms.pending, g.venue.alarms.now + time < e.2)
    (hclock : g.venue.alarms.now + time < clockEnd) :
    Elapses g time [] (g.onClock (g.venue.alarms.now + time)) :=
  .quiet (Venue.advance_of_quiet hquiet hclock)

/-- If no alarm is set, and no time passes, nothing happens. -/
theorem elapses_still (hset : g.venue.alarms.pending = [])
    (hclock : g.venue.alarms.now < clockEnd) : Elapses g 0 [] g := by
  have hquiet : ∀ e ∈ g.venue.alarms.pending, g.venue.alarms.now + 0 < e.2 := by
    rw [hset]
    exact List.forall_mem_nil _
  exact elapses_quiet hquiet hclock

/-- If the only alarm is due it goes off. -/
theorem elapses_single {dueAt : Nat} (hset : g.venue.alarms.pending = [(id, dueAt)])
    (hdue : dueAt ≤ g.venue.alarms.now + time) (hclock : g.venue.alarms.now + time < clockEnd)
    (hexpire : (g.handedOut (g.venue.alarms.now + time)).expire id = .ok g₁)
    (hlater : Elapses g₁ 0 rung g') :
    Elapses g time ((g.handedOut (g.venue.alarms.now + time), id) :: rung) g' :=
  .round (Venue.advance_of_single hset hdue hclock) (List.cons_ne_nil _ _)
    (.cons hexpire (.nil g₁)) hlater

/-- Nothing goes off. -/
theorem pair_nil : Pair [] := ⟨[], [], rfl, Nat.zero_le _, Nat.zero_le _, by simp, by simp⟩

/-- To go on from a time when no alarm was due is to go on from before. -/
theorem advance_onClock {a b : Nat} :
    (g.onClock (g.venue.alarms.now + a)).advance b = g.advance (a + b) := by
  unfold advance advanceIn Venue.advance Alarms.advance Alarms.after
  simp only [onClock, withAlarms, Nat.add_assoc]

/-- Where no alarm is set, and no end is to be reported, there is nothing to be rung out. -/
theorem Unset.rungOut_eq (h : g.Unset) : g.rungOut = g := by
  obtain ⟨hpending, hover, -⟩ := h
  obtain ⟨⟨_, ⟨_, _, _⟩, _⟩, _, _, _, _, _, _, _, _, _, _, _, _⟩ := g
  cases hpending
  cases hover
  rfl

/-- Games that are alike are the same once no alarm is set any more, at the same time. -/
theorem Alike.rungOut_onClock {g' : Game} (h : Alike g g') (now : Nat) :
    g'.rungOut.onClock now = g.rungOut.onClock now := by
  obtain ⟨@⟨a, hnext, -, -⟩⟩ := h
  simp only [rungOut, onClock, withAlarms, movedTo, hnext]

/-! ## What goes off -/

/-- With no claim on top, nothing goes off but the report of the end. -/
theorem Timed.elapses_unclaimed (hg : g.Timed) (hsoon : g.ReportsSoon [])
    (hclaim : ∀ c below, g.stack.frames ≠ .claim c :: below)
    (hclock : g.venue.alarms.now + time < clockEnd) :
    ∃ reports, Elapses g time reports (g.rungOut.onClock (g.venue.alarms.now + time)) ∧
      reports.length ≤ 1 ∧ ∀ p ∈ reports, p.1.overAlarm = some p.2 := by
  cases hg with
  | unset hg =>
    refine ⟨[], ?_, Nat.zero_le _, List.forall_mem_nil _⟩
    rw [hg.rungOut_eq]
    refine elapses_quiet (fun e he => ?_) hclock
    rw [hg.pending] at he
    cases he
  | waiting hf => exact absurd hf (hclaim _ _)
  | @ended id due hf hid hpending =>
    obtain ⟨rings, hpast, hset⟩ := (hsoon id hid).resolve_right List.not_mem_nil
    rw [hpending, List.mem_singleton] at hset
    cases hset
    have hreport : (g.handedOut (g.venue.alarms.now + time)).expire id =
        .ok (g.rungOut.onClock (g.venue.alarms.now + time)) := by
      refine (if_pos hid).trans (congrArg Except.ok ?_)
      simp only [rungOut, onClock, hid]
      rfl
    have hlast := elapses_still (g := g.rungOut.onClock (g.venue.alarms.now + time)) rfl hclock
    refine ⟨_, elapses_single hpending (Nat.le_add_right_of_le hpast) hclock hreport hlast,
      Nat.le_refl 1, ?_⟩
    exact List.forall_mem_cons.2 ⟨hid, List.forall_mem_nil _⟩

/-- Once the time of the claim on top is over, it goes through, and what comes of the game does not
depend on when that is noticed. -/
theorem Punctual.elapses_claim (h : g.Punctual) (hf : g.stack.frames = .claim c :: below)
    {dueAt : Nat} (hset : (id, dueAt) ∈ g.venue.alarms.pending) :
    ∃ z : Game, z.venue.alarms.pending = [] ∧ ∀ time, dueAt ≤ g.venue.alarms.now + time →
      g.venue.alarms.now + time < clockEnd →
      ∃ rung, Elapses g time rung (z.onClock (g.venue.alarms.now + time)) ∧ Pair rung := by
  have hreach := h.reachable
  have hrest := hreach.atRest
  obtain ⟨id', due', hid, hpending, -⟩ := h.timed.of_claim hrest hf
  rw [hpending, List.mem_singleton] at hset
  cases hset
  obtain ⟨y, -, hy, hclaim, hsettles⟩ := hrest.resolve_settles hf hreach.now_lt
  refine ⟨y.rungOut, rfl, fun time hdue hclock => ?_⟩
  -- The claim goes through on the new clock, where it has no alarm any more.
  let x := g.handedOut (g.venue.alarms.now + time)
  have hx : x.AtRest := hrest.of_venue _
  obtain ⟨y', hy', halike⟩ := hsettles x.venue.alarms rfl hclock
  have hexpire : x.expire id = .ok y' := (hx.expire_alarm hf hid).trans hy'
  have hhanded := Venue.advance_of_single hpending hdue hclock
  have hsoon : x.ReportsSoon [id] := fun id' halarm =>
    .inr (hreach.reportsSoon.of_advance hhanded id' halarm)
  have hrests := expire_rests hx id
  rw [hexpire] at hrests
  obtain ⟨hrest', htable⟩ := hrests
  have hnow : y'.venue.alarms.now = g.venue.alarms.now + time := htable.now
  have htimed : y'.Timed := h.timed.expire_due hrest hpending rfl hexpire
  have hclaim' : y'.claim? = none := by
    cases halike
    exact hclaim
  have hclock' : y'.venue.alarms.now + 0 < clockEnd := hnow ▸ hclock
  obtain ⟨reports, helapses, hfew, hreports⟩ := htimed.elapses_unclaimed
    (hx.expire_reportsSoon hsoon hexpire) (fun _ _ => hrest'.top_ne_claim hclaim') hclock'
  rw [halike.rungOut_onClock, hnow] at helapses
  refine ⟨_, elapses_single hpending hdue hclock hexpire helapses, [(x, id)], reports, rfl,
    Nat.le_refl 1, hfew, ?_, hreports⟩
  exact List.forall_mem_cons.2 ⟨⟨c, below, hf, hid⟩, List.forall_mem_nil _⟩

/-- Once any alarm is due, what comes of the game does not depend on when that is noticed. -/
theorem Punctual.elapses_due (h : g.Punctual) {e : AlarmId × Nat}
    (hset : e ∈ g.venue.alarms.pending) :
    ∃ z : Game, z.venue.alarms.pending = [] ∧ ∀ time, e.2 ≤ g.venue.alarms.now + time →
      g.venue.alarms.now + time < clockEnd →
      ∃ rung, Elapses g time rung (z.onClock (g.venue.alarms.now + time)) ∧ Pair rung := by
  by_cases hclaim : ∃ c below, g.stack.frames = .claim c :: below
  · obtain ⟨c, below, hf⟩ := hclaim
    exact h.elapses_claim hf hset
  · refine ⟨g.rungOut, rfl, fun time _ hclock => ?_⟩
    obtain ⟨reports, helapses, hfew, hreports⟩ := h.timed.elapses_unclaimed h.reachable.reportsSoon
      (fun c below hf => hclaim ⟨c, below, hf⟩) hclock
    exact ⟨reports, helapses, [], reports, rfl, Nat.zero_le 1, hfew, List.forall_mem_nil _,
      hreports⟩

/-- Time passes, and at most two alarms go off. -/
theorem Punctual.elapses (h : g.Punctual) (hclock : g.venue.alarms.now + time < clockEnd) :
    ∃ rung g', Elapses g time rung g' ∧ Pair rung := by
  by_cases hdue : ∃ e ∈ g.venue.alarms.pending, e.2 ≤ g.venue.alarms.now + time
  · obtain ⟨e, hset, hdue⟩ := hdue
    obtain ⟨z, -, helapses⟩ := h.elapses_due hset
    obtain ⟨rung, helapses, hpair⟩ := helapses time hdue hclock
    exact ⟨rung, _, helapses, hpair⟩
  · have hquiet : ∀ e ∈ g.venue.alarms.pending, g.venue.alarms.now + time < e.2 :=
      fun e hset => Nat.not_le.1 fun hle => hdue ⟨e, hset, hle⟩
    exact ⟨[], _, elapses_quiet hquiet hclock, pair_nil⟩

/-- To let time pass twice is to let as much pass at once. -/
theorem Punctual.advance_add (h : g.Punctual) {a b : Nat}
    (hclock : g.venue.alarms.now + a + b < clockEnd) :
    ∃ g₁ g', g.advance a = .ok g₁ ∧ g₁.advance b = .ok g' ∧ g.advance (a + b) = .ok g' := by
  have hfirst : g.venue.alarms.now + a < clockEnd := Nat.lt_of_le_of_lt (Nat.le_add_right ..) hclock
  by_cases hdue : ∃ e ∈ g.venue.alarms.pending, e.2 ≤ g.venue.alarms.now + a
  · -- Everything goes off at first, and afterwards only the clock moves.
    obtain ⟨e, hset, hdue⟩ := hdue
    obtain ⟨z, hz, helapses⟩ := h.elapses_due hset
    obtain ⟨rung, hshort, hpair⟩ := helapses a hdue hfirst
    rw [Nat.add_assoc] at hclock
    obtain ⟨rung', hlong, hpair'⟩ := helapses (a + b)
      (Nat.le_trans hdue (Nat.add_le_add_left (Nat.le_add_right a b) _)) hclock
    refine ⟨_, _, hshort.advance_eq hpair, ?_, hlong.advance_eq hpair'⟩
    rw [← Nat.add_assoc] at hclock ⊢
    refine (elapses_quiet (fun e he => ?_) hclock).advance_eq pair_nil
    have he : e ∈ z.venue.alarms.pending := he
    rw [hz] at he
    cases he
  · -- At first only the clock moves.
    have hquiet : ∀ e ∈ g.venue.alarms.pending, g.venue.alarms.now + a < e.2 :=
      fun e hset => Nat.not_le.1 fun hle => hdue ⟨e, hset, hle⟩
    rw [Nat.add_assoc] at hclock
    obtain ⟨rung, g', hlong, hpair⟩ := h.elapses hclock
    have hlong := hlong.advance_eq hpair
    exact ⟨_, g', (elapses_quiet hquiet hfirst).advance_eq pair_nil, advance_onClock.trans hlong,
      hlong⟩

/-- As long as the clock does not end time passes, in finitely many rounds, in which at most two
alarms go off: that of the claim on top, and then the one that reports the end of the game. To let
time pass twice leads to the same game at the same venue as to let as much pass at once. -/
theorem Punctual.advance_additive (h : g.Punctual) :
    (∀ time, g.venue.alarms.now + time < clockEnd →
      ∃ rung g', Elapses g time rung g' ∧ Pair rung ∧ g.advance time = .ok g') ∧
    ∀ a b, g.venue.alarms.now + a + b < clockEnd →
      ∃ g₁ g', g.advance a = .ok g₁ ∧ g₁.advance b = .ok g' ∧ g.advance (a + b) = .ok g' := by
  refine ⟨fun time hclock => ?_, fun a b hclock => h.advance_add hclock⟩
  obtain ⟨rung, g', helapses, hpair⟩ := h.elapses hclock
  exact ⟨rung, g', helapses, hpair, helapses.advance_eq hpair⟩

/-- Bob has one card left, and Ada has claimed to assassinate him. When the time to object is over,
the game runs to its end, whether the clock is stopped on the way or not. -/
theorem advance_additive_assassinated : ∃ g,
    playOut ["Ada", "Bob"]
        { seed := some 0, startPlayer := some 1, variant := some .classic,
          cardOverrides := [.ambassador, .captain, .contessa, .contessa] }
        [.press 1 "tax", .press 0 "challenge", .press 1 "reveal:0", .press 0 "income",
          .press 1 "income", .press 0 "assassinate:1"] = some g ∧
      g.venue.alarms = { now := 0, next := 2, pending := [(1, 60 * second)] } ∧
      (∃ rung g', Elapses g (61 * second) rung g' ∧ Pair rung ∧
        g.advance (61 * second) = .ok g') ∧
      ∃ g₁ g', g.advance (59 * second) = .ok g₁ ∧ g₁.advance (2 * second) = .ok g' ∧
        g.advance (59 * second + 2 * second) = .ok g' := by
  have hrun : (playOut ["Ada", "Bob"]
      { seed := some 0, startPlayer := some 1, variant := some .classic,
        cardOverrides := [.ambassador, .captain, .contessa, .contessa] }
      [.press 1 "tax", .press 0 "challenge", .press 1 "reveal:0", .press 0 "income",
        .press 1 "income", .press 0 "assassinate:1"]).map (·.venue.alarms) =
      some { now := 0, next := 2, pending := [(1, 60 * second)] } := by
    decide +kernel
  obtain ⟨g, hg, halarms⟩ := Option.map_eq_some_iff.1 hrun
  obtain ⟨helapses, hadd⟩ := (punctual_of_playOut (by simp) hg).advance_additive
  rw [halarms] at helapses hadd
  exact ⟨g, hg, halarms, helapses _ (by decide), hadd _ _ (by decide)⟩

end Game

end CoupTable
