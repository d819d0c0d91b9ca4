import CoupTable.Proofs.Runs

/-!
# Events

Every input comes down to events of three kinds: the clock moves on, the end of the game is
reported, or the frame on top takes a step for a press or an alarm and the game settles. What a new
game has and every event keeps, all reachable games have (`Reachable.induction`).
-/

namespace CoupTable.Game

variable {g g' : Game} {P : Game → Prop} {cause : Cause} {i : Input} {names : List String}
  {s : Settings}

/-- What happens to a game at rest, one thing at a time. -/
inductive Happening (g : Game) : Game → Prop where
  /-- The clock moves on, and alarms that became due are set no longer. -/
  | clock {time due venue} (h : g.venue.advance time = .ok (due, venue)) :
    Happening g { g with venue }
  /-- The end of the game is reported. -/
  | report {id} (h : g.overAlarm = some id) :
    Happening g { g with overAlarm := none, venue := g.venue.reportOver }
  /-- The frame on top takes a step for a press or an alarm, and the game settles. -/
  | step {cause g₁ g'} (hstep : Step g cause g₁) (hcause : cause ≠ .idle)
      (hover : g.isOver = false) (hsound : g₁.Sound) (hsettles : Settles g₁ g') : Happening g g'

/-- Only a frame that waits for something takes a step for an alarm. -/
theorem Step.isOver_of_alarm {id : AlarmId} (h : g.Sound) (hstep : Step g (.alarm id) g') :
    g.isOver = false := by
  cases hstep with
  | timeOut hf => exact h.isOver_eq_false hf nofun

section Induction

variable (hevent : ∀ g g', g.AtRest → P g → Happening g g' → P g')
include hevent

/-- What every event keeps an alarm keeps. -/
theorem AtRest.expire_induction {id : AlarmId} (h : g.AtRest) (hg : P g)
    (hexpire : g.expire id = .ok g') : P g' := by
  rcases expire_cases h hexpire with ⟨halarm, rfl⟩ | rfl | ⟨g₁, hstep, hsound, hsettles⟩
  · exact hevent _ _ h hg (.report halarm)
  · exact hg
  · have hover := hstep.isOver_of_alarm h.toSound
    exact hevent _ _ h hg (.step hstep nofun hover hsound hsettles)

/-- What every event keeps every input keeps. -/
theorem AtRest.feed_induction (h : g.AtRest) (hg : P g) (hfeed : g.feed i = .ok g') : P g' := by
  cases i with
  | press seat data =>
    rcases press_cases h hfeed with ⟨rfl, -⟩ | ⟨m, g₁, -, hover, -, hstep, hsound, hsettles⟩
    · exact hg
    · exact hevent _ _ h hg (.step hstep nofun hover hsound hsettles)
  | expire id => exact h.expire_induction hevent hg hfeed
  | advance time =>
    -- That the game is at rest is carried along, since what happens next depends on it.
    have hrests : g'.AtRest ∧ P g' := by
      refine advanceIn_induction (P := fun x => x.AtRest ∧ P x) ?_ ?_ h ⟨h, hg⟩ hfeed
      · rintro x time due venue ⟨hx, hpx⟩ hdue
        exact ⟨hx.of_venue venue, hevent _ _ hx hpx (.clock hdue)⟩
      · rintro x x' id hx ⟨-, hpx⟩ hexpire
        exact ⟨hx.feed (i := .expire id) hexpire, hx.expire_induction hevent hpx hexpire⟩
    exact hrests.2

/-- What new games have and every event keeps, all reachable games have. -/
theorem Reachable.induction
    (hstart : ∀ names s entropy g, refusal? names s = none → Begun names s entropy g → P g)
    (h : Reachable g) : P g := by
  induction h with
  | started h =>
    obtain ⟨hrefusal, hbegun⟩ := begun_of_start h
    exact hstart _ _ _ _ hrefusal hbegun
  | fed hg hfeed ih => exact hg.atRest.feed_induction hevent ih hfeed

end Induction

/-- Frames that go on by themselves leave the seats and the clock alone. -/
theorem Settles.sameTable (hsettles : Settles g g') (h : g.Sound) : g.SameTable g' := by
  induction hsettles with
  | rest => exact .refl _
  | go hstirred hidle _ ih =>
    obtain ⟨hidled, hsound⟩ := h.idled hstirred hidle
    have htable := hidled.step.sameTable h.hush
    exact SameTable.trans ⟨htable.seats, htable.now, htable.waitTime⟩ (ih hsound)

/-- The clock of a reachable game has not ended. -/
theorem Reachable.now_lt (h : Reachable g) : g.venue.alarms.now < clockEnd := by
  refine h.induction (P := fun x => x.venue.alarms.now < clockEnd) (fun x x' hx hnow hevent => ?_)
    fun names s entropy x _ hbegun => ?_
  · cases hevent with
    | clock hdue =>
      obtain ⟨a, rfl, hnow'⟩ := Venue.eq_of_advance hdue
      exact hnow'
    | report => exact hnow
    | step hstep _ _ hsound hsettles =>
      rw [(hsettles.sameTable hsound).now, (hstep.sameTable hx.toSound).now]
      exact hnow
  · have hstart : 0 < clockEnd := by decide
    cases hbegun <;> exact hstart

end CoupTable.Game
