import CoupTable.Proofs.Running

/-!
# Alarms from step to step

Alarms are numbered in the order in which they are set, so that an alarm that was taken back or has
gone off does not come back: what is set later under a number that was given out before has been set
all along (`Alarms.Follows`). No step of a game does otherwise, and neither does the passing of
time.
-/

namespace CoupTable

namespace Alarms

variable {a a' a'' : Alarms}

/-- The alarms `a'` may come after the alarms `a`. -/
structure Follows (a a' : Alarms) : Prop where
  /-- Numbers are given out in their order. -/
  next_le : a.next ≤ a'.next
  /-- What is set under an old number has been set all along, for the same time. -/
  kept : ∀ e ∈ a'.pending, e.1 < a.next → e ∈ a.pending

namespace Follows

/-- Alarms may stay as they are. -/
theorem refl (a : Alarms) : Follows a a := ⟨Nat.le_refl _, fun _ he _ => he⟩

/-- What comes after later alarms comes after earlier ones. -/
theorem trans (h : Follows a a') (h' : Follows a' a'') : Follows a a'' :=
  ⟨Nat.le_trans h.next_le h'.next_le, fun e he hlt =>
    h.kept e (h'.kept e he (Nat.lt_of_lt_of_le hlt h.next_le)) hlt⟩

end Follows

end Alarms

namespace Venue

variable {v v' : Venue}

/-- An alarm may be taken back. -/
theorem follows_release (v : Venue) (id : Option AlarmId) :
    v.alarms.Follows (v.release id).alarms := by
  cases id with
  | none => exact .refl _
  | some id => exact ⟨Nat.le_refl _, fun e he _ => List.mem_of_mem_filter he⟩

/-- An alarm may be set, which gets a new number. -/
theorem follows_arming (v : Venue) (delay : Nat) : v.alarms.Follows (v.arming delay).alarms := by
  refine ⟨Nat.le_succ _, fun e he hlt => ?_⟩
  rcases List.mem_append.1 he with hold | hnew
  · exact hold
  · cases List.mem_singleton.1 hnew
    exact absurd hlt (Nat.lt_irrefl _)

/-- Where no alarm is set there is none to be taken back. -/
theorem pending_release_of_nil (h : v.alarms.pending = []) (id : Option AlarmId) :
    (v.release id).alarms.pending = [] := by
  cases id with
  | none => exact h
  | some id => simp [release, cancel, Alarms.cancel, h]

/-- An alarm that is set where there is none is the only one. -/
theorem pending_arming_of_nil (h : v.alarms.pending = []) (delay : Nat) :
    (v.arming delay).alarms.pending = [(v.alarms.next, v.alarms.now + delay)] := by
  rw [arming, h]
  rfl

/-- When the clock moves on, the alarms that are due by then are handed out, and the others stay
set. -/
theorem of_advance {delay : Nat} {due : List AlarmId} (h : v.advance delay = .ok (due, v')) :
    ∃ now, now = v.alarms.now + delay ∧ v' = { v with alarms := { v.alarms with
        now, pending := v.alarms.pending.filter fun e => !decide (e.2 ≤ now) } } ∧
      due.Perm ((v.alarms.pending.filter fun e => decide (e.2 ≤ now)).map (·.1)) := by
  unfold advance Alarms.advance at h
  obtain ⟨⟨due', alarms⟩, hadvance, h⟩ := exists_ok_of_bind h
  obtain ⟨now, hafter, hadvance⟩ := exists_ok_of_bind hadvance
  rw [List.partition_eq_filter_filter] at hadvance
  cases h
  cases hadvance
  have hnow : now = v.alarms.now + delay := by
    unfold Alarms.after at hafter
    split at hafter
    next => exact (Except.ok.inj hafter).symm
    next => cases hafter
  exact ⟨now, hnow, rfl, (List.mergeSort_perm ..).map _⟩

/-- When the clock moves on, an alarm is due, or it stays set for a time that is yet to come. -/
theorem due_or_kept {delay : Nat} {due : List AlarmId} {e : AlarmId × Nat}
    (h : v.advance delay = .ok (due, v')) (he : e ∈ v.alarms.pending) :
    e.1 ∈ due ∨ e ∈ v'.alarms.pending ∧ v.alarms.now < e.2 := by
  obtain ⟨now, hnow, rfl, hperm⟩ := of_advance h
  by_cases hpast : e.2 ≤ now
  · refine .inl (hperm.mem_iff.2 (List.mem_map.2 ⟨e, List.mem_filter.2 ⟨he, ?_⟩, rfl⟩))
    exact decide_eq_true hpast
  · refine .inr ⟨List.mem_filter.2 ⟨he, by simpa using hpast⟩, ?_⟩
    exact Nat.lt_of_le_of_lt (hnow ▸ Nat.le_add_right ..) (Nat.not_le.1 hpast)

/-- When the clock has moved on and nothing was due, all alarms are yet to come. -/
theorem now_lt_of_advance {delay : Nat} (h : v.advance delay = .ok ([], v'))
    {e : AlarmId × Nat} (he : e ∈ v'.alarms.pending) : v'.alarms.now < e.2 := by
  obtain ⟨now, -, rfl, -⟩ := of_advance h
  simpa using (List.mem_filter.1 he).2

/-- As long as the clock stands still, no alarm that was left becomes due. -/
theorem due_eq_nil {w w' : Venue} {delay : Nat} {due due' : List AlarmId}
    (h : v.advance delay = .ok (due, v')) (halarms : w.alarms = v'.alarms)
    (h' : w.advance 0 = .ok (due', w')) : due' = [] := by
  obtain ⟨now, -, rfl, -⟩ := of_advance h
  obtain ⟨now', rfl, -, hperm⟩ := of_advance h'
  rw [halarms, List.filter_filter] at hperm
  simpa using hperm

/-- The clock may move on. -/
theorem follows_advance {delay : Nat} {due : List AlarmId}
    (h : v.advance delay = .ok (due, v')) : v.alarms.Follows v'.alarms := by
  obtain ⟨now, -, rfl, -⟩ := of_advance h
  exact ⟨Nat.le_refl _, fun e he _ => List.mem_of_mem_filter he⟩

end Venue

namespace Game

variable {g g' : Game} {effect : Effect} {seat choice : Nat} {r : Reveal} {c : Claim}
  {below : List Frame} {cause : Cause}

/-- A claim that goes through sets no alarm. -/
theorem Grant.follows (h : Grant g seat effect g') : g.venue.alarms.Follows g'.venue.alarms := by
  cases h with
  | @block _ _ ms | @blockKill _ _ ms => exact Venue.follows_release (g.venue.saying ms) _
  | _ => exact .refl _

/-- An answer sets no alarm. -/
theorem Answer.follows (h : Answer g r c below choice g') :
    g.venue.alarms.Follows g'.venue.alarms := by
  cases h with
  | proven | shown => exact .refl _
  | @caught _ _ _ ms | @conceded ms => exact Venue.follows_release (g.venue.saying ms) _

/-- No step gives a number out twice. -/
theorem Step.follows (h : g.Sound) (hstep : Step g cause g') :
    g.venue.alarms.Follows g'.venue.alarms := by
  cases hstep with
  | deal hf _ hdeal =>
    obtain ⟨built, ms', -, rfl⟩ := h.of_deal hf hdeal
    exact .refl _
  | acceptLast _ _ hgrant | unopposed _ _ hgrant =>
    exact (Venue.follows_release _ _).trans hgrant.follows
  | timeOut _ _ hgrant => exact hgrant.follows
  | answer _ hanswer | answerLast _ _ _ _ hanswer => exact hanswer.follows
  | challenge | block | dropDead => exact Venue.follows_release _ _
  | finish => exact Venue.follows_arming (g.venue.saying _) _
  | ask => exact (Venue.follows_release _ _).trans (Venue.follows_arming _ _)
  | _ => exact .refl _

/-- Frames that go on by themselves give no number out twice. -/
theorem Settles.follows (hsettles : Settles g g') (h : g.Sound) :
    g.venue.alarms.Follows g'.venue.alarms := by
  induction hsettles with
  | rest => exact .refl _
  | go hstirred hidle _ ih =>
    obtain ⟨hidled, hsound⟩ := h.idled hstirred hidle
    exact (hidled.step.follows h.hush).trans (ih hsound)

end Game

end CoupTable
