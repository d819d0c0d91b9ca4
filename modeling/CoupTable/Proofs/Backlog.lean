import CoupTable.Proofs.Elsewhere

/-!
# Messages that were sent before

No game looks at the messages that were sent so far. So a game to which some were sent before any
others goes on as it would without them, and has them before all others still (`Unmoved`): its venue
with them and its venue without them are tied, and whatever is steady there is unmoved.
-/

namespace CoupTable

namespace Venue

variable {past : List Message} {v : Venue}

/-- The venue with some messages sent before all others, the newest first. -/
def following (past : List Message) (v : Venue) : Venue := { v with outbox := v.outbox ++ past }

/-- The other venue is the same, with some messages sent before. -/
def Trails (past : List Message) (v v' : Venue) : Prop := v' = v.following past

/-- An alarm is set whatever was sent before. -/
theorem arm_following (delay : Nat) : (v.following past).arm delay =
    (fun armed => (armed.1, armed.2.following past)) <$> v.arm delay := by
  change (v.alarms.arm delay >>= _) = _ <$> (v.alarms.arm delay >>= _)
  cases v.alarms.arm delay <;> rfl

/-- The clock moves whatever was sent before. -/
theorem advance_following (delay : Nat) : (v.following past).advance delay =
    (fun moved => (moved.1, moved.2.following past)) <$> v.advance delay := by
  change (v.alarms.advance delay >>= _) = _ <$> (v.alarms.advance delay >>= _)
  cases v.alarms.advance delay <;> rfl

/-- What comes of a result with messages sent before agrees with it. -/
theorem both_trails {α : Type} (result : Except Fault (α × Venue)) :
    Both (Beside (Trails past)) result
      ((fun made => (made.1, made.2.following past)) <$> result) := by
  cases result with
  | ok made => exact .ok (.intro made.1 rfl)
  | error cause => exact .error cause

/-- Messages that were sent before are no matter, not even as time passes. -/
instance clockTie_trails (past : List Message) : ClockTie (Trails past) where
  send := by
    rintro v _ rfl m
    rfl
  cancel := by
    rintro v _ rfl id
    rfl
  arm := by
    rintro v _ rfl
    exact arm_following 0 ▸ both_trails _
  armLater := by
    rintro v _ rfl delay
    exact arm_following delay ▸ both_trails _
  advance := by
    rintro v _ rfl delay
    exact advance_following delay ▸ both_trails _
  reportOver := by
    rintro v _ rfl
    rfl

end Venue

namespace Game

/-- The game with some messages sent before all others, the newest first. -/
def following (past : List Message) (g : Game) : Game :=
  { g with venue := g.venue.following past }

/-- The game without the messages sent so far. -/
def quiet (g : Game) : Game := { g with venue := g.venue.clear }

/-- Of two results the second is the first, with some messages sent before. -/
def Follows (past : List Message) (result result' : Except Fault Game) : Prop :=
  result' = (·.following past) <$> result

/-- The function does the same whatever was sent before. -/
def Unmoved (F : Game → Except Fault Game) : Prop :=
  ∀ past g, Follows past (F g) (F (g.following past))

/-- Results that agree at venues of which one trails messages are the same but for these. -/
theorem follows_of_both {past : List Message} {x x' : Except Fault Game}
    (h : Both (Elsewhere (Venue.Trails past)) x x') : Follows past x x' := by
  cases h with
  | ok helsewhere =>
    obtain ⟨rfl⟩ := helsewhere
    rfl
  | error cause => rfl

/-- What is steady does the same whatever was sent before. -/
theorem Unmoved.of_steady {F : Game → Except Fault Game}
    (h : ∀ past, Steady (Venue.Trails past) F) : Unmoved F :=
  fun past _ => follows_of_both (h past rfl)

/-- Whatever comes in does the same whatever was sent before. -/
theorem unmoved_feed (i : Input) : Unmoved (·.feed i) := .of_steady fun _ => steady_feed i

/-- So does a run of inputs. -/
theorem unmoved_feedAll (inputs : List Input) : Unmoved (·.feedAll inputs) :=
  .of_steady fun _ => .foldlM steady_feed inputs

end Game

end CoupTable
