import CoupTable.Game.Moves
import CoupTable.Transcript.Event

/-!
# Random play

Games played by pressing buttons at random, and now and then letting time run out. Any generator
will do that can be asked for a chance and for a number (`Generator`).
-/

namespace CoupTable

/-- What random play asks of a generator. -/
class Generator (R : Type) where
  /-- Whether an event with one chance in five happens. -/
  oneInFive : R → Bool × R
  /-- A uniform number below a limit. -/
  below : R → Nat → Nat × R
  /-- The number is below the limit. -/
  below_lt (rng : R) {n : Nat} (hn : 0 < n) : (below rng n).1 < n

/-- The generator of the game does. -/
instance : Generator Pcg where
  oneInFive := Pcg.oneInFive
  below := Pcg.below
  below_lt := Pcg.below_lt

/-- A member of a list, each with the same chance. -/
def Generator.pick {R α : Type} [Generator R] (rng : R) (l : List α) (hl : l ≠ []) : α × R :=
  let drawn := below rng l.length
  (l.get ⟨drawn.1, below_lt rng (List.length_pos_iff.2 hl)⟩, drawn.2)

/-- What is picked from a list is a member of it. -/
theorem Generator.pick_mem {R α : Type} [Generator R] (rng : R) {l : List α} (hl : l ≠ []) :
    (pick rng l hl).1 ∈ l :=
  List.get_mem l _

namespace Game

variable {R : Type} [Generator R]

/-- Makes one random move: presses one of the buttons that the game waits for or, while an alarm is
set, sometimes lets time run out. Gives what was done, the game and the generator. -/
def randomStep (g : Game) (rng : R) : Except Fault (Event × Game × R) := do
  let waiting := !g.venue.alarms.pending.isEmpty
  let wait (rng : R) : Except Fault (Event × Game × R) := do
    let after ← g.advance g.waitTime
    return (.wait g.waitTime, after, rng)
  if hmoves : g.moves = [] then wait rng
  else
    -- the chance is drawn only where there is something to wait for
    let (idles, rng) := if waiting then Generator.oneInFive rng else (false, rng)
    if idles then wait rng
    else
      let ((seat, m), rng) := Generator.pick rng g.moves hmoves
      let after ← g.play seat m
      return (.press seat m.data, after, rng)

/-- Plays random moves until somebody wins, but at most `maxMoves`. Messages are forgotten on the
way. Gives the winner, the game and the generator. -/
def simulate : Nat → Game → R → Except Fault (Option Nat × Game × R)
  | 0, g, rng => .ok (none, g, rng)
  | maxMoves + 1, g, rng => do
    if g.isOver then
      let g ← g.advance 0
      return (g.winner?, g, rng)
    else
      let (_, g, rng) ← g.randomStep rng
      simulate maxMoves { g with venue := g.venue.clear } rng

end Game

end CoupTable
