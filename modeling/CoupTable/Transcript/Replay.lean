import CoupTable.Game.Run
import CoupTable.Transcript.Event

/-!
# Replaying a transcript

Fed into a game that was set up in the same way, a transcript leads to the same game.
-/

namespace CoupTable

/-- Feeds an event into a game. One that lacks what its kind needs is skipped. -/
def Event.replay (g : Game) (e : Event) : Except Fault Game :=
  match e.kind, e.player, e.data, e.millis with
  | .press, some seat, some data, _ => g.press seat data
  | .wait, _, _, some millis => g.advance (millis * millisecond)
  | _, _, _, _ => .ok g

/-- Feeds the events of a transcript into a game. -/
def Game.replay (g : Game) (t : Transcript) : Except Fault Game :=
  t.foldlM Event.replay g

end CoupTable
