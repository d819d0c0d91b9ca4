import CoupTable.Session
import CoupTable.Proofs.Backlog
import CoupTable.Proofs.Choices
import CoupTable.Proofs.Lines

/-!
# Recorded games are replayed

Whatever came into a game was recorded as an event, by random play as well as in a session
(`Game.Records`). Replayed, the event comes into the game as it did before, and a table of such
events is read as it was written. A session forgets its messages as it prints them, which makes no
difference to what happens afterwards (`Game.Unmoved`), so that its games are those of the replay
but for the messages of earlier lines (`Session.Tracks`).
-/

namespace CoupTable

open Text (decode? wordLimit)

variable {g g' g₀ last : Game} {e : Event} {i : Input} {past : List Message} {s s' : Session}
  {line : Line} {lines : List (List UInt8)} {out : String}

/-! ## Events -/

namespace Game

/-- The event is recorded as the input comes into the game. -/
inductive Records (g : Game) : Event → Input → Prop where
  /-- The time for objections passes. -/
  | wait : Records g (.wait g.waitTime) (.advance g.waitTime)
  /-- A player whose seat is a word presses something. -/
  | press {seat : Nat} {data : String} (hseat : seat < wordLimit) (hdata : data ≠ "") :
    Records g (.press seat data) (.press seat data)

/-- The game is at rest, and the table waits for whole milliseconds, not more than a word can
hold. -/
structure IsRecordable (g : Game) : Prop where
  /-- The game is at rest. -/
  atRest : g.AtRest
  /-- The time for objections can be recorded. -/
  millis : ∃ n < wordLimit, g.waitTime = n * millisecond

namespace IsRecordable

/-- A game stays recordable whatever happens to the venue. -/
theorem of_venue (h : g.IsRecordable) (venue : Venue) : IsRecordable { g with venue } :=
  ⟨h.atRest.of_venue venue, h.millis⟩

/-- Whatever comes in leaves a game recordable. -/
theorem feed (h : g.IsRecordable) (hfeed : g.feed i = .ok g') : g'.IsRecordable :=
  ⟨h.atRest.feed hfeed, h.atRest.waitTime_of_feed hfeed ▸ h.millis⟩

/-- A new game is recordable. -/
theorem of_start {names : List String} {s : Settings} {entropy : Pcg}
    (hstart : start names s entropy = .ok g)
    (hwait : s.waitMillis < wordLimit) : g.IsRecordable := by
  obtain ⟨-, hbegun⟩ := begun_of_start hstart
  refine ⟨(rests_of_start hstart).1, s.waitMillis, hwait, ?_⟩
  cases hbegun <;> rfl

end IsRecordable

/-- A recorded event has what its kind needs, and can be read. -/
theorem Records.isReadable (h : g.Records e i) : e.isWellFormed = true ∧ e.IsReadable := by
  cases h with
  | wait => exact ⟨rfl, Event.isReadable_wait _⟩
  | press hseat hdata => exact ⟨rfl, Event.isReadable_press hseat hdata⟩

/-- A recorded event is replayed as the input that was recorded. -/
theorem Records.replay_eq (h : g.Records e i) (hg : g.IsRecordable) : e.replay g = g.feed i := by
  cases h with
  | wait =>
    obtain ⟨n, hn, hwait⟩ := hg.millis
    have hmillis : g.waitTime / millisecond % wordLimit * millisecond = g.waitTime := by
      rw [hwait, Nat.mul_div_cancel _ (by decide), Nat.mod_eq_of_lt hn]
    exact congrArg g.advance hmillis
  | press hseat hdata => rfl

end Game

/-- Replaying an event is unmoved by what was sent before. -/
theorem Event.unmoved_replay (e : Event) : Game.Unmoved (Event.replay · e) := by
  intro past g
  unfold Event.replay
  dsimp only
  split
  next seat data _ _ _ => exact Game.unmoved_feed (.press seat data) past g
  next millis _ _ => exact Game.unmoved_feed (.advance _) past g
  next => rfl

/-- An event that is replayed comes in as some input, unless it is skipped. -/
theorem Event.replay_cases (g : Game) (e : Event) :
    (∃ i, e.replay g = g.feed i) ∨ e.replay g = .ok g := by
  unfold Event.replay
  split
  next seat data _ _ _ => exact .inl ⟨.press seat data, rfl⟩
  next millis _ _ => exact .inl ⟨.advance (millis * millisecond), rfl⟩
  next => exact .inr rfl

/-! ## Transcripts -/

namespace Game

/-- An event is replayed before those that follow. -/
theorem replay_cons (g : Game) (e : Event) (t : Transcript) :
    g.replay (e :: t) = e.replay g >>= fun g => g.replay t :=
  List.foldlM_cons

/-- Transcripts are replayed one after the other. -/
theorem replay_append (g : Game) (t t' : Transcript) :
    g.replay (t ++ t') = g.replay t >>= fun g => g.replay t' :=
  List.foldlM_append

/-- A replay leaves a game recordable, or meets the end of the clock. -/
theorem IsRecordable.replay (h : g.IsRecordable) (t : Transcript) :
    (∀ g', g.replay t = .ok g' → g'.IsRecordable) ∧
      ∀ fault, g.replay t = .error fault → fault = .clockOverflow := by
  induction t generalizing g with
  | nil =>
    refine ⟨fun g' hreplay => ?_, fun fault hreplay => nomatch hreplay⟩
    cases hreplay
    exact h
  | cons e t ih =>
    rw [replay_cons]
    rcases Event.replay_cases g e with ⟨i, hi⟩ | hskip
    · rw [hi]
      cases hfeed : g.feed i with
      | error fault =>
        refine ⟨fun g' hreplay => (nomatch hreplay), fun fault' hreplay => ?_⟩
        cases hreplay
        exact h.atRest.eq_clockOverflow hfeed
      | ok g₁ => exact ih (h.feed hfeed)
    · rw [hskip]
      exact ih h

end Game

/-! ## Random play -/

/-- No button is without data. -/
theorem Move.data_ne_empty (m : Move) : m.data ≠ "" := by
  have hcommand : m.command ≠ "" := by
    cases m <;> exact of_decide_eq_true rfl
  unfold data
  split
  · simp [String.append_eq_empty_iff, hcommand]
  · exact hcommand

namespace Game

variable {R : Type} [Generator R]

/-- Makes some random moves, one after the other. Gives what was done, the game and the
generator. -/
def ramble : Nat → Game → R → Except Fault (Transcript × Game × R)
  | 0, g, rng => .ok ([], g, rng)
  | moves + 1, g, rng => do
    let (e, g, rng) ← g.randomStep rng
    let (t, g, rng) ← ramble moves g rng
    return (e :: t, g, rng)

/-- A random move is some input, and gives the event that records it. -/
theorem randomStep_eq (h : g.AtRest) (rng : R) : ∃ e i rng', g.Records e i ∧
    g.randomStep rng = (fun after => (e, after, rng')) <$> g.feed i := by
  unfold randomStep
  extract_lets waiting wait
  have hwait : ∀ rng, ∃ e i rng', g.Records e i ∧
      wait rng = (fun after => (e, after, rng')) <$> g.feed i :=
    fun rng => ⟨_, _, rng, .wait, bind_pure_comp _ _⟩
  split
  next => exact hwait rng
  next hmoves =>
    -- What the generator draws makes no difference.
    generalize (if waiting = true then Generator.oneInFive rng else (false, rng)) = chance
    split
    next idles rng =>
      split
      next => exact hwait rng
      next =>
        have hmem := Generator.pick_mem rng hmoves
        generalize Generator.pick rng g.moves hmoves = picked at hmem ⊢
        obtain ⟨⟨seat, m⟩, rng⟩ := picked
        have hfew : maxPlayers < wordLimit := by decide
        have hword : seat < wordLimit :=
          Nat.lt_trans (Nat.lt_of_lt_of_le (h.lt_of_mem_moves hmem) h.seats) hfew
        exact ⟨_, _, _, .press hword m.data_ne_empty, bind_pure_comp _ _⟩

/-- Inputs that came in one after the other, and were recorded. -/
inductive Recorded : Game → Transcript → Game → Prop
  /-- None. -/
  | nil {g : Game} : Recorded g [] g
  /-- One before others. -/
  | cons {g g₁ g' : Game} {e : Event} {i : Input} {t : Transcript} (hrecords : g.Records e i)
    (hfeed : g.feed i = .ok g₁) (h : Recorded g₁ t g') : Recorded g (e :: t) g'

/-- Recorded events can be read, and are replayed as they came in. -/
theorem Recorded.replay_eq {t : Transcript} (h : Recorded g t g') (hg : g.IsRecordable) :
    (∀ e ∈ t, e.isWellFormed = true ∧ e.IsReadable) ∧ g.replay t = .ok g' := by
  induction h with
  | nil => exact ⟨List.forall_mem_nil _, rfl⟩
  | @cons g g₁ g' e i t hrecords hfeed _ ih =>
    obtain ⟨hreadable, hreplay⟩ := ih (hg.feed hfeed)
    refine ⟨List.forall_mem_cons.2 ⟨hrecords.isReadable, hreadable⟩, ?_⟩
    calc g.replay (e :: t)
        = e.replay g >>= fun g => g.replay t := replay_cons g e t
      _ = g₁.replay t := by rw [hrecords.replay_eq hg, hfeed, ok_bind]
      _ = .ok g' := hreplay

/-- Random play is recorded by the events that it gives. It stops for no other fault than the end of
the clock. -/
theorem AtRest.ramble (h : g.AtRest) (moves : Nat) (rng : R) :
    (∀ fault, g.ramble moves rng = .error fault → fault = .clockOverflow) ∧
      ∀ t g' rng', g.ramble moves rng = .ok (t, g', rng') → Recorded g t g' := by
  induction moves generalizing g rng with
  | zero =>
    refine ⟨fun fault hplay => (nomatch hplay), fun t g' rng' hplay => ?_⟩
    cases hplay
    exact .nil
  | succ moves ih =>
    obtain ⟨e, i, rng₁, hrecords, hstep⟩ := randomStep_eq h rng
    unfold Game.ramble
    rw [hstep]
    cases hfeed : g.feed i with
    | error fault =>
      refine ⟨fun fault' hplay => ?_, fun t g' rng' hplay => nomatch hplay⟩
      cases hplay
      exact h.eq_clockOverflow hfeed
    | ok g₁ =>
      -- The event of the first move comes before those of the rest, if the rest is there.
      obtain ⟨hfault, hplays⟩ := ih (h.feed hfeed) rng₁
      change (∀ fault, (g₁.ramble moves rng₁ >>= _) = _ → _) ∧
        ∀ t g' rng', (g₁.ramble moves rng₁ >>= _) = _ → _
      constructor
      · intro fault hplay
        cases hrest : g₁.ramble moves rng₁ with
        | error fault' =>
          rw [hrest] at hplay
          cases hplay
          exact hfault _ hrest
        | ok rest =>
          rw [hrest] at hplay
          cases hplay
      · intro t g' rng' hplay
        obtain ⟨⟨t₁, g₂, rng₂⟩, hrest, hplay⟩ := exists_ok_of_bind hplay
        cases hplay
        exact .cons hrecords hfeed (hplays _ _ _ hrest)

/-- Random play leads to the same game as the events that it gives, all of which can be read. It
stops for no other fault than the end of the clock. -/
theorem IsRecordable.ramble (h : g.IsRecordable) (moves : Nat) (rng : R) :
    (∀ fault, g.ramble moves rng = .error fault → fault = .clockOverflow) ∧
      ∀ t g' rng', g.ramble moves rng = .ok (t, g', rng') →
        (∀ e ∈ t, e.isWellFormed = true ∧ e.IsReadable) ∧ g.replay t = .ok g' := by
  obtain ⟨hfault, hrecorded⟩ := h.atRest.ramble moves rng
  exact ⟨hfault, fun t g' rng' hplay => (hrecorded t g' rng' hplay).replay_eq h⟩

end Game

/-! ## Sessions -/

namespace Game

/-- The game with some messages sent and no others, the oldest first. -/
def hearing (g : Game) (messages : List Message) : Game :=
  { g with venue := { g.venue with outbox := messages.reverse } }

/-- The messages of the game as they are printed. -/
def printed (g : Game) : String := String.join (g.venue.messages.map (messageText g))

end Game

/-- What is said about a line that neither presses something nor is known otherwise. -/
def Line.complaint : Line → String
  | incomplete => "expected \"<player> <button data>\", \"wait\" or \"quit\"\n"
  | noPlayer word => Text.quote word ++ " is not a player number\n"
  | _ => ""

namespace Session

/-- The game after a line, before its messages are printed and forgotten. -/
def after (s : Session) : Line → Except Fault Game
  | .wait => s.game.advance s.game.waitTime
  | .press seat data => s.game.press seat data
  | _ => .ok s.game

/-- The lines that a session takes in, with the game after each of them. Its messages are those that
the line brings about. -/
def stages (s : Session) : List (List UInt8) → List (Line × Game)
  | [] => []
  | line :: lines =>
    if s.ended then []
    else match decode? line with
      | none => []
      | some line =>
        match s.after (.ofString line), s.enter (.ofString line) with
        | .ok g, .ok (_, s) => (.ofString line, g) :: s.stages lines
        | _, _ => []

/-- The games of a session: the one that it begins with, and those after each line. -/
def games (first : Game) (s : Session) (lines : List (List UInt8)) : List Game :=
  first :: (s.stages lines).map (·.2)

/-- The game that a session ends with, before the end of the game is reported. -/
def lastGame (first : Game) (s : Session) (lines : List (List UInt8)) : Game :=
  (s.games first lines).getLast (List.cons_ne_nil _ _)

/-- All messages of a session. -/
def heard (first : Game) (s : Session) (lines : List (List UInt8)) : List Message :=
  (s.games first lines).flatMap (·.venue.messages)

/-- What is printed at the lines of a session. -/
def answers (s : Session) (lines : List (List UInt8)) : String :=
  String.join ((s.stages lines).map fun stage => stage.2.printed ++ stage.1.complaint)

/-- The session recorded what leads from one game to another one, if some messages are sent before.
It has that game without messages, unless the end of the game was reported meanwhile. -/
structure Tracks (g₀ : Game) (past : List Message) (last : Game) (s : Session) : Prop where
  /-- The record leads to the game. -/
  replay : g₀.replay s.recorded.reverse = .ok (last.following past)
  /-- The record can be written and read. -/
  events : ∀ e ∈ s.recorded, e.isWellFormed = true ∧ e.IsReadable
  /-- What comes in can be recorded. -/
  recordable : last.IsRecordable
  /-- The session has the game. -/
  game : s.game = last.quiet ∨
    (s.ended = true ∧ last.isOver = true ∧ last.quiet.advance 0 = .ok s.game)

/-- What comes of an event in a session. -/
theorem afterEvent_eq (s : Session) (g : Game) (e : Event) : s.afterEvent g e =
    if g.isOver then g.quiet.advance 0 >>= fun game =>
      .ok (g.printed, { game, recorded := e :: s.recorded, ended := true })
    else .ok (g.printed, { game := g.quiet, recorded := e :: s.recorded, ended := s.ended }) :=
  rfl

/-- What comes of a line: the clock ends, or the messages that the line brings about are printed,
and the session tracks the game after it. -/
def Answers (g₀ : Game) (past : List Message) (s : Session) (line : Line) :
    Except Fault (String × Session) → Prop
  | .error fault => fault = .clockOverflow
  | .ok (out, s') =>
    ∃ g, s.after line = .ok g ∧ out = g.printed ++ line.complaint ∧ Tracks g₀ past g s'

namespace Tracks

/-- A session that goes on has the game without messages. -/
theorem game_eq (h : Tracks g₀ past last s) (hended : s.ended = false) : s.game = last.quiet := by
  obtain hgame | ⟨hover, -⟩ := h.game
  · exact hgame
  · cases hended.symm.trans hover

/-- A line that is no input leaves the game as it is. -/
theorem skip (h : Tracks g₀ past last s) (hgame : s.game = last.quiet)
    (hafter : s.after line = .ok s.game) (ended : Bool) :
    Answers g₀ (last.venue.outbox ++ past) s line (.ok (line.complaint, { s with ended })) := by
  have hprinted : line.complaint = s.game.printed ++ line.complaint := by
    rw [hgame]
    exact String.empty_append.symm
  refine ⟨s.game, hafter, hprinted, ?_, h.events, hgame ▸ h.recordable.of_venue _, .inl ?_⟩
  · rw [hgame]
    exact h.replay
  · rw [hgame]
    rfl

/-- An event that is recorded leads on from the game as it does in the replay. -/
theorem replay_event (h : Tracks g₀ past last s) (hgame : s.game = last.quiet)
    (hrecords : s.game.Records e i) (hfeed : s.game.feed i = .ok g) :
    g₀.replay (e :: s.recorded).reverse = .ok (g.following (last.venue.outbox ++ past)) := by
  have hrecordable : s.game.IsRecordable := hgame ▸ h.recordable.of_venue _
  -- The session has forgotten its messages, which the replay still has before the new ones.
  have hpast : last.following past = s.game.following (last.venue.outbox ++ past) := by
    rw [hgame]
    rfl
  calc g₀.replay (e :: s.recorded).reverse
      = e.replay (s.game.following (last.venue.outbox ++ past)) := by
        rw [List.reverse_cons, Game.replay_append, h.replay, ok_bind, hpast, Game.replay_cons]
        exact bind_pure _
    _ = (·.following (last.venue.outbox ++ past)) <$> e.replay s.game := e.unmoved_replay _ _
    _ = .ok (g.following (last.venue.outbox ++ past)) := by
        rw [hrecords.replay_eq hrecordable, hfeed]
        rfl

/-- An input that is recorded comes in as it does in the replay. -/
theorem event (h : Tracks g₀ past last s) (hgame : s.game = last.quiet)
    (hrecords : s.game.Records e i) (hafter : s.after line = s.game.feed i)
    (hcomplaint : line.complaint = "") :
    Answers g₀ (last.venue.outbox ++ past) s line
      (s.game.feed i >>= fun g => s.afterEvent g e) := by
  have hrecordable : s.game.IsRecordable := hgame ▸ h.recordable.of_venue _
  cases hfeed : s.game.feed i with
  | error fault => exact hrecordable.atRest.eq_clockOverflow hfeed
  | ok g =>
    have hg := hrecordable.feed hfeed
    have hreplay := h.replay_event hgame hrecords hfeed
    have hevents : ∀ e' ∈ e :: s.recorded, e'.isWellFormed = true ∧ e'.IsReadable :=
      List.forall_mem_cons.2 ⟨hrecords.isReadable, h.events⟩
    have hprinted : g.printed = g.printed ++ line.complaint := by
      rw [hcomplaint, String.append_empty]
    rw [ok_bind, afterEvent_eq]
    cases hover : g.isOver with
    | false => exact ⟨g, hafter.trans hfeed, hprinted, hreplay, hevents, hg, .inl rfl⟩
    | true =>
      -- The end is reported after the event, and what the report brings about is not recorded.
      rw [if_pos rfl]
      cases hend : g.quiet.advance 0 with
      | error fault =>
        exact (hg.of_venue g.venue.clear).atRest.eq_clockOverflow (i := .advance 0) hend
      | ok game =>
        exact ⟨g, hafter.trans hfeed, hprinted, hreplay, hevents, hg, .inr ⟨rfl, hover, hend⟩⟩

/-- Every line comes in as it does in the replay, if at all. -/
theorem enter (h : Tracks g₀ past last s) (hended : s.ended = false) (text : String) :
    Answers g₀ (last.venue.outbox ++ past) s (.ofString text) (s.enter (.ofString text)) := by
  have hgame := h.game_eq hended
  cases hline : Line.ofString text with
  | blank | quit | incomplete | noPlayer word => exact h.skip hgame rfl _
  | wait => exact h.event hgame .wait rfl rfl
  | press seat data =>
    obtain ⟨hseat, hdata⟩ := Line.eq_press hline
    exact h.event hgame (.press hseat hdata) rfl rfl

end Tracks

/-- Nothing is taken in after the end of a session. -/
theorem stages_of_ended (hended : s.ended = true) (lines : List (List UInt8)) :
    s.stages lines = [] := by
  cases lines with
  | nil => rfl
  | cons line lines => exact if_pos hended

/-- A line is taken in before those that follow. -/
theorem stages_cons {bytes : List UInt8} {text : String} (hended : s.ended = false)
    (htext : decode? bytes = some text) (hafter : s.after (.ofString text) = .ok g)
    (henter : s.enter (.ofString text) = .ok (out, s')) (lines : List (List UInt8)) :
    s.stages (bytes :: lines) = (.ofString text, g) :: s'.stages lines := by
  rw [stages, hended, if_neg Bool.false_ne_true, htext]
  dsimp only
  rw [hafter, henter]

/-- What comes of several lines: the clock ends, or what is to be printed at them is, and the
session tracks its last game, before which all other messages were sent. -/
def Completes (g₀ : Game) (past : List Message) (first : Game) (s : Session)
    (lines : List (List UInt8)) (out : String) : String × Except Refusal Session → Prop
  | (_, .error reason) => reason = .fault .clockOverflow
  | (out', .ok s') => out' = out ++ s.answers lines ∧
    ∃ past', Tracks g₀ past' (s.lastGame first lines) s' ∧
      (s.lastGame first lines).venue.outbox ++ past' = (s.heard first lines).reverse ++ past

/-- A session that takes in nothing more has come to its end. -/
theorem Tracks.completes (h : Tracks g₀ past last s) (hnone : s.stages lines = []) (out : String) :
    Completes g₀ past last s lines out (out, .ok s) := by
  have hgames : s.games last lines = [last] := by rw [games, hnone, List.map_nil]
  have hlast : s.lastGame last lines = last := by
    simp only [lastGame, hgames, List.getLast_singleton]
  refine ⟨?_, past, hlast.symm ▸ h, ?_⟩
  · rw [answers, hnone]
    exact String.append_empty.symm
  · rw [hlast, heard, hgames]
    simp [Venue.messages]

/-- After the first line a session goes on from the game after that line. -/
theorem Completes.of_cons {bytes : List UInt8} {result : String × Except Refusal Session}
    (hstages : s.stages (bytes :: lines) = (line, g) :: s'.stages lines)
    (h : Completes g₀ (last.venue.outbox ++ past) g s' lines
      (out ++ (g.printed ++ line.complaint)) result) :
    Completes g₀ past last s (bytes :: lines) out result := by
  obtain ⟨out', _ | s''⟩ := result
  · exact h
  · have hgames : s.games last (bytes :: lines) = last :: s'.games g lines := by
      rw [games, hstages]
      rfl
    have hlast : s.lastGame last (bytes :: lines) = s'.lastGame g lines := by
      simp only [lastGame, hgames]
      exact List.getLast_cons _
    have hheard : s.heard last (bytes :: lines) = last.venue.messages ++ s'.heard g lines := by
      rw [heard, hgames]
      exact List.flatMap_cons
    have hanswers : s.answers (bytes :: lines)
        = g.printed ++ line.complaint ++ s'.answers lines := by
      rw [answers, hstages]
      exact String.join_cons
    obtain ⟨hout, past', htracks, hpast⟩ := h
    refine ⟨?_, past', hlast.symm ▸ htracks, ?_⟩
    · rw [hout, hanswers, String.append_assoc]
    · rw [hlast, hpast, hheard, List.reverse_append, Venue.messages, List.reverse_reverse,
        List.append_assoc]

/-- Line by line the session goes on as the replay of its record does, and prints all messages but
those of the game that it begins with. -/
theorem Tracks.enterAll (h : Tracks g₀ past last s)
    (hlines : ∀ line ∈ lines, ∃ text, decode? line = some text) (out : String) :
    Completes g₀ past last s lines out (s.enterAll out lines) := by
  -- What the session tracks carries the induction: with each line the messages of the game before
  -- it join those of the past.
  induction lines generalizing s last past out with
  | nil => exact h.completes rfl out
  | cons bytes lines ih =>
    obtain ⟨⟨text, htext⟩, hlines⟩ := List.forall_mem_cons.1 hlines
    unfold Session.enterAll
    cases hended : s.ended with
    | true => exact h.completes (stages_of_ended hended _) out
    | false =>
      have hanswers := h.enter hended text
      rw [if_neg Bool.false_ne_true, htext]
      dsimp only
      cases henter : s.enter (.ofString text) with
      | error fault =>
        rw [henter] at hanswers
        exact congrArg Refusal.fault hanswers
      | ok result =>
        obtain ⟨more, s'⟩ := result
        rw [henter] at hanswers
        obtain ⟨g, hafter, rfl, htracks⟩ := hanswers
        exact (ih htracks hlines _).of_cons (stages_cons hended htext hafter henter lines)

/-! ## The result -/

/-- The record of a session that begins with a game reproduces the session. -/
structure Reproduces (g₀ first : Game) (s : Session) (lines : List (List UInt8)) (out : String)
    (s' : Session) : Prop where
  /-- All messages are printed, and what is to be said about lines. -/
  printed : out = first.printed ++ s.answers lines
  /-- The record is read as it was written. -/
  readBack : Transcript.read (Transcript.write s'.recorded.reverse) = .ok s'.recorded.reverse
  /-- The record leads from a new game to the last game of the session, all of whose messages are
  sent, in the same order, and no others. -/
  replay : g₀.replay s'.recorded.reverse
    = .ok ((s.lastGame first lines).hearing (s.heard first lines))
  /-- The session has that game too, unless its end was reported after the last line. -/
  game : s'.game = (s.lastGame first lines).quiet ∨
    (s'.ended = true ∧ (s.lastGame first lines).isOver = true ∧
      (s.lastGame first lines).quiet.advance 0 = .ok s'.game)

/-- A session that tracks its games all the way is reproduced by its record. -/
theorem Completes.reproduces (h : Completes g₀ [] last s lines last.printed (out, .ok s')) :
    Reproduces g₀ last s lines out s' := by
  obtain ⟨hout, past, htracks, hpast⟩ := h
  have hgame : (s.lastGame last lines).following past
      = (s.lastGame last lines).hearing (s.heard last lines) := by
    unfold Game.following Venue.following Game.hearing
    rw [hpast, List.append_nil]
  refine ⟨hout, Transcript.read_write_of_isReadable fun e he => ?_, ?_, htracks.game⟩
  · exact htracks.events e (List.mem_reverse.1 he)
  · rw [htracks.replay, hgame]

end Session

/-- Recorded games are replayed. However many random moves are made in a new game, and whatever is
drawn for them, a table of the events is read as it was written, and leads from a new game to the
same game with the same messages. So does the record of a session of any lines, be they presses that
the game waits for, presses that it ignores or no presses at all, and whether or not it began with
another transcript that could be read: the replay comes to the last game of the session, with all
the messages that were printed. Neither meets any other fault than the end of the clock. -/
theorem recorded_games_replay {names : List String} {settings : Settings} {entropy : Pcg}
    (hstart : Game.start names settings entropy = .ok g₀)
    (hwait : settings.waitMillis < wordLimit) :
    (∀ (R : Type) [Generator R] (moves : Nat) (rng : R),
      (∀ fault, g₀.ramble moves rng = .error fault → fault = .clockOverflow) ∧
      ∀ t g rng', g₀.ramble moves rng = .ok (t, g, rng') →
        Transcript.read (Transcript.write t) = .ok t ∧ g₀.replay t = .ok g) ∧
    ∀ bytes t lines, Transcript.read bytes = .ok t →
      (∀ line ∈ lines, ∃ text, decode? line = some text) →
      (∀ fault, g₀.replay t = .error fault → fault = .clockOverflow) ∧
      ∀ first, g₀.replay t = .ok first → ∃ s, Session.start g₀ t = .ok (first.printed, s) ∧
        (∀ out reason, s.enterAll first.printed lines = (out, .error reason) →
          reason = .fault .clockOverflow) ∧
        ∀ out s', s.enterAll first.printed lines = (out, .ok s') →
          Session.Reproduces g₀ first s lines out s' := by
  have hg₀ := Game.IsRecordable.of_start hstart hwait
  constructor
  · intro R _ moves rng
    obtain ⟨hfault, hplays⟩ := hg₀.ramble moves rng
    refine ⟨hfault, fun t g rng' hplay => ?_⟩
    obtain ⟨hreadable, hreplay⟩ := hplays t g rng' hplay
    exact ⟨Transcript.read_write_of_isReadable hreadable, hreplay⟩
  · intro bytes t lines hread hlines
    obtain ⟨hrecordable, hfault⟩ := hg₀.replay t
    refine ⟨hfault, fun first hfirst => ?_⟩
    have hbegins : Session.start g₀ t
        = .ok (first.printed, { game := first.quiet, recorded := t.reverse }) := by
      unfold Session.start
      rw [hfirst]
      rfl
    have htracks : Session.Tracks g₀ [] first { game := first.quiet, recorded := t.reverse } := by
      refine ⟨?_, fun e he => ?_, hrecordable first hfirst, .inl rfl⟩
      · rw [List.reverse_reverse, hfirst, Game.following, Venue.following, List.append_nil]
      · exact Transcript.isReadable_of_read hread e (List.mem_reverse.1 he)
    have hcompletes := htracks.enterAll hlines first.printed
    refine ⟨_, hbegins, fun out reason hall => ?_, fun out s' hall => ?_⟩
    · rw [hall] at hcompletes
      exact hcompletes
    · rw [hall] at hcompletes
      exact hcompletes.reproduces

/-- Ada takes tax, Bob types something that is no button before he accepts, somebody mistypes a
line, and the time for objections passes. Four events are recorded, with what Bob typed, and the
replay leads to the same game with the same messages. Three random moves are replayed as well. -/
theorem recorded_games_replay_mistyped : ∃ lines g₀ s out s' t g rng,
    lines = ["0 tax", " 1  \"no, thanks\" ", "1 accept", "hm", "wait"].map Text.encode ∧
    Game.start ["Ada", "Bob"]
        { seed := some 0, startPlayer := some 0, variant := some .classic } = .ok g₀ ∧
    s.enterAll g₀.printed lines = (out, .ok s') ∧
    s'.recorded.reverse = [.press 0 "tax", .press 1 "\"no, thanks\"", .press 1 "accept",
      .wait 60000000000] ∧
    Session.Reproduces g₀ g₀ s lines out s' ∧
    g₀.ramble 3 (Pcg.ofSeed 5) = .ok (t, g, rng) ∧
    t = [.press 0 "foreign_aid", .press 1 "block", .press 0 "accept"] ∧
    Transcript.read (Transcript.write t) = .ok t ∧ g₀.replay t = .ok g := by
  obtain ⟨lines, hlines⟩ : ∃ lines, lines =
    ["0 tax", " 1  \"no, thanks\" ", "1 accept", "hm", "wait"].map Text.encode := ⟨_, rfl⟩
  have hplay : ((Game.start ["Ada", "Bob"]
      { seed := some 0, startPlayer := some 0, variant := some .classic }).toOption.bind fun g₀ =>
        (Session.start g₀ []).toOption.bind fun begun =>
          (begun.2.enterAll begun.1 lines).2.toOption.bind fun s' =>
            (g₀.ramble 3 (Pcg.ofSeed 5)).toOption.map fun played => (s'.recorded.reverse, played.1))
      = some ([.press 0 "tax", .press 1 "\"no, thanks\"", .press 1 "accept", .wait 60000000000],
        [.press 0 "foreign_aid", .press 1 "block", .press 0 "accept"]) := by
    subst hlines
    decide +kernel
  have hdecoded : ∀ line ∈ lines, ∃ text, decode? line = some text := by
    intro line hline
    rw [hlines] at hline
    obtain ⟨text, -, rfl⟩ := List.mem_map.1 hline
    exact ⟨text, Text.decode?_encode text⟩
  obtain ⟨g₀, hg₀, hplay⟩ := Option.bind_eq_some_iff.1 hplay
  obtain ⟨⟨out₁, s⟩, hs, hplay⟩ := Option.bind_eq_some_iff.1 hplay
  obtain ⟨s', hs', hplay⟩ := Option.bind_eq_some_iff.1 hplay
  obtain ⟨⟨t, g, rng⟩, hramble, hplay⟩ := Option.map_eq_some_iff.1 hplay
  obtain ⟨hrecorded, hrandom⟩ := Prod.mk.inj hplay
  have hstart := Game.eq_ok_of_toOption hg₀
  have hmoves := Game.eq_ok_of_toOption hramble
  obtain ⟨hplays, hsessions⟩ := recorded_games_replay hstart (by decide)
  obtain ⟨hread, hreplay⟩ := (hplays Pcg 3 (.ofSeed 5)).2 t g rng hmoves
  obtain ⟨s₁, hbegins, -, hsession⟩ := (hsessions [] [] lines rfl hdecoded).2 g₀ rfl
  cases (Game.eq_ok_of_toOption hs).symm.trans hbegins
  obtain ⟨out, hall⟩ : ∃ out, s.enterAll g₀.printed lines = (out, .ok s') :=
    ⟨_, Prod.ext rfl (Game.eq_ok_of_toOption hs')⟩
  exact ⟨lines, g₀, s, out, s', t, g, rng, hlines, hstart, hall, hrecorded, hsession _ _ hall,
    hmoves, hrandom, hread, hreplay⟩

end CoupTable
