import CoupTable.Game.Status
import CoupTable.Proofs.Hands

/-!
# What the small steps of a game do

Each small step succeeds on a game that has what the step asks for, and then changes what it is
said to change and nothing else. The equations here give the game after the step as an update of
the game before it, so that whoever cites them does not open the step again.
-/

namespace CoupTable

/-! ## Results -/

/-- What follows a result gets it. -/
@[simp] theorem ok_bind {α β : Type} (a : α) (f : α → Except Fault β) :
    (Except.ok a >>= f) = f a := rfl

/-- A fault ends what would follow. -/
@[simp] theorem error_bind {α β : Type} (cause : Fault) (f : α → Except Fault β) :
    ((Except.error cause : Except Fault α) >>= f) = .error cause := rfl

/-- A result that follows something comes from a result of it. -/
theorem exists_ok_of_bind {α β : Type} {x : Except Fault α} {f : α → Except Fault β} {b : β}
    (h : (x >>= f) = .ok b) : ∃ a, x = .ok a ∧ f a = .ok b := by
  cases x with
  | error cause => cases h
  | ok a => exact ⟨a, rfl, h⟩

/-- A pure result is one without a fault. -/
@[simp] theorem pure_eq_ok {α : Type} (a : α) : (pure a : Except Fault α) = .ok a := rfl

/-! ## The venue -/

namespace Venue

/-- The venue after some more messages, the newest first. -/
def saying (v : Venue) (ms : List Message) : Venue := { v with outbox := ms ++ v.outbox }

/-- The venue without an alarm, if there is one. -/
def release (v : Venue) : Option AlarmId → Venue
  | some id => v.cancel id
  | none => v

/-- The venue with one more alarm. -/
def arming (v : Venue) (delay : Nat) : Venue :=
  { v with alarms := { v.alarms with
      next := v.alarms.next + 1
      pending := v.alarms.pending ++ [(v.alarms.next, v.alarms.now + delay)] } }

variable {v : Venue}

/-- No message changes nothing. -/
@[simp] theorem saying_nil : v.saying [] = v := rfl

/-- Messages after messages are all of them. -/
@[simp] theorem saying_saying (ms ms' : List Message) :
    (v.saying ms).saying ms' = v.saying (ms' ++ ms) := by
  simp [saying]

/-- A message leaves the alarms alone. -/
@[simp] theorem alarms_saying (ms : List Message) : (v.saying ms).alarms = v.alarms := rfl

/-- The clock does not move when an alarm is taken back. -/
@[simp] theorem now_release (id : Option AlarmId) : (v.release id).alarms.now = v.alarms.now := by
  cases id <;> rfl

/-- An alarm that is taken back keeps its number from being given out. -/
@[simp] theorem next_release (id : Option AlarmId) :
    (v.release id).alarms.next = v.alarms.next := by
  cases id <;> rfl

/-- An alarm is set as long as it falls due before the end of the clock. -/
theorem arm_eq {delay : Nat} (h : v.alarms.now + delay < clockEnd) :
    v.arm delay = .ok (v.alarms.next, v.arming delay) := by
  simp [arm, Alarms.arm, Alarms.after, h, arming]

/-- No alarm is set beyond the end of the clock. -/
theorem arm_eq_error {delay : Nat} (h : clockEnd ≤ v.alarms.now + delay) :
    v.arm delay = .error .clockOverflow := by
  simp [arm, Alarms.arm, Alarms.after, Nat.not_lt.2 h]

/-- Setting an alarm changes alarms only. -/
theorem eq_of_arm {delay : Nat} {armed : AlarmId × Venue} (h : v.arm delay = .ok armed) :
    ∃ a, armed.2 = { v with alarms := a } := by
  obtain ⟨alarms, -, h⟩ := exists_ok_of_bind h
  cases h
  exact ⟨alarms.2, rfl⟩

/-- Time passes as long as the clock does not end, and only the clock and its alarms change. -/
theorem advance_eq {delay : Nat} (h : v.alarms.now + delay < clockEnd) :
    ∃ due pending, v.advance delay = .ok (due, { v with
      alarms := { v.alarms with now := v.alarms.now + delay, pending } }) := by
  unfold advance Alarms.advance Alarms.after
  rw [if_pos h, ok_bind]
  exact ⟨_, _, rfl⟩

/-- No time passes beyond the end of the clock. -/
theorem advance_eq_error {delay : Nat} (h : clockEnd ≤ v.alarms.now + delay) :
    v.advance delay = .error .clockOverflow := by
  unfold advance Alarms.advance Alarms.after
  rw [if_neg (Nat.not_lt.2 h), error_bind, error_bind]

/-- Moving the clock changes alarms only, and does not end it. -/
theorem eq_of_advance {v' : Venue} {delay : Nat} {due : List AlarmId}
    (h : v.advance delay = .ok (due, v')) :
    ∃ a, v' = { v with alarms := a } ∧ a.now < clockEnd := by
  by_cases hclock : v.alarms.now + delay < clockEnd
  · obtain ⟨due', pending, hadvance⟩ := advance_eq hclock
    rw [hadvance] at h
    cases h
    exact ⟨_, rfl, hclock⟩
  · rw [advance_eq_error (Nat.not_lt.1 hclock)] at h
    cases h

end Venue

namespace Game

variable {g : Game} {seat other slot : Nat} {p q : Player}

/-! ## Messages -/

/-- The game after some more messages, the newest first. -/
def said (g : Game) (ms : List Message) : Game := { g with venue := g.venue.saying ms }

/-- A game after messages and more messages has had all of them. -/
@[simp] theorem said_said (g : Game) (ms ms' : List Message) :
    (g.said ms).said ms' = g.said (ms' ++ ms) := by
  simp [said]

/-- Telling everyone is one more message. -/
theorem broadcast_eq (g : Game) (text : String) (buttons : List Button) :
    g.broadcast text buttons = g.said [⟨.everyone, text, buttons⟩] := rfl

/-- Telling everyone is one more message. -/
theorem note_eq (g : Game) (text : String) : g.note text = g.said [⟨.everyone, text, []⟩] := rfl

/-- Telling a player is one more message. -/
theorem tell_eq (g : Game) (seat : Nat) (text : String) (buttons : List Button) :
    g.tell seat text buttons = g.said [⟨.player seat, text, buttons⟩] := rfl

/-! ## Players -/

/-- The player in a seat is there. -/
theorem player_eq (h : g.players[seat]? = some p) : g.player seat = .ok p := by
  simp [player, h]

/-- A player is changed in place. -/
theorem modifyPlayer_eq (h : g.players[seat]? = some p) (f : Player → Player) :
    g.modifyPlayer seat f = .ok { g with players := g.players.set seat (f p) } := by
  simp [modifyPlayer, player_eq h]

/-- A player gets coins. -/
theorem pay_eq (h : g.players[seat]? = some p) (coins : Nat) :
    g.pay seat coins =
      .ok { g with players := g.players.set seat { p with coins := p.coins + coins } } :=
  modifyPlayer_eq h _

/-- A player who has the coins is charged. -/
theorem charge_eq (h : g.players[seat]? = some p) {coins : Nat} (hc : coins ≤ p.coins) :
    g.charge seat coins =
      .ok { g with players := g.players.set seat { p with coins := p.coins - coins } } := by
  simp [charge, player_eq h, modifyPlayer_eq h, Nat.not_lt.2 hc]

/-- Whether the card in a slot of a seat is there and alive. -/
def livesAt (g : Game) (seat slot : Nat) : Bool := g.players[seat]?.any (·.hasLiving slot)

/-- A seat is alive as long as some slot of it is. -/
theorem isAlive_iff : g.isAlive seat = true ↔ ∃ slot, g.livesAt seat slot = true := by
  unfold isAlive livesAt
  cases g.players[seat]? with
  | none => simp
  | some p => simpa using Player.isAlive_iff

/-- Only seats at the table are alive. -/
theorem lt_of_isAlive (h : g.isAlive seat = true) : seat < g.players.length := by
  unfold isAlive at h
  cases hp : g.players[seat]? with
  | none => simp [hp] at h
  | some p => exact (List.getElem?_eq_some_iff.1 hp).1

/-- Somebody sits in every seat of the table. -/
theorem exists_player (h : seat < g.players.length) : ∃ p, g.players[seat]? = some p :=
  ⟨_, List.getElem?_eq_getElem h⟩

/-- A seat is alive when its player is. -/
theorem isAlive_eq (h : g.players[seat]? = some p) : g.isAlive seat = p.isAlive := by
  simp [isAlive, h]

/-- A slot of a seat is alive when it is in the player's hand. -/
theorem livesAt_eq (h : g.players[seat]? = some p) : g.livesAt seat slot = p.hasLiving slot := by
  simp [livesAt, h]

/-- The same slots are alive at two tables. -/
def SameLife (g g' : Game) : Prop := ∀ seat slot, g'.livesAt seat slot = g.livesAt seat slot

/-- With the same slots alive the same seats are. -/
theorem SameLife.isAlive_eq {g' : Game} (h : g.SameLife g') (seat : Nat) :
    g'.isAlive seat = g.isAlive seat := by
  rw [Bool.eq_iff_iff, isAlive_iff, isAlive_iff]
  simp only [h seat]

/-- Whoever is alive is alive at any table where the same slots are. -/
theorem SameLife.isAlive {g' : Game} (h : g.SameLife g') (hseat : g.isAlive seat = true) :
    g'.isAlive seat = true := by
  rw [h.isAlive_eq, hseat]

/-- With the same players the same slots are alive. -/
theorem SameLife.of_players_eq {g' : Game} (h : g'.players = g.players) : g.SameLife g' := by
  intro seat slot
  rw [livesAt, livesAt, h]

/-- Changing a player without touching who is alive keeps the same slots alive. -/
theorem SameLife.of_set {g' : Game} (hp : g.players[seat]? = some p)
    (hps : g'.players = g.players.set seat q) (h : ∀ slot, q.hasLiving slot = p.hasLiving slot) :
    g.SameLife g' := by
  intro other slot
  unfold livesAt
  rw [hps, List.getElem?_set]
  obtain ⟨hlt, hget⟩ := List.getElem?_eq_some_iff.1 hp
  by_cases heq : seat = other
  · subst heq
    simp [hlt, hget, h]
  · simp [heq]

/-- What happens to one player does not touch the life of another. -/
theorem isAlive_of_set {g' : Game} (hps : g'.players = g.players.set seat q) (hne : other ≠ seat) :
    g'.isAlive other = g.isAlive other := by
  unfold isAlive
  rw [hps, List.getElem?_set_ne (Ne.symm hne)]

/-- A player who is changed in place leaves what is listed of the players the same, as long as it is
the same for this one. -/
theorem map_set_eq {α : Type} {f : Player → α} {players : List Player}
    (hp : players[seat]? = some p) (h : f q = f p) :
    (players.set seat q).map f = players.map f := by
  apply List.ext_getElem?
  intro k
  obtain ⟨hlt, hget⟩ := List.getElem?_eq_some_iff.1 hp
  rw [List.getElem?_map, List.getElem?_map, List.getElem?_set]
  by_cases hk : seat = k
  · subst hk
    simp [hlt, hget, h]
  · simp [hk]

/-- Everybody has the same cards at two tables. -/
def SameCards (g g' : Game) : Prop := g'.players.map (·.cards) = g.players.map (·.cards)

/-- A player who is changed keeps the cards of everybody, as long as the own ones stay. -/
theorem map_cards_set {players : List Player} (hp : players[seat]? = some p)
    (h : q.cards = p.cards) : (players.set seat q).map (·.cards) = players.map (·.cards) :=
  map_set_eq hp h

namespace SameCards

variable {g' : Game}

/-- With the same cards there are as many players. -/
theorem length_eq (h : g.SameCards g') : g'.players.length = g.players.length := by
  simpa using congrArg List.length h

/-- With the same cards everybody has a hand of before. -/
theorem mem (h : g.SameCards g') (hp : p ∈ g'.players) : ∃ q ∈ g.players, q.cards = p.cards := by
  have hmem : p.cards ∈ g'.players.map (·.cards) := List.mem_map_of_mem hp
  rw [h] at hmem
  exact List.mem_map.1 hmem

/-- With the same cards the same slots are alive. -/
theorem sameLife (h : g.SameCards g') : g.SameLife g' := by
  intro seat slot
  have hseat := congrArg (fun hands => hands[seat]?) h
  simp only [List.getElem?_map] at hseat
  unfold livesAt Player.hasLiving
  cases hp : g.players[seat]? <;> cases hq : g'.players[seat]? <;> simp_all

/-- With the same cards the hands hold the same characters. -/
theorem characters_eq (h : g.SameCards g') :
    g'.players.flatMap (·.characters) = g.players.flatMap (·.characters) := by
  have hmap := congrArg (fun hands => hands.flatMap fun cards => cards.map (·.character)) h
  simp only [List.flatMap_map] at hmap
  exact hmap

end SameCards

/-! ## The stack and its alarms -/

/-- Taking back an alarm only touches the venue. -/
theorem cancelAlarm_eq (g : Game) (id : Option AlarmId) :
    g.cancelAlarm id = { g with venue := g.venue.release id } := by
  cases id <;> rfl

/-- A frame goes on top of a stack that is not full. -/
theorem push_eq (h : g.stack.frames.length < Stack.maxDepth) (f : Frame) :
    g.push f = .ok { g with stack := ⟨f :: g.stack.frames⟩ } := by
  simp [push, Stack.push, Stack.depth, h]

/-- Another frame comes in place of the one on top. -/
theorem setTop_eq {f : Frame} {below : List Frame} (h : g.stack.frames = f :: below)
    (f' : Frame) : g.setTop f' = { g with stack := ⟨f' :: below⟩ } := by
  simp [setTop, Stack.setTop, h]

/-- The frame on top comes off, and its alarm is taken back. -/
theorem pop_eq {f : Frame} {rest : List Frame} (h : g.stack.frames = f :: rest) :
    g.pop = .ok { g with venue := g.venue.release f.alarm, stack := ⟨rest⟩ } := by
  simp [pop, Stack.pop, h, cancelAlarm_eq]

/-! ## Cards -/

/-- Cards are drawn from the top as long as there are enough. -/
theorem drawMany_eq {drawn rest : List Character} (h : g.deck.cards = drawn ++ rest) :
    drawMany drawn.length g = .ok (drawn, { g with deck := ⟨rest⟩ }) := by
  induction drawn generalizing g with
  | nil =>
    simp only [List.nil_append] at h
    simp [drawMany, ← h]
  | cons c drawn ih =>
    have hdraw : g.draw = .ok (c, { g with deck := ⟨drawn ++ rest⟩ }) := by
      simp [draw, Deck.draw?, h]
    simp [drawMany, hdraw, ih]

section Mapped

variable (φ : Game → Game)

/-- Drawing passes on a change of the game that leaves the deck alone. -/
theorem draw_map (hdeck : ∀ g, (φ g).deck = g.deck)
    (hwith : ∀ (g : Game) deck, { φ g with deck } = φ { g with deck }) (g : Game) :
    (φ g).draw = (fun drawn => (drawn.1, φ drawn.2)) <$> g.draw := by
  unfold draw
  rw [hdeck]
  cases g.deck.draw? with
  | none => rfl
  | some drawn => exact congrArg (fun g => Except.ok (drawn.1, g)) (hwith g drawn.2)

/-- So does drawing several cards. -/
theorem drawMany_map (hdeck : ∀ g, (φ g).deck = g.deck)
    (hwith : ∀ (g : Game) deck, { φ g with deck } = φ { g with deck }) (n : Nat) (g : Game) :
    drawMany n (φ g) = (fun drawn => (drawn.1, φ drawn.2)) <$> drawMany n g := by
  induction n generalizing g with
  | zero => rfl
  | succ n ih =>
    simp only [drawMany, draw_map φ hdeck hwith, bind_map_left, map_bind, ih]
    rfl

end Mapped

/-! ## Passing the turn -/

/-- The next seat is one at the table. -/
theorem nextSeat_lt (h : g.current < g.players.length) : g.nextSeat < g.players.length := by
  unfold nextSeat
  cases hfind : ((List.range g.players.length).map fun k =>
      (g.current + 1 + k) % g.players.length).find? fun seat =>
        seat == g.current || g.isAlive seat with
  | none => simpa [hfind] using h
  | some next =>
    simp only [hfind, Option.getD_some]
    obtain ⟨k, -, rfl⟩ := List.mem_map.1 (List.mem_of_find?_eq_some hfind)
    exact Nat.mod_lt _ (by omega)

/-- Less than once round the table from a seat there is another one. -/
theorem way_ne {n d : Nat} (hseat : seat < n) (hd : 0 < d) (hlt : d < n) :
    (seat + d) % n ≠ seat := by
  by_cases hwrap : seat + d < n
  · rw [Nat.mod_eq_of_lt hwrap]
    omega
  · rw [Nat.mod_eq_sub_mod (Nat.not_lt.1 hwrap), Nat.mod_eq_of_lt (by omega)]
    omega

/-- Every seat lies on the way round the table from another one. -/
theorem exists_way {n : Nat} (hseat : seat < n) (hother : other < n) :
    ∃ d, 0 < d ∧ d ≤ n ∧ (seat + d) % n = other := by
  by_cases hle : other ≤ seat
  · refine ⟨n + other - seat, by omega, by omega, ?_⟩
    have heq : seat + (n + other - seat) = other + n := by omega
    rw [heq, Nat.add_mod_right, Nat.mod_eq_of_lt hother]
  · refine ⟨other - seat, by omega, by omega, ?_⟩
    have heq : seat + (other - seat) = other := by omega
    rw [heq, Nat.mod_eq_of_lt hother]

/-- The turn passes to the first living seat on the way round the table, which ends where it
began. -/
theorem nextSeat_eq (h : g.current < g.players.length) : ∃ d, 0 < d ∧ d ≤ g.players.length ∧
    g.nextSeat = (g.current + d) % g.players.length ∧
    (∀ e, 0 < e → e < d → g.isAlive ((g.current + e) % g.players.length) = false) ∧
    (d < g.players.length → g.isAlive g.nextSeat = true) := by
  unfold nextSeat
  dsimp only
  cases hfind : ((List.range g.players.length).map fun k =>
      (g.current + 1 + k) % g.players.length).find? fun seat =>
        seat == g.current || g.isAlive seat with
  | none =>
    -- The current seat is on the way, at the end of it.
    obtain ⟨d, hd, hle, hway⟩ := exists_way h h
    have hmem : g.current ∈ (List.range g.players.length).map fun k =>
        (g.current + 1 + k) % g.players.length := by
      refine List.mem_map.2 ⟨d - 1, List.mem_range.2 (by omega), ?_⟩
      rw [Nat.add_assoc, Nat.add_sub_cancel' hd, hway]
    have hnot := List.find?_eq_none.1 hfind g.current hmem
    simp at hnot
  | some next =>
    rw [Option.getD_some]
    obtain ⟨hnext, i, hi, hget, hbefore⟩ := List.find?_eq_some_iff_getElem.1 hfind
    simp only [List.length_map, List.length_range] at hi
    simp only [List.getElem_map, List.getElem_range] at hget hbefore
    rw [Nat.add_right_comm] at hget
    refine ⟨i + 1, Nat.succ_pos i, hi, hget.symm, fun e he hlt => ?_, fun hlt => ?_⟩
    · have hnot := hbefore (e - 1) (by omega)
      rw [Nat.add_assoc, Nat.add_sub_cancel' he, Bool.not_eq_true', Bool.or_eq_false_iff] at hnot
      exact hnot.2
    · rw [← hget]
      rw [← hget, Bool.or_eq_true, beq_iff_eq] at hnext
      exact hnext.resolve_left (way_ne h (Nat.succ_pos i) hlt)

/-- Where everybody is dead whom the way round the whole table passes, nobody but the current player
is alive. -/
theorem eq_current_of_round (h : g.current < g.players.length)
    (hround : ∀ e, 0 < e → e < g.players.length →
      g.isAlive ((g.current + e) % g.players.length) = false)
    (hseat : g.isAlive seat = true) : seat = g.current := by
  obtain ⟨d, hd, hle, hway⟩ := exists_way h (lt_of_isAlive hseat)
  rcases Nat.lt_or_eq_of_le hle with hlt | rfl
  · have hdead := hround d hd hlt
    rw [hway, hseat] at hdead
    cases hdead
  · rw [← hway, Nat.add_mod_right, Nat.mod_eq_of_lt h]

/-- The turn passes to a living player as long as there is one. -/
theorem isAlive_nextSeat (h : g.current < g.players.length)
    (hlives : ∃ seat, g.isAlive seat = true) : g.isAlive g.nextSeat = true := by
  obtain ⟨seat, hseat⟩ := hlives
  obtain ⟨d, -, hle, hnext, hskipped, hfound⟩ := nextSeat_eq h
  rcases Nat.lt_or_eq_of_le hle with hlt | rfl
  · exact hfound hlt
  · rw [Nat.add_mod_right, Nat.mod_eq_of_lt h] at hnext
    rw [hnext, ← eq_current_of_round h hskipped hseat, hseat]

/-- The turn stays with a player only if nobody else is alive. -/
theorem eq_current_of_nextSeat (h : g.current < g.players.length) (hsame : g.nextSeat = g.current)
    (hseat : g.isAlive seat = true) : seat = g.current := by
  obtain ⟨d, hd, hle, hnext, hskipped, -⟩ := nextSeat_eq h
  have hround : d = g.players.length :=
    (Nat.lt_or_eq_of_le hle).resolve_left fun hlt => way_ne h hd hlt (hnext.symm.trans hsame)
  exact eq_current_of_round h (hround ▸ hskipped) hseat

end Game

end CoupTable
