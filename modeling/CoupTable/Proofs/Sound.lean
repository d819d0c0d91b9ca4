import CoupTable.Proofs.Pool
import CoupTable.Proofs.Shape

/-!
# Sound games

What holds of a game at any time, also while frames go on by themselves: the table has between two
and six seats, the stack has one of its shapes, everybody stores two cards once they are dealt, and
all cards together are a full deck. `Sound` says so, and `AtRest` adds what holds between two
inputs.
-/

namespace CoupTable.Game

/-- What holds of a game at any time. -/
structure Sound (g : Game) : Prop where
  /-- There are enough players. -/
  few : minPlayers ≤ g.players.length
  /-- There are not too many players. -/
  seats : g.players.length ≤ maxPlayers
  /-- The current player sits at the table. -/
  current : g.current < g.players.length
  /-- The stack has one of its shapes. -/
  shape : g.Shape g.stack.frames
  /-- Everybody stores two cards. -/
  hands : g.variant ≠ none → ∀ p ∈ g.players, p.cards.length = handSize
  /-- The cards are those of a full deck. -/
  pool : ∀ v, g.variant = some v → g.pool.Perm (Deck.full v.cast)
  /-- As long as the variant is open nothing else happens. -/
  undealt : g.variant = none → g.stack.frames = [.variantChoice, .turn] ∧
    ∀ p ∈ g.players, p.cards = [] ∧ p.coins = startCoins
  /-- Once the game is over nothing goes on. -/
  ended : g.isOver = true → g.stack.frames = [.turn] ∧ g.stirred = false
  /-- The end is reported after the game is over. -/
  overAlarm : g.overAlarm ≠ none → g.isOver = true

/-- The player in a seat has more than one living card to choose from, or none. -/
def HasChoice (g : Game) (seat : Nat) : Prop :=
  ∀ p, g.players[seat]? = some p → p.livingCount ≠ 1

/-- The frame `f`, being on top, does not go on without an input. -/
def Waits (g : Game) : Frame → Prop
  | .turn => g.isAlive g.current = true
  | .variantChoice | .exchange _ => True
  | .loss seat => g.HasChoice seat
  | .claim c => c.alarm ≠ none ∧ g.isAccepted c = false
  | .reveal r => r.inverted = false → g.HasChoice r.challenged
  | .interrogation i => i.shown = none → g.HasChoice i.target

/-- The frame on top does not go on without an input. -/
def Waiting (g : Game) : Prop := ∀ f below, g.stack.frames = f :: below → g.Waits f

/-- What holds of a game between two inputs. -/
structure AtRest (g : Game) : Prop extends g.Sound where
  /-- Nothing happened that the frame on top has not seen. -/
  still : g.stirred = false
  /-- The frame on top needs somebody. -/
  waiting : g.Waiting

variable {g g' : Game} {c : Claim} {f : Frame} {frames below : List Frame}

/-! ## Waiting -/

/-- A game waits if the frame on top does. -/
theorem Waits.waiting (h : g.Waits f) (hf : g.stack.frames = f :: below) : g.Waiting := by
  intro f' below' hf'
  rw [hf] at hf'
  cases hf'
  exact h

/-- What a frame waits for depends on the players, the turn and the variant alone. -/
theorem Waits.congr (h : g.Waits f) (hplayers : g'.players = g.players)
    (hcurrent : g'.current = g.current) (hvariant : g'.variant = g.variant) : g'.Waits f := by
  obtain ⟨venue, rng, players, deck, stack, current, variant, treasury, stirred, waitTime,
    overrides, overAlarm, isOver⟩ := g'
  dsimp only at hplayers hcurrent hvariant
  subst hplayers hcurrent hvariant
  cases f <;> exact h

/-- At the beginning of a turn, whoever may choose what to do is alive. -/
theorem AtRest.awake (h : g.AtRest) (hf : g.stack.frames = .turn :: below) :
    g.isAlive g.current = true :=
  h.waiting _ _ hf

/-! ## Seats -/

/-- Every frame names players at the table. -/
theorem Pending.actor_lt (h : g.Pending c below) : c.actor < g.players.length :=
  lt_of_isAlive h.isAlive_actor

/-- The current player sits at the table in any shape that is about a claim. -/
theorem Sound.exists_current (h : g.Sound) : ∃ p, g.players[g.current]? = some p :=
  exists_player h.current

/-- The frames on the stack have one of the shapes. -/
theorem Sound.shape_of (h : g.Sound) (hf : g.stack.frames = frames) : g.Shape frames := hf ▸ h.shape

/-- Once something other than the variant is open, the variant is chosen. -/
theorem Sound.variant_ne_none (h : g.Sound) (hf : g.stack.frames = f :: below)
    (hne : f ≠ .variantChoice) : g.variant ≠ none := by
  intro hv
  have hframes := (h.undealt hv).1
  rw [hf] at hframes
  exact hne (List.cons.inj hframes).1

/-- A player at a table with a variant stores two cards. -/
theorem Sound.length_hand (h : g.Sound) (hv : g.variant ≠ none) {seat : Nat} {p : Player}
    (hp : g.players[seat]? = some p) : p.cards.length = handSize :=
  h.hands hv p (List.mem_of_getElem? hp)

/-! ## Exchanges on the stack -/

/-- There is no exchange below a pending claim. -/
theorem Pending.exchangeIn_below (h : g.Pending c below) : exchangeIn below = none := by
  cases h <;> rfl

/-- Below the frame on top there is no exchange. -/
theorem Shape.exchangeIn_below (h : g.Shape (f :: below)) : exchangeIn below = none := by
  cases h with
  | asked h | challenged h | upheld h => exact h.exchangeIn_below
  | _ => rfl

/-- An exchange under way is the current player's, and lies on the turn. -/
theorem Shape.of_exchangeIn {e : Exchange} (h : g.Shape frames)
    (he : exchangeIn frames = some e) : frames = [.exchange e, .turn] ∧ e.player = g.current ∧
      e.hand.length < handSize ∧ e.hand.length + e.offered.length = handSize + g.exchangeDraw := by
  cases h with
  | exchange hplayer hhand hcards =>
    cases he
    exact ⟨rfl, hplayer, hhand, hcards⟩
  | asked h | challenged h | upheld h =>
    have hnone := h.exchangeIn_below
    change exchangeIn _ = _ at he
    cases hnone.symm.trans he
  | _ => cases he

/-- There is no exchange under way unless its frame is on top. -/
theorem Sound.exchange?_eq_none (h : g.Sound) (hf : g.stack.frames = f :: below)
    (hne : ∀ e, f ≠ .exchange e) : g.exchange? = none := by
  have hshape := h.shape_of hf
  have hbelow := hshape.exchangeIn_below
  rw [exchange?, hf]
  cases f with
  | exchange e => exact absurd rfl (hne e)
  | _ => exact hbelow

/-- The number of cards drawn for the exchange that is under way, if there is one. -/
def drawnOut (g : Game) : Nat := if g.exchange?.isSome then g.exchangeDraw else 0

/-- All hands together have two cards a player. -/
theorem length_hands {players : List Player} (h : ∀ p ∈ players, p.cards.length = handSize) :
    (players.flatMap (·.characters)).length = handSize * players.length := by
  induction players with
  | nil => rfl
  | cons p players ih =>
    have hp := h p List.mem_cons_self
    have hrest := ih fun q hq => h q (List.mem_cons_of_mem _ hq)
    rw [List.flatMap_cons, List.length_append, hrest, List.length_cons, Player.characters,
      List.length_map, hp, Nat.mul_succ, Nat.add_comm]

/-- The deck holds what is not in a hand and was not drawn for an exchange. -/
theorem Sound.size_deck (h : g.Sound) (hv : g.variant ≠ none) :
    g.deck.size + handSize * g.players.length + g.drawnOut = 15 := by
  obtain ⟨v, hv'⟩ := Option.ne_none_iff_exists'.1 hv
  have hpool : g.pool.length = 15 := by rw [(h.pool v hv').length_eq, Deck.length_full]
  have hhands := length_hands (h.hands hv)
  unfold drawnOut
  cases he : g.exchange? with
  | none =>
    rw [pool_of_none he, List.length_append, hhands] at hpool
    exact hpool
  | some e =>
    obtain ⟨-, hplayer, -, hcards⟩ := h.shape.of_exchangeIn he
    obtain ⟨p, hp⟩ := h.exists_current
    rw [← hplayer] at hp
    have hlen := (pool_of_some he hp).length_eq
    have hhand := h.length_hand hv hp
    have hstored : p.characters.length = handSize := by
      rw [Player.characters, List.length_map, hhand]
    simp only [List.length_append, List.length_map, hhands, hpool, hstored] at hlen
    simp only [Option.isSome_some, if_true]
    unfold Deck.size
    omega

end CoupTable.Game
