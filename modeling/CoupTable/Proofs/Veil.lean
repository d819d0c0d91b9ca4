import CoupTable.Proofs.Basics
import CoupTable.Game.Run

/-!
# What the others see of a player's cards

`Game.veiled` shows a game as it looks to everybody but the player in one seat: the living cards of
that seat have lost their characters, in the hand as well as on offer in an exchange, and messages
to that seat alone are left out. Nothing that the game decides by looks at what is missing, unless a
card is revealed or changes hands, so that here are the lemmas which say of each such thing that it
is the same under the veil.
-/

namespace CoupTable

/-! ## Lists with one member changed -/

/-- What is the same for the changed member is the same for all. -/
theorem map_modify_eq {α β : Type} {f : α → α} {r : α → β} (h : ∀ a, r (f a) = r a) (l : List α)
    (i : Nat) : (l.modify i f).map r = l.map r := by
  apply List.ext_getElem?
  intro j
  simp only [List.getElem?_map, List.getElem?_modify]
  cases l[j]? with
  | none => rfl
  | some a => by_cases heq : i = j <;> simp [heq, h]

/-- What is the same for the changed member in its place is the same for all. -/
theorem map_zipIdx_modify_eq {α β : Type} {f : α → α} {r : α × Nat → β}
    (h : ∀ a i, r (f a, i) = r (a, i)) (l : List α) (i : Nat) :
    (l.modify i f).zipIdx.map r = l.zipIdx.map r := by
  apply List.ext_getElem?
  intro j
  simp only [List.getElem?_map, List.getElem?_zipIdx, List.getElem?_modify]
  cases l[j]? with
  | none => rfl
  | some a => by_cases heq : i = j <;> simp [heq, h]

/-! ## Cards and players -/

/-- A card as it looks to others: only a dead one shows what it is. -/
def Card.veiled (card : Card) : Card := if card.dead then card else { card with character := .duke }

/-- What lies face up of a card. -/
def Card.upturned (card : Card) : Option Character :=
  if card.dead then some card.character else none

namespace Card

variable (card : Card)

/-- Whether a card is dead is known to all. -/
@[simp] theorem dead_veiled : card.veiled.dead = card.dead := by
  unfold veiled
  split <;> rfl

/-- A card under the veil has nothing more to hide. -/
@[simp] theorem veiled_veiled : card.veiled.veiled = card.veiled := by
  unfold veiled
  cases hdead : card.dead <;> simp [hdead]

/-- What lies face up of a card is known to all. -/
@[simp] theorem upturned_veiled : card.veiled.upturned = card.upturned := by
  unfold veiled upturned
  cases hdead : card.dead <;> simp [hdead]

/-- The back of a card is what the others see of it. -/
@[simp] theorem back_veiled : card.veiled.back = card.back := by
  unfold veiled back
  cases hdead : card.dead <;> simp [hdead]

end Card

/-- A player as the others see the player. -/
def Player.veiled (p : Player) : Player := { p with cards := p.cards.map (·.veiled) }

namespace Player

variable (p : Player)

/-- A player under the veil has nothing more to hide. -/
@[simp] theorem veiled_veiled : p.veiled.veiled = p.veiled := by
  simp [veiled]

/-- Whether a player is alive is known to all. -/
@[simp] theorem isAlive_veiled : p.veiled.isAlive = p.isAlive := by
  simp [isAlive, veiled, Function.comp_def]

/-- Which slots have living cards is known to all. -/
@[simp] theorem hasLiving_veiled (slot : Nat) : p.veiled.hasLiving slot = p.hasLiving slot := by
  unfold hasLiving veiled
  rw [List.getElem?_map]
  cases p.cards[slot]? with
  | none => rfl
  | some card => simp

/-- The slots of the living cards are known to all. -/
@[simp] theorem livingSlots_veiled : p.veiled.livingSlots = p.livingSlots := by
  unfold livingSlots living veiled
  rw [List.zipIdx_map, List.filterMap_map, List.map_filterMap, List.map_filterMap]
  congr 1
  funext ⟨card, slot⟩
  cases hdead : card.dead <;> simp [hdead]

/-- The number of living cards is known to all. -/
@[simp] theorem livingCount_veiled : p.veiled.livingCount = p.livingCount := by
  have hslots := congrArg List.length (livingSlots_veiled p)
  simpa [livingSlots, livingCount] using hslots

/-- Whether one living card is left, and where, is known to all. -/
@[simp] theorem singleLiving?_veiled : p.veiled.singleLiving? = p.singleLiving? := by
  rw [singleLiving?, singleLiving?, livingSlots_veiled]

/-- The dead cards under the veil are those of the hand. -/
@[simp] theorem deadCards_veiled :
    p.veiled.cards.filter (·.dead) = (p.cards.filter (·.dead)).map (·.veiled) := by
  rw [veiled, List.filter_map]
  simp [Function.comp_def]

end Player

/-! ## Frames -/

/-- An exchange as it looks to everybody but the player in a seat. -/
def Exchange.veiled (q : Nat) (e : Exchange) : Exchange :=
  if e.player = q then
    { e with hand := e.hand.map (·.veiled), offered := e.offered.map fun _ => .duke }
  else e

namespace Exchange

variable (q : Nat) (e : Exchange)

/-- Who exchanges cards is known to all. -/
@[simp] theorem player_veiled : (e.veiled q).player = e.player := by
  unfold veiled
  split <;> rfl

/-- An exchange under the veil has nothing more to hide. -/
@[simp] theorem veiled_veiled : (e.veiled q).veiled q = e.veiled q := by
  unfold veiled
  by_cases hq : e.player = q <;> simp [hq, Function.comp_def]

/-- The number of cards on offer is known to all. -/
@[simp] theorem length_offered_veiled : (e.veiled q).offered.length = e.offered.length := by
  unfold veiled
  split <;> simp

variable {q e} {e' : Exchange}

/-- Exchanges that look the same are those of the same player. -/
theorem player_eq_of_veiled (h : e.veiled q = e'.veiled q) : e'.player = e.player := by
  rw [← e'.player_veiled q, ← h, e.player_veiled]

/-- As many cards are on offer in exchanges that look the same. -/
theorem length_offered_eq_of_veiled (h : e.veiled q = e'.veiled q) :
    e'.offered.length = e.offered.length := by
  rw [← e'.length_offered_veiled q, ← h, e.length_offered_veiled]

/-- Exchanges of others that look the same are the same. -/
theorem eq_of_veiled (h : e.veiled q = e'.veiled q) (hne : e.player ≠ q) : e = e' := by
  rwa [veiled, veiled, player_eq_of_veiled h, if_neg hne, if_neg hne] at h

end Exchange

/-- A frame as it looks to everybody but the player in a seat. -/
def Frame.veiled (q : Nat) : Frame → Frame
  | exchange e => exchange (e.veiled q)
  | turn => turn
  | variantChoice => variantChoice
  | loss seat => loss seat
  | claim c => claim c
  | reveal r => reveal r
  | interrogation i => interrogation i

namespace Frame

variable (q : Nat)

/-- A frame under the veil has nothing more to hide. -/
@[simp] theorem veiled_veiled (f : Frame) : (f.veiled q).veiled q = f.veiled q := by
  cases f with
  | exchange e => exact congrArg exchange (e.veiled_veiled q)
  | _ => rfl

/-- The alarm of a frame is known to all. -/
@[simp] theorem alarm_veiled (f : Frame) : (f.veiled q).alarm = f.alarm := by
  cases f <;> rfl

/-- What kind of frame it is is known to all. -/
@[simp] theorem name_veiled (f : Frame) : (f.veiled q).name = f.name := by
  cases f <;> rfl

variable {q}

/-- Frames that look the same are the same, unless both are exchanges of the hidden player. -/
theorem eq_or_of_veiled {f f' : Frame} (h : f.veiled q = f'.veiled q) :
    f = f' ∨ ∃ e e', f = exchange e ∧ f' = exchange e' ∧ e.player = q ∧
      e.veiled q = e'.veiled q := by
  cases f with
  | exchange e =>
    cases f' with
    | exchange e' =>
      have hlook : e.veiled q = e'.veiled q := exchange.inj h
      by_cases hq : e.player = q
      · exact .inr ⟨e, e', rfl, rfl, hq, hlook⟩
      · exact .inl (congrArg exchange (Exchange.eq_of_veiled hlook hq))
    | _ => cases h
  | _ =>
    cases f' with
    | exchange e' => cases h
    | _ => exact .inl h

end Frame

namespace Game

/-- A game as it looks to everybody but the player in a seat. -/
def veiled (q : Nat) (g : Game) : Game :=
  { g with
    venue := { g.venue with outbox := g.venue.outbox.filter (·.recipient != .player q) }
    players := g.players.modify q (·.veiled)
    stack := ⟨g.stack.frames.map (·.veiled q)⟩ }

variable (q : Nat) (g : Game)

/-! ## Games under the veil -/

/-- A game under the veil has nothing more to hide. -/
@[simp] theorem veiled_veiled : (g.veiled q).veiled q = g.veiled q := by
  have hplayers : (g.players.modify q (·.veiled)).modify q (·.veiled)
      = g.players.modify q (·.veiled) := by
    rw [List.modify_modify_eq]
    congr 1
    funext p
    exact p.veiled_veiled
  simp [veiled, hplayers, Function.comp_def]

/-- What is there under the veil is the same in games that look the same. -/
theorem read_eq_of_veiled {α : Type} {q : Nat} {g g' : Game} {r : Game → α}
    (hr : ∀ g, r (g.veiled q) = r g) (hsame : g.veiled q = g'.veiled q) : r g = r g' := by
  rw [← hr g, hsame, hr g']

/-- The player in a seat under the veil. -/
theorem getElem?_veiled (seat : Nat) : (g.veiled q).players[seat]?
    = g.players[seat]?.map fun p => if q = seat then p.veiled else p :=
  List.getElem?_modify ..

/-- What does not depend on living cards is the same for every seat under the veil. -/
theorem map_getElem?_veiled {α : Type} {r : Player → α} (h : ∀ p, r p.veiled = r p) (seat : Nat) :
    (g.veiled q).players[seat]?.map r = g.players[seat]?.map r := by
  rw [getElem?_veiled]
  cases g.players[seat]? with
  | none => rfl
  | some p => by_cases hseat : q = seat <;> simp [hseat, h]

/-- The number of players is known to all. -/
@[simp] theorem length_players_veiled : (g.veiled q).players.length = g.players.length :=
  List.length_modify ..

/-- Games that look the same have the same frame on top, unless both have an exchange of the hidden
player there. -/
theorem top?_eq_or {q : Nat} {g g' : Game} (hsame : g.veiled q = g'.veiled q) :
    g.stack.top? = g'.stack.top? ∨ ∃ e e', g.stack.top? = some (.exchange e) ∧
      g'.stack.top? = some (.exchange e') ∧ e.player = q ∧ e.veiled q = e'.veiled q := by
  have hframes : g.stack.frames.map (Frame.veiled q) = g'.stack.frames.map (Frame.veiled q) :=
    congrArg (·.stack.frames) hsame
  have htop := congrArg List.head? hframes
  simp only [List.head?_map] at htop
  unfold Stack.top?
  cases hf : g.stack.frames.head? with
  | none =>
    rw [hf, eq_comm, Option.map_none, Option.map_eq_none_iff] at htop
    exact .inl htop.symm
  | some f =>
    rw [hf, eq_comm, Option.map_some, Option.map_eq_some_iff] at htop
    obtain ⟨f', hf', hlook⟩ := htop
    rw [hf']
    rcases Frame.eq_or_of_veiled hlook.symm with rfl | ⟨e, e', rfl, rfl, hq, he⟩
    · exact .inl rfl
    · exact .inr ⟨e, e', rfl, rfl, hq, he⟩

/-- The depth of the stack is known to all. -/
@[simp] theorem depth_veiled : (g.veiled q).stack.depth = g.stack.depth :=
  List.length_map ..

/-- Everybody's coins are known to all. -/
@[simp] theorem coinsOf_veiled (seat : Nat) : (g.veiled q).coinsOf seat = g.coinsOf seat :=
  congrArg (·.getD 0) (map_getElem?_veiled q g (fun _ => rfl) seat)

/-- Everybody's name is known to all. -/
@[simp] theorem nameOf_veiled (seat : Nat) : (g.veiled q).nameOf seat = g.nameOf seat :=
  congrArg (·.getD "") (map_getElem?_veiled q g (fun _ => rfl) seat)

/-- Who is alive is known to all. -/
@[simp] theorem isAlive_veiled (seat : Nat) : (g.veiled q).isAlive seat = g.isAlive seat := by
  unfold isAlive
  rw [getElem?_veiled, Option.any_map]
  congr 1
  funext p
  by_cases hseat : q = seat <;> simp [hseat]

/-- The seats are known to all. -/
@[simp] theorem seats_veiled : (g.veiled q).seats = g.seats :=
  congrArg List.range (length_players_veiled q g)

/-- The seats of those who are alive are known to all. -/
@[simp] theorem livingSeats_veiled : (g.veiled q).livingSeats = g.livingSeats := by
  have hlives : (g.veiled q).isAlive = g.isAlive := funext (isAlive_veiled q g)
  rw [livingSeats, hlives, seats_veiled, livingSeats]

/-- Whether the table is reunified is known to all. -/
@[simp] theorem isReunified_veiled : (g.veiled q).isReunified = g.isReunified := by
  have hsides : ∀ players : List Player, (players.filter (·.isAlive)).map (·.allegiance)
      = ((players.map fun p => (p.isAlive, p.allegiance)).filter (·.1)).map (·.2) := by
    intro players
    simp [List.filter_map, Function.comp_def]
  have hmap := map_modify_eq (f := Player.veiled) (r := fun p : Player => (p.isAlive, p.allegiance))
    (fun p => by rw [Player.isAlive_veiled]; rfl) g.players q
  unfold isReunified
  rw [hsides, hsides]
  have hplayers : (g.veiled q).players = g.players.modify q (·.veiled) := rfl
  rw [hplayers, hmap]

/-- Who is protected from whom is known to all. -/
@[simp] theorem protects_veiled (actor other : Nat) :
    (g.veiled q).protects actor other = g.protects actor other := by
  have hallegiance := map_getElem?_veiled q g (r := (·.allegiance)) fun _ => rfl
  unfold protects
  rw [isReunified_veiled, hallegiance, hallegiance]
  rfl

/-- Who may be moved against is known to all. -/
@[simp] theorem isTarget_veiled (actor target : Nat) :
    (g.veiled q).isTarget actor target = g.isTarget actor target := by
  simp [isTarget]

/-- So are all whom the current player may move against. -/
@[simp] theorem targets_veiled : (g.veiled q).targets = g.targets := by
  have htargets : (g.veiled q).isTarget (g.veiled q).current = g.isTarget g.current :=
    funext (isTarget_veiled q g g.current)
  rw [targets, htargets, seats_veiled, targets]

/-- Whether the game is finished is known to all. -/
@[simp] theorem isFinished_veiled : (g.veiled q).isFinished = g.isFinished := by
  simp [isFinished, show (g.veiled q).variant = g.variant from rfl]

/-- Who comes next is known to all. -/
@[simp] theorem nextSeat_veiled : (g.veiled q).nextSeat = g.nextSeat := by
  simp [nextSeat, show (g.veiled q).current = g.current from rfl]

/-- Who could block a claim is known to all. -/
@[simp] theorem canBlock_veiled (c : Claim) (seat : Nat) :
    (g.veiled q).canBlock c seat = g.canBlock c seat := by
  simp [canBlock]

/-- Who could oppose it too. -/
@[simp] theorem quorum_veiled (c : Claim) : (g.veiled q).quorum c = g.quorum c := by
  have hopposes : (g.veiled q).canOppose c = g.canOppose c := by
    funext seat
    simp [canOppose]
  rw [quorum, hopposes, seats_veiled, quorum]

/-- Whether a claim is accepted is known to all. -/
@[simp] theorem isAccepted_veiled (c : Claim) : (g.veiled q).isAccepted c = g.isAccepted c := by
  simp [isAccepted]

/-- How many cards a player has to lose is known to all. -/
@[simp] theorem losesAll_veiled (seat living : Nat) :
    (g.veiled q).losesAll seat living = g.losesAll seat living := by
  have hloss : ∀ f : Frame, (f.veiled q == .loss seat) = (f == .loss seat) := by
    intro f
    cases f <;> rfl
  have hframes : (g.veiled q).stack.frames = g.stack.frames.map (·.veiled q) := rfl
  unfold losesAll
  rw [depth_veiled, hframes, ← List.map_take, List.all_map]
  congr 2
  funext f
  exact hloss f

/-- What the status says about a player is known to all. -/
theorem statusOf_veiled (p : Player) (seat : Nat) :
    (g.veiled q).statusOf p.veiled seat = g.statusOf p seat := by
  have hbacks : p.veiled.cards.map (·.back) = p.cards.map (·.back) := by
    simp [Player.veiled, Function.comp_def]
  unfold statusOf
  rw [isFinished_veiled, hbacks, Player.isAlive_veiled]
  rfl

/-- What the status says is known to all. -/
@[simp] theorem statusText_veiled : (g.veiled q).statusText = g.statusText := by
  have hline : ∀ (p : Player) (seat : Nat),
      (g.veiled q).statusOf p.veiled seat = (g.veiled q).statusOf p seat := by
    intro p seat
    have hveiled := statusOf_veiled q (g.veiled q) p seat
    rwa [veiled_veiled] at hveiled
  have hlines : ((g.veiled q).players.zipIdx.map fun x => (g.veiled q).statusOf x.1 x.2)
      = g.players.zipIdx.map fun x => g.statusOf x.1 x.2 := by
    refine (map_zipIdx_modify_eq hline g.players q).trans ?_
    congr 1
    funext x
    exact (hline x.1 x.2).symm.trans (statusOf_veiled q g x.1 x.2)
  have hclosing : (g.veiled q).statusClosing = g.statusClosing := by
    have hnames : (g.veiled q).nameOf = g.nameOf := funext (nameOf_veiled q g)
    unfold statusClosing winner?
    rw [isFinished_veiled, livingSeats_veiled, hnames]
    rfl
  unfold statusText
  rw [hlines, hclosing]
  rfl

/-- So are the buttons under it. -/
@[simp] theorem turnButtons_veiled : (g.veiled q).turnButtons = g.turnButtons := by
  have hcoins : (g.veiled q).coinsOf (g.veiled q).current = g.coinsOf g.current :=
    coinsOf_veiled q g g.current
  unfold turnButtons
  rw [hcoins]
  rfl

/-- What the table is asked about a claim is known to all. -/
@[simp] theorem claimText_veiled (c : Claim) : (g.veiled q).claimText c = g.claimText c := by
  have hnames : (g.veiled q).nameOf = g.nameOf := funext (nameOf_veiled q g)
  unfold claimText
  rw [hnames, isReunified_veiled]
  rfl

end Game

end CoupTable
