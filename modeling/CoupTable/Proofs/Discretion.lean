import CoupTable.Proofs.Clocks
import CoupTable.Proofs.Veil

/-!
# Steps that keep the veil

A function on games is `Discreet` about a player if it does not tell games apart that look the same
to everybody else: it leads to games that look the same, or to the same fault. The functions that
run a game are discreet one by one, and so is every chain of them, as long as they do not turn up a
card of the player. They may look at whatever is there under the veil (`Discreet.reading`,
`Discreet.player`).
-/

namespace CoupTable.Game

/-- What comes of a step as it looks to everybody but the player in a seat. -/
def veil (q : Nat) (result : Except Fault Game) : Except Fault Game := (·.veiled q) <$> result

/-- From games that look the same the function leads to games that do, or to the same fault. -/
def Discreet (q : Nat) (F : Game → Except Fault Game) : Prop :=
  ∀ g g', g.veiled q = g'.veiled q → veil q (F g) = veil q (F g')

variable {q seat slot : Nat} {g g' : Game} {c : Claim} {f : Frame} {effect : Effect} {p : Player}

/-! ## Discreet functions -/

/-- A game that is there looks as it does under the veil. -/
@[simp] theorem veil_ok (g : Game) : veil q (.ok g) = .ok (g.veiled q) := rfl

/-- What is done with results that are alike in some way looks the same if it does so for all values
that are. -/
theorem veil_bind_congr {α β : Type} {f : α → β} {r r' : Except Fault α}
    {K K' : α → Except Fault Game} (hr : f <$> r = f <$> r')
    (hK : ∀ x x', f x = f x' → veil q (K x) = veil q (K' x')) :
    veil q (r >>= K) = veil q (r' >>= K') := by
  cases r with
  | error cause =>
    cases r' with
    | error cause' => exact congrArg Except.error (Except.error.inj hr)
    | ok x' => cases hr
  | ok x =>
    cases r' with
    | error cause' => cases hr
    | ok x' => exact hK x x' (Except.ok.inj hr)

/-- A player under the veil, or the fault that there is none. -/
theorem player_veiled (q : Nat) (g : Game) (seat : Nat) :
    (g.veiled q).player seat = (fun p => if q = seat then p.veiled else p) <$> g.player seat := by
  unfold player
  rw [getElem?_veiled]
  cases g.players[seat]? <;> rfl

/-- Cards that are drawn under the veil. -/
theorem drawMany_veiled (q n : Nat) (g : Game) :
    drawMany n (g.veiled q) = (fun r => (r.1, r.2.veiled q)) <$> drawMany n g :=
  drawMany_map (·.veiled q) (fun _ => rfl) (fun _ _ => rfl) n g

namespace Discreet

variable {F K : Game → Except Fault Game}

/-- A function is discreet if it comes to what looks the same when all it has is the veil. -/
theorem of_veiled (h : ∀ g, veil q (F (g.veiled q)) = veil q (F g)) : Discreet q F := by
  intro g g' hsame
  rw [← h g, hsame, h g']

/-- A function that passes the veil on is discreet. -/
theorem of_commutes (h : ∀ g, F (g.veiled q) = veil q (F g)) : Discreet q F := by
  refine of_veiled fun g => ?_
  rw [h g]
  cases F g with
  | error cause => rfl
  | ok x => exact congrArg Except.ok (veiled_veiled q x)

/-- Leaving the game as it is is discreet. -/
theorem stay : Discreet q .ok := of_commutes fun _ => rfl

/-- So is marking that frames go on. -/
theorem stirs : Discreet q fun g => .ok g.stir := of_commutes fun _ => rfl

/-- What comes to what looks the same is discreet as well. -/
theorem congr (hF : Discreet q F) (h : ∀ g, veil q (K g) = veil q (F g)) : Discreet q K := by
  intro g g' hsame
  rw [h g, h g']
  exact hF g g' hsame

/-- One discreet function after the other is discreet. -/
theorem bind (hF : Discreet q F) (hK : Discreet q K) : Discreet q fun g => F g >>= K :=
  fun g g' hsame => veil_bind_congr (hF g g' hsame) hK

/-- A change that does not tell games apart may come before a discreet function. -/
theorem onto (h : Discreet q F) {change : Game → Game}
    (hchange : ∀ g g', g.veiled q = g'.veiled q → (change g).veiled q = (change g').veiled q) :
    Discreet q fun g => F (change g) :=
  fun g g' hsame => h _ _ (hchange g g' hsame)

/-- A change that passes the veil on may come before a discreet function. -/
theorem after (h : Discreet q F) {c : Game → Game}
    (hchange : ∀ g, c (g.veiled q) = (c g).veiled q) :
    Discreet q fun g => F (c g) := by
  refine h.onto fun g g' hsame => ?_
  rw [← hchange, ← hchange, hsame]

/-- A function may look at what is there under the veil if it is discreet whatever it sees. -/
theorem reading {α : Type} {r : Game → α} {K : Game → α → Except Fault Game}
    (hr : ∀ g, r (g.veiled q) = r g) (hK : ∀ v, Discreet q (K · v)) :
    Discreet q fun g => K g (r g) := by
  intro g g' hsame
  change veil q (K g (r g)) = veil q (K g' (r g'))
  rw [read_eq_of_veiled hr hsame]
  exact hK (r g') g g' hsame

/-- A function that decides by what is there under the veil is discreet if it is so either way. -/
theorem ite {b : Game → Prop} [∀ g, Decidable (b g)] (hb : ∀ g, b (g.veiled q) = b g)
    (hF : Discreet q F) (hK : Discreet q K) : Discreet q fun g => if b g then F g else K g := by
  intro g g' hsame
  have hread : b g = b g' := read_eq_of_veiled hb hsame
  by_cases h : b g
  · simp only [if_pos h, if_pos (hread ▸ h)]
    exact hF g g' hsame
  · simp only [if_neg h, if_neg (hread ▸ h)]
    exact hK g g' hsame

/-- What depends on a player is discreet if it is so for every player, and looks the same for the
hidden one under the veil. -/
theorem player {K : Game → Player → Except Fault Game}
    (hlooks : seat = q → ∀ g p, veil q (K g p.veiled) = veil q (K g p))
    (hK : ∀ p, Discreet q (K · p)) : Discreet q fun g => g.player seat >>= K g := by
  intro g g' hsame
  have hseat := congrArg (·.player seat) hsame
  simp only [player_veiled] at hseat
  refine veil_bind_congr hseat fun p p' hlook => ?_
  split at hlook
  next heq =>
    rw [← hlooks heq.symm g p, ← hlooks heq.symm g' p', hlook]
    exact hK p'.veiled g g' hsame
  next =>
    rw [hlook]
    exact hK p' g g' hsame

/-- Drawing cards is discreet, whatever is done with them. -/
theorem draw {n : Nat} {K : List Character → Game → Except Fault Game}
    (hK : ∀ drawn, Discreet q (K drawn)) :
    Discreet q fun g => drawMany n g >>= fun r => K r.1 r.2 := by
  intro g g' hsame
  have hdrawn := congrArg (drawMany n) hsame
  simp only [drawMany_veiled] at hdrawn
  refine veil_bind_congr hdrawn fun r r' hlook => ?_
  obtain ⟨hcards, hrest⟩ := Prod.mk.inj hlook
  rw [hcards]
  exact hK r'.1 r.2 r'.2 hrest

/-- Setting an alarm is discreet, whatever is done with it. -/
theorem arm {K : AlarmId → Game → Except Fault Game} (delay : Nat)
    (hK : ∀ id, Discreet q (K id)) :
    Discreet q fun g => g.venue.arm delay >>= fun armed =>
      K armed.1 { g with venue := armed.2 } := by
  have harmed : Discreet q fun g => g.venue.alarms.arm delay >>= fun armed =>
      K armed.1 { g with venue := { g.venue with alarms := armed.2 } } := by
    refine .reading (r := (·.venue.alarms.arm delay)) (fun _ => rfl) (K := fun g armed =>
      armed >>= fun armed =>
        K armed.1 { g with venue := { g.venue with alarms := armed.2 } }) fun armed => ?_
    cases armed with
    | error cause => exact .of_commutes fun _ => rfl
    | ok armed => exact (hK armed.1).after fun _ => rfl
  refine harmed.congr fun g => ?_
  unfold Venue.arm
  cases g.venue.alarms.arm delay <;> rfl

/-- Doing something discreet for each member of a list is discreet. -/
theorem foldlM {α : Type} {F : Game → α → Except Fault Game} {l : List α}
    (h : ∀ a ∈ l, Discreet q (F · a)) : Discreet q fun g => l.foldlM F g := by
  induction l with
  | nil => exact of_commutes fun _ => rfl
  | cons a l ih =>
    obtain ⟨ha, hl⟩ := List.forall_mem_cons.1 h
    simp only [List.foldlM_cons]
    exact ha.bind (ih hl)

end Discreet

/-! ## Small steps -/

/-- Players of whom one is changed look the same if the one does. -/
theorem modify_set_veiled {players players' : List Player} {p' : Player}
    (h : players.modify q (·.veiled) = players'.modify q (·.veiled))
    (hp : seat = q → p.veiled = p'.veiled) (hne : seat ≠ q → p = p') :
    (players.set seat p).modify q (·.veiled) = (players'.set seat p').modify q (·.veiled) := by
  apply List.ext_getElem?
  intro other
  have hother := congrArg (·[other]?) h
  simp only [List.getElem?_modify, List.getElem?_set] at hother ⊢
  have hlength : players.length = players'.length := by
    simpa using congrArg List.length h
  by_cases hseat : seat = other
  · subst hseat
    by_cases hq : q = seat
    · simp [hlength, hq, hp hq.symm]
    · simp [hlength, hne (Ne.symm hq)]
  · simpa [hseat] using hother

/-- Changing a player is discreet if nothing is changed that others do not see. -/
theorem discreet_modifyPlayer {change : Player → Player}
    (h : seat = q → ∀ p, (change p.veiled).veiled = (change p).veiled) :
    Discreet q (·.modifyPlayer seat change) := by
  refine .player (K := fun g p => .ok { g with players := g.players.set seat (change p) })
    (fun hq g p => ?_) fun p g g' hsame => ?_
  · have hplayers : (g.players.set seat (change p.veiled)).modify q (·.veiled)
        = (g.players.set seat (change p)).modify q (·.veiled) :=
      modify_set_veiled rfl (fun _ => h hq p) fun hne => absurd hq hne
    exact congrArg (fun players => (Except.ok { g.veiled q with players } : Except Fault Game))
      hplayers
  · have hplayers : (g.players.set seat (change p)).modify q (·.veiled)
        = (g'.players.set seat (change p)).modify q (·.veiled) :=
      modify_set_veiled (congrArg (·.players) hsame) (fun _ => rfl) fun _ => rfl
    change Except.ok { g.veiled q with
      players := (g.players.set seat (change p)).modify q (·.veiled) } = Except.ok _
    rw [hplayers, hsame]
    rfl

/-- Changing what everybody sees of a player is discreet. -/
theorem discreet_modifyOpenly {change : Player → Player}
    (h : ∀ p, change p.veiled = (change p).veiled) : Discreet q (·.modifyPlayer seat change) := by
  refine discreet_modifyPlayer fun _ p => ?_
  rw [h p, Player.veiled_veiled]

/-- Games that look the same do so with frames on top that do. -/
theorem push_veiled {f' : Frame} (hsame : g.veiled q = g'.veiled q)
    (hf : f.veiled q = f'.veiled q) : veil q (g.push f) = veil q (g'.push f') := by
  have hdepth : g.stack.depth = g'.stack.depth :=
    read_eq_of_veiled (r := (·.stack.depth)) (depth_veiled q) hsame
  have hname : f.name = f'.name := by rw [← f.name_veiled q, hf, f'.name_veiled]
  unfold push Stack.push
  rw [hdepth, hname]
  split
  · have hframes : (f :: g.stack.frames).map (Frame.veiled q)
        = (f' :: g'.stack.frames).map (Frame.veiled q) :=
      congrArg₂ List.cons hf (congrArg (·.stack.frames) hsame)
    change Except.ok { g.veiled q with stack := ⟨(f :: g.stack.frames).map (Frame.veiled q)⟩ } = _
    rw [hframes, hsame]
    rfl
  · rfl

/-- Suspending for another step is discreet. -/
theorem discreet_push (f : Frame) : Discreet q (·.push f) :=
  fun _ _ hsame => push_veiled hsame rfl

/-- Ending a step is discreet, even if an alarm is taken back with it. -/
theorem discreet_pop : Discreet q pop := by
  refine .of_commutes fun g => ?_
  cases hf : g.stack.frames with
  | nil =>
    have hf' : (g.veiled q).stack.frames = [] := by
      change g.stack.frames.map (·.veiled q) = []
      rw [hf, List.map_nil]
    unfold pop Stack.pop
    rw [hf, hf']
    rfl
  | cons f rest =>
    have hf' : (g.veiled q).stack.frames = f.veiled q :: rest.map (·.veiled q) := by
      change g.stack.frames.map (·.veiled q) = _
      rw [hf, List.map_cons]
    rw [pop_eq hf, pop_eq hf', f.alarm_veiled]
    cases f.alarm <;> rfl

/-- Taking an alarm back passes the veil on. -/
theorem cancelAlarm_veiled (q : Nat) (g : Game) (id : Option AlarmId) :
    (g.veiled q).cancelAlarm id = (g.cancelAlarm id).veiled q := by
  cases id <;> rfl

/-- Games that look the same do so with frames in place of the top ones that do. -/
theorem setTop_veiled {f' : Frame} (hsame : g.veiled q = g'.veiled q)
    (hf : f.veiled q = f'.veiled q) : (g.setTop f).veiled q = (g'.setTop f').veiled q := by
  have hframes : (f :: g.stack.frames.tail).map (Frame.veiled q)
      = (f' :: g'.stack.frames.tail).map (Frame.veiled q) := by
    have hall : g.stack.frames.map (Frame.veiled q) = g'.stack.frames.map (Frame.veiled q) :=
      congrArg (·.stack.frames) hsame
    rw [List.map_cons, List.map_cons, hf, List.map_tail, List.map_tail, hall]
  change { g.veiled q with stack := ⟨(f :: g.stack.frames.tail).map (Frame.veiled q)⟩ } = _
  rw [hframes, hsame]
  rfl

/-- A frame in place of the top one may come before a discreet function. -/
theorem Discreet.onTop {F : Game → Except Fault Game} (h : Discreet q F) (f : Frame) :
    Discreet q fun g => F (g.setTop f) :=
  h.onto fun _ _ hsame => setTop_veiled hsame rfl

/-- A message to the hidden player is not seen, and all others are. -/
theorem tell_veiled (q : Nat) (g : Game) (seat : Nat) (text : String) (buttons : List Button) :
    (g.tell seat text buttons).veiled q
      = if seat = q then g.veiled q else (g.veiled q).tell seat text buttons := by
  have hout : (⟨.player seat, text, buttons⟩ :: g.venue.outbox).filter (·.recipient != .player q)
      = if seat = q then g.venue.outbox.filter (·.recipient != .player q)
        else ⟨.player seat, text, buttons⟩ :: g.venue.outbox.filter (·.recipient != .player q) := by
    by_cases hq : seat = q <;> simp [hq]
  by_cases hq : seat = q
  · rw [if_pos hq] at hout ⊢
    exact congrArg (fun outbox => { g.veiled q with venue := { g.venue with outbox } }) hout
  · rw [if_neg hq] at hout ⊢
    exact congrArg (fun outbox => { g.veiled q with venue := { g.venue with outbox } }) hout

/-- Telling a player something is discreet. -/
theorem discreet_tell (text : String) (buttons : List Button) :
    Discreet q fun g => .ok (g.tell seat text buttons) := by
  intro g g' hsame
  rw [veil_ok, veil_ok, tell_veiled, tell_veiled, hsame]

/-- What the hidden player is told, and whether, is not seen. -/
theorem veil_tell_self (g : Game) (text : String) (buttons : List Button) :
    veil q (.ok (g.tell q text buttons)) = .ok (g.veiled q) := by
  rw [veil_ok, tell_veiled, if_pos rfl]

/-- Showing a player the hand is discreet. -/
theorem discreet_showCards : Discreet q (·.showCards seat) := by
  refine .player (fun hq g p => ?_) fun p => ?_
  · subst hq
    simp only [pure_eq_ok]
    split <;> split <;> simp [tell_veiled]
  · cases hlives : p.isAlive with
    | true => exact discreet_tell _ _
    | false => exact .stay

/-! ## Cards of the others -/

section Others

variable (hne : seat ≠ q)
include hne

/-- Another player's losing a card is discreet. -/
theorem discreet_killCard : Discreet q (·.killCard seat slot) := by
  refine .player (fun hq => absurd hq hne) fun p => ?_
  by_cases hslot : slot < p.cards.length
  · simp only [if_pos hslot]
    exact discreet_modifyPlayer fun hq => absurd hq hne
  · simp only [if_neg hslot]
    exact .of_commutes fun _ => rfl

/-- Drawing a card for another player is discreet. -/
theorem discreet_drawInto : Discreet q (·.drawInto seat slot) := by
  have hdraw := Discreet.draw (q := q) (n := 1) (K := fun drawn g =>
    g.modifyPlayer seat (·.setCharacter slot (drawn.headD .duke)))
    fun drawn => discreet_modifyPlayer fun hq => absurd hq hne
  refine hdraw.congr fun g => ?_
  unfold drawInto
  simp only [drawMany]
  cases g.draw <;> rfl

/-- Changing another player's cards is discreet. -/
theorem discreet_changeCards (cards : List (Nat × Character)) :
    Discreet q (·.changeCards seat cards) := by
  have hdrawn : Discreet q fun g => cards.foldlM (fun g card => g.drawInto seat card.1) g :=
    .foldlM fun card _ => discreet_drawInto hne
  exact (hdrawn.bind discreet_showCards).after (c := (·.returnCards (cards.map (·.2))))
    fun _ => rfl

/-- Changing a card of another player is discreet. -/
theorem discreet_changeCard : Discreet q (·.changeCard seat slot) := by
  refine .player (fun hq => absurd hq hne) fun p => ?_
  cases p.living.find? (·.1 == slot) with
  | some card => exact discreet_changeCards hne [card]
  | none => exact .of_commutes fun _ => rfl

/-- Changing another player's hand is discreet. -/
theorem discreet_changeHand : Discreet q (·.changeHand seat) :=
  .player (fun hq => absurd hq hne) fun p => discreet_changeCards hne p.living

/-- Another player's cards are what they are under the veil. -/
theorem characterAt_veiled (g : Game) : (g.veiled q).characterAt seat slot
    = g.characterAt seat slot := by
  unfold characterAt
  rw [player_veiled]
  simp only [if_neg (Ne.symm hne)]
  cases g.player seat <;> rfl

end Others

/-! ## Claims that go through -/

/-- Two frames of an exchange by the hidden player look the same if they have as many cards on offer
and the same dead ones. -/
theorem startExchange_veiled (hq : seat = q) (p : Player) (drawn : List Character) :
    (Frame.exchange ⟨seat, p.veiled.cards.filter (·.dead),
        p.veiled.living.map (·.2) ++ drawn⟩).veiled q
      = (Frame.exchange ⟨seat, p.cards.filter (·.dead), p.living.map (·.2) ++ drawn⟩).veiled q := by
  have hcount := p.livingCount_veiled
  unfold Player.livingCount at hcount
  simp [Frame.veiled, Exchange.veiled, hq, hcount, Function.comp_def]

/-- Offering cards for an exchange is discreet. -/
theorem discreet_startExchange : Discreet q (·.startExchange seat) := by
  refine .player (fun hq g p => ?_) fun p => ?_
  · refine veil_bind_congr (f := id) rfl fun r r' heq => ?_
    cases heq
    exact push_veiled rfl (startExchange_veiled hq p r.1)
  · refine .reading (r := (·.exchangeDraw)) (fun _ => rfl) (K := fun g n =>
      drawMany n g >>= fun r => r.2.push
        (.exchange ⟨seat, p.cards.filter (·.dead), p.living.map (·.2) ++ r.1⟩)) fun n => ?_
    exact Discreet.draw (K := fun drawn g => g.push
      (.exchange ⟨seat, p.cards.filter (·.dead), p.living.map (·.2) ++ drawn⟩))
      fun drawn => discreet_push _

/-- Paying a player is discreet. -/
theorem discreet_pay (coins : Nat) : Discreet q (·.pay seat coins) :=
  discreet_modifyOpenly fun _ => rfl

/-- Having an assassin pay is discreet. -/
theorem discreet_payAssassin : Discreet q (·.payAssassin seat) :=
  discreet_modifyOpenly fun _ => rfl

/-- Charging a player is discreet. -/
theorem discreet_charge (coins : Nat) : Discreet q (·.charge seat coins) := by
  refine .player (fun _ _ _ => rfl) fun p => ?_
  by_cases hpoor : p.coins < coins
  · simp only [if_pos hpoor]
    exact .of_commutes fun _ => rfl
  · simp only [if_neg hpoor]
    exact discreet_modifyOpenly fun _ => rfl

/-- Robbing a player is discreet. -/
theorem discreet_rob {target : Nat} : Discreet q (·.rob seat target) :=
  .player (fun _ _ _ => rfl) fun _ => (discreet_charge _).bind (discreet_pay _)

/-- What is done with the claim on top is discreet if it is so for every claim. -/
theorem Discreet.topClaim {K : Game → Claim → Except Fault Game} (hK : ∀ c, Discreet q (K · c)) :
    Discreet q fun g =>
      match g.stack.top? with
      | some (.claim c) => K g c
      | _ => .error .noClaim := by
  intro g g' hsame
  dsimp only
  rcases top?_eq_or hsame with htop | ⟨e, e', he, he', -, -⟩
  · rw [htop]
    split
    next c _ => exact hK c g g' hsame
    next => rfl
  · rw [he, he']

/-- Whoever claims an assassination pays for it when it is blocked. -/
def payBlocked (g : Game) (c : Claim) : Except Fault Game :=
  match c.effect with
  | .assassinate _ => g.payAssassin c.actor
  | _ => .ok g

/-- A claim on top that was blocked is paid for, and dropped. -/
theorem dropBlocked_of_top (htop : g.stack.top? = some (.claim c)) :
    g.dropBlocked = g.payBlocked c >>= fun g => (g.note Wording.blockGranted).pop >>= fun g =>
      .ok g.stir := by
  unfold dropBlocked payBlocked
  rw [htop]
  dsimp only
  cases c.effect <;> rfl

/-- Dropping a claim that was blocked is discreet. -/
theorem discreet_dropBlocked : Discreet q dropBlocked := by
  have hpay : ∀ c, Discreet q (·.payBlocked c) := by
    intro c
    unfold payBlocked
    cases c.effect with
    | assassinate target => exact discreet_payAssassin
    | _ => exact .stay
  have htaken : Discreet q fun g => (g.note Wording.blockGranted).pop :=
    discreet_pop.after fun _ => rfl
  have hdropped : Discreet q fun g => (g.note Wording.blockGranted).pop >>= fun g => .ok g.stir :=
    htaken.bind .stirs
  refine (Discreet.topClaim fun c => (hpay c).bind hdropped).congr fun g => ?_
  cases htop : g.stack.top? with
  | none => simp [dropBlocked, htop]; rfl
  | some f =>
    cases f with
    | claim c => rw [dropBlocked_of_top htop]
    | _ => simp [dropBlocked, htop]; rfl

/-- Carrying out a claim is discreet. -/
theorem discreet_grant : Discreet q (·.grant seat effect) := by
  unfold grant
  refine .player (fun _ _ _ => rfl) fun actor => ?_
  cases effect with
  | foreignAid => exact (discreet_pay 2).after fun _ => rfl
  | tax => exact (discreet_pay 3).after fun _ => rfl
  | embezzle =>
    refine .reading (r := (·.treasury)) (fun _ => rfl) (K := fun g coins =>
      pay { g.note (Wording.embezzleGranted actor.name) with treasury := 0 } seat coins)
      fun coins => ?_
    exact (discreet_pay coins).after fun _ => rfl
  | assassinate target =>
    refine .player (fun _ _ _ => rfl) fun victim =>
      .bind (discreet_payAssassin.after fun _ => rfl) ?_
    refine .ite (b := fun g => g.isAlive target = true) (fun g => ?_) (discreet_push _) .stay
    rw [isAlive_veiled]
  | steal target => exact .player (fun _ _ _ => rfl) fun victim => discreet_rob.after fun _ => rfl
  | exchange => exact discreet_startExchange.after fun _ => rfl
  | inspect target =>
    refine .player (fun _ g victim => ?_) fun victim => ?_
    · rw [Player.isAlive_veiled]
      rfl
    · cases hlives : victim.isAlive with
      | true => exact (discreet_push _).after fun _ => rfl
      | false => exact .stay
  | block => exact discreet_dropBlocked

/-- Carrying out the claim on top is discreet. -/
theorem discreet_resolve (c : Claim) : Discreet q (·.resolve c) :=
  discreet_pop.bind (discreet_grant.after fun _ => rfl)

end CoupTable.Game
