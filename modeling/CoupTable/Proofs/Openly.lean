import CoupTable.Game.Run
import CoupTable.Proofs.Basics

/-!
# What happens in the open

Most of what happens at a table everybody sees: no hand changes, and nobody is told anything alone
(`Game.Openly`). So it is with everything that a player does at the beginning of a turn, with claims
as they are made and opposed and as they go through, and with the turn that passes on.

What a function does is stated of its result, whichever game that is (`Game.Leads`).
-/

namespace CoupTable.Game

variable {g g' g₁ : Game} {P Q : Game → Prop} {seat : Nat} {m : Move} {effect : Effect}

/-- Whatever game the result is has the property. -/
def Leads (P : Game → Prop) (result : Except Fault Game) : Prop := ∀ g, result = .ok g → P g

/-- The names and the hands of all players. -/
def hands (g : Game) : List (String × List Card) := g.players.map fun p => (p.name, p.cards)

/-- What a player was told alone, the newest message first. -/
def toldTo (g : Game) (seat : Nat) : List Message :=
  g.venue.outbox.filter (·.recipient == .player seat)

/-- No hand has changed, and nobody was told anything alone. -/
structure Openly (g g' : Game) : Prop where
  /-- The players have the same names and hands. -/
  hands : g'.hands = g.hands
  /-- Nobody was told anything alone. -/
  toldTo : ∀ seat, g'.toldTo seat = g.toldTo seat

namespace Openly

/-- Where nothing happens all is in the open. -/
theorem refl (g : Game) : g.Openly g := ⟨rfl, fun _ => rfl⟩

/-- What is in the open at first and later is so altogether. -/
theorem trans (h : g.Openly g₁) (h' : g₁.Openly g') : g.Openly g' :=
  ⟨h'.hands.trans h.hands, fun seat => (h'.toldTo seat).trans (h.toldTo seat)⟩

/-- Where players and messages are the same, all is in the open. -/
theorem of_eq (hplayers : g'.players = g.players) (hout : g'.venue.outbox = g.venue.outbox) :
    g.Openly g' :=
  ⟨congrArg (List.map _) hplayers, fun _ => congrArg (List.filter _) hout⟩

end Openly

/-! ## Results -/

namespace Leads

variable {x y : Except Fault Game} {K : Game → Except Fault Game}

/-- A result that is there leads to itself. -/
theorem ok (h : P g) : Leads P (.ok g) := by
  rintro _ ⟨⟩
  exact h

/-- A fault leads nowhere. -/
theorem error {cause : Fault} : Leads P (.error cause) := nofun

/-- A weaker property is led to as well. -/
theorem mono (h : Leads P x) (hPQ : ∀ g, P g → Q g) : Leads Q x := fun g hx => hPQ g (h g hx)

/-- One function goes on after the other. -/
theorem bind (h : Leads P x) (hK : ∀ g, P g → Leads Q (K g)) : Leads Q (x >>= K) := by
  intro g' hx
  obtain ⟨g, hg, hx⟩ := exists_ok_of_bind hx
  exact hK g (h g hg) g' hx

/-- What is read may be anything that is there. -/
theorem reading {α : Type} {r : Except Fault α} {K : α → Except Fault Game}
    (hK : ∀ a, r = .ok a → Leads P (K a)) : Leads P (r >>= K) := by
  intro g hx
  obtain ⟨a, ha, hx⟩ := exists_ok_of_bind hx
  exact hK a ha g hx

/-- A decision leads where both ways of it do. -/
theorem ite {b : Prop} [Decidable b] (hx : b → Leads P x) (hy : ¬ b → Leads P y) :
    Leads P (if b then x else y) := by
  split
  next hb => exact hx hb
  next hb => exact hy hb

/-- What is in the open after something in the open is so altogether. -/
theorem after (hx : Leads g₁.Openly x) (h : g.Openly g₁) : Leads g.Openly x :=
  hx.mono fun _ => h.trans

/-- Two things in the open, one after the other. -/
theorem andThen (hx : Leads g.Openly x) (hK : ∀ g₁, Leads g₁.Openly (K g₁)) :
    Leads g.Openly (x >>= K) :=
  hx.bind fun g₁ h => (hK g₁).after h

/-- Nothing happens. -/
theorem still : Leads g.Openly (.ok g) := .ok (.refl g)

/-- Nothing happens to players and messages. -/
theorem same (hplayers : g'.players = g.players) (hout : g'.venue.outbox = g.venue.outbox) :
    Leads g.Openly (.ok g') :=
  .ok (.of_eq hplayers hout)

end Leads

/-! ## Small steps -/

/-- Telling everyone is in the open. -/
theorem openly_broadcast (g : Game) (text : String) (buttons : List Button) :
    g.Openly (g.broadcast text buttons) :=
  ⟨rfl, fun _ => List.filter_cons_of_neg nofun⟩

/-- So is telling everyone without buttons. -/
theorem openly_note (g : Game) (text : String) : g.Openly (g.note text) :=
  g.openly_broadcast text []

/-- Taking an alarm back is in the open. -/
theorem openly_cancelAlarm (g : Game) (id : Option AlarmId) : g.Openly (g.cancelAlarm id) := by
  cases id <;> exact .of_eq rfl rfl

/-- A player who was found sits in the seat. -/
theorem getElem?_of_player {p : Player} (h : g.player seat = .ok p) :
    g.players[seat]? = some p := by
  unfold player at h
  split at h
  next hp =>
    cases h
    exact hp
  next => cases h

/-- A change that leaves name and hand alone is in the open. -/
theorem openly_modifyPlayer {change : Player → Player}
    (hchange : ∀ p, ((change p).name, (change p).cards) = (p.name, p.cards)) :
    Leads g.Openly (g.modifyPlayer seat change) := by
  refine .reading fun p hp => .ok ⟨?_, fun _ => rfl⟩
  exact map_set_eq (getElem?_of_player hp) (hchange p)

/-- Paying a player is in the open. -/
theorem openly_pay (coins : Nat) : Leads g.Openly (g.pay seat coins) :=
  openly_modifyPlayer fun _ => rfl

/-- Charging a player is in the open. -/
theorem openly_charge (coins : Nat) : Leads g.Openly (g.charge seat coins) :=
  .reading fun _ _ => .ite (fun _ => .error) fun _ => openly_modifyPlayer fun _ => rfl

/-- Suspending for another step is in the open. -/
theorem openly_push (f : Frame) : Leads g.Openly (g.push f) := .reading fun _ _ => .same rfl rfl

/-- Ending a step is in the open. -/
theorem openly_pop : Leads g.Openly g.pop := by
  refine .reading fun popped _ => .ok ?_
  have hstack : g.Openly { g with stack := popped.2 } := .of_eq rfl rfl
  exact hstack.trans (openly_cancelAlarm _ _)

/-- Sending the status is in the open. -/
theorem openly_showStatus : Leads g.Openly g.showStatus := by
  have hends : ∀ g : Game, Leads g.Openly (if g.isFinished && !g.isOver then
      g.venue.arm 0 >>= fun armed =>
        .ok { g with venue := armed.2, isOver := true, overAlarm := some armed.1 }
      else .ok g) := by
    refine fun g => .ite (fun _ => .reading fun armed harm => ?_) fun _ => .still
    obtain ⟨a, hvenue⟩ := Venue.eq_of_arm harm
    exact .same rfl (congrArg (·.outbox) hvenue)
  exact .after (hends _) (g.openly_broadcast _ _)

/-- So is passing the turn on. -/
theorem openly_nextTurn : Leads g.Openly g.nextTurn :=
  .after (openly_showStatus (g := { g with current := g.nextSeat })) (.of_eq rfl rfl)

/-! ## Claims -/

/-- Making a claim is in the open. -/
theorem openly_declare (c : Claim) : Leads g.Openly (g.declare c) :=
  .ite (fun _ => .error) fun _ => .andThen (openly_push _) fun _ => .same rfl rfl

/-- Robbing a player is in the open. -/
theorem openly_rob {target : Nat} : Leads g.Openly (g.rob seat target) :=
  .reading fun _ _ => .andThen (openly_charge _) fun _ => openly_pay _

/-- Dropping a claim that was blocked is in the open. -/
theorem openly_dropBlocked : Leads g.Openly g.dropBlocked := by
  have hend : ∀ g : Game, Leads g.Openly ((g.note Wording.blockGranted).pop >>= fun g =>
      .ok g.stir) := fun g =>
    .after (.andThen openly_pop fun _ => .same rfl rfl) (g.openly_note _)
  unfold dropBlocked
  split
  next c _ =>
    cases c.effect with
    | assassinate target => exact .andThen (openly_modifyPlayer fun _ => rfl) hend
    | _ => exact hend g
  next => exact .error

/-- Drawing a card from the deck changes nothing else. -/
theorem players_of_draw {drawn : Character × Game} (h : g.draw = .ok drawn) :
    drawn.2.players = g.players ∧ drawn.2.venue = g.venue := by
  unfold draw at h
  split at h
  · cases h
    exact ⟨rfl, rfl⟩
  · cases h

/-- Nor does drawing several cards. -/
theorem players_of_drawMany {n : Nat} {drawn : List Character × Game}
    (h : drawMany n g = .ok drawn) :
    drawn.2.players = g.players ∧ drawn.2.venue = g.venue := by
  induction n generalizing g drawn with
  | zero =>
    cases h
    exact ⟨rfl, rfl⟩
  | succ n ih =>
    obtain ⟨⟨c, g₁⟩, hdraw, h⟩ := exists_ok_of_bind h
    obtain ⟨⟨rest, g₂⟩, hrest, h⟩ := exists_ok_of_bind h
    cases h
    obtain ⟨hplayers, hvenue⟩ := players_of_draw hdraw
    obtain ⟨hplayers', hvenue'⟩ := ih hrest
    exact ⟨hplayers'.trans hplayers, hvenue'.trans hvenue⟩

/-- Offering cards for an exchange is in the open: they are drawn, but nobody is told yet. -/
theorem openly_startExchange : Leads g.Openly (g.startExchange seat) := by
  refine .reading fun p _ => .reading fun drawn hdrawn => ?_
  obtain ⟨hplayers, hvenue⟩ := players_of_drawMany hdrawn
  exact .after (openly_push _) (.of_eq hplayers (congrArg (·.outbox) hvenue))

/-- Carrying out a claim is in the open. -/
theorem openly_grant : Leads g.Openly (g.grant seat effect) := by
  refine .reading fun actor _ => ?_
  cases effect with
  | foreignAid => exact .after (openly_pay 2) (g.openly_note _)
  | tax => exact .after (openly_pay 3) (g.openly_note _)
  | embezzle =>
    have hnote := g.openly_note (Wording.embezzleGranted actor.name)
    exact .after (openly_pay g.treasury) (hnote.trans (.of_eq rfl rfl))
  | assassinate target =>
    have hpay : ∀ g : Game, Leads g.Openly (g.payAssassin seat >>= fun g =>
        if g.isAlive target then g.pushLoss target else .ok g) := fun g =>
      .andThen (openly_modifyPlayer fun _ => rfl) fun _ =>
        .ite (fun _ => openly_push _) fun _ => .still
    exact .reading fun victim _ => .after (hpay _) (g.openly_note _)
  | steal target => exact .reading fun victim _ => .after openly_rob (g.openly_note _)
  | exchange => exact .after openly_startExchange (g.openly_note _)
  | inspect target =>
    exact .reading fun victim _ =>
      .ite (fun _ => .after (openly_push _) (g.openly_note _)) fun _ => .still
  | block => exact openly_dropBlocked

/-- A claim goes through in the open. -/
theorem openly_resolve (c : Claim) : Leads g.Openly (g.resolve c) :=
  .andThen openly_pop fun g => .after (openly_grant (g := g.stir)) (.of_eq rfl rfl)

/-- A press while a claim is before the table is in the open. -/
theorem openly_claimInput (c : Claim) : Leads g.Openly (g.claimInput c seat m) := by
  have hsuspend : g.Openly (g.suspend c) :=
    (g.openly_cancelAlarm c.alarm).trans (.of_eq rfl rfl)
  cases m with
  | accept =>
    exact .ite (fun _ => .after (openly_resolve _) (.of_eq rfl rfl)) fun _ => .same rfl rfl
  | challenge =>
    refine .ite (fun _ => .after ?_ hsuspend) fun _ => .still
    exact .andThen (openly_push _) fun _ => .same rfl rfl
  | block =>
    exact .ite (fun _ => .reading fun blocker _ => .after (openly_declare _) hsuspend)
      fun _ => .still
  | _ => exact .still

/-- Asking the table about a claim is in the open. -/
theorem openly_askTable (c : Claim) : Leads g.Openly (g.askTable c) := by
  refine .reading fun armed harm => ?_
  obtain ⟨a, hvenue⟩ := Venue.eq_of_arm harm
  have hcancel : (g.cancelAlarm c.alarm).venue.outbox = g.venue.outbox := by
    cases c.alarm <;> rfl
  have hout : armed.2.outbox = g.venue.outbox := (congrArg (·.outbox) hvenue).trans hcancel
  exact .after (.ok (openly_broadcast _ _ _)) (.of_eq rfl hout)

/-- A claim that goes on does so in the open. -/
theorem openly_claimIdle (c : Claim) : Leads g.Openly (g.claimIdle c) :=
  .ite (fun _ => .after (openly_resolve _) (.of_eq rfl rfl))
    fun _ => .after (openly_askTable _) (.of_eq rfl rfl)

/-! ## Challenges -/

/-- Going back to a claim that stands is in the open. -/
theorem openly_uphold (r : Reveal) : Leads g.Openly (g.uphold r) := by
  refine .andThen openly_pop fun g => ?_
  split
  next c _ => exact .after (openly_push _) (.of_eq rfl rfl)
  next => exact .error

/-- Dropping a claim with its challenge is in the open. -/
theorem openly_dropClaim : Leads g.Openly g.dropClaim :=
  .after (.andThen (openly_pop (g := g.stir)) fun _ => openly_pop) (.of_eq rfl rfl)

/-- Conceding is in the open. -/
theorem openly_concede (r : Reveal) : Leads g.Openly (g.concede r) :=
  .reading fun _ _ => .reading fun _ _ =>
    .after (.andThen openly_dropClaim fun _ => openly_push _) (g.openly_note _)

/-! ## Turns -/

/-- Going on with a target is in the open if everything that is done with one is. -/
theorem openly_withTarget {act : Nat → Player → Except Fault Game}
    (hact : ∀ target p, Leads g.Openly (act target p)) (target : Option Nat) (question : String)
    (make : Option Nat → Move) : Leads g.Openly (g.withTarget target question make act) := by
  cases target with
  | none => exact .ok (g.openly_broadcast _ _)
  | some target =>
    exact .ite (fun _ => .reading fun victim _ => hact target victim) fun _ => .still

/-- Taking income is in the open. -/
theorem openly_income (actor : Player) : Leads g.Openly (g.income actor) :=
  .after (.andThen (openly_pay 1) fun _ => .same rfl rfl) (g.openly_note _)

/-- A coup is in the open. -/
theorem openly_coup (actor : Player) (target : Option Nat) :
    Leads g.Openly (g.coup actor target) := by
  refine .ite (fun _ => .still) fun _ => openly_withTarget (fun target victim => ?_) _ _ _
  refine .after (.andThen (openly_charge coupCost) fun g => ?_) (g.openly_note _)
  exact .after (openly_push (g := g.stir) _) (.of_eq rfl rfl)

/-- Changing sides is in the open. -/
theorem openly_convert (actor : Player) (target : Option Nat) :
    Leads g.Openly (g.convert actor target) := by
  refine .ite (fun _ => .still) fun _ => ?_
  cases target with
  | none => exact .ok (g.openly_broadcast _ _)
  | some target =>
    have hflip : ∀ g : Game, Leads g.Openly ((g.modifyPlayer target fun p =>
        { p with allegiance := p.allegiance.flip }) >>= fun g => .ok g.stir) := fun g =>
      .andThen (openly_modifyPlayer fun _ => rfl) fun _ => .same rfl rfl
    refine .ite (fun _ => .reading fun other _ => ?_) fun _ => .still
    refine .after (.andThen (openly_charge _) fun g => ?_) (g.openly_note _)
    exact .after (hflip _) (.of_eq rfl rfl)

/-- The current player's move is in the open. -/
theorem openly_turnInput : Leads g.Openly (g.turnInput seat m) := by
  have hagainst : ∀ (target : Option Nat) question make (claim : Nat → Player → Claim),
      Leads g.Openly (g.withTarget target question make fun target p =>
        g.declare (claim target p)) :=
    fun target question make claim => openly_withTarget (fun _ _ => openly_declare _) _ _ _
  refine .ite (fun _ => .still) fun _ => .reading fun actor _ => ?_
  cases m with
  | coup target => exact openly_coup actor target
  | income => exact .ite (fun _ => .still) fun _ => openly_income actor
  | foreignAid =>
    exact .ite (fun _ => .still) fun _ => openly_declare ((g.newClaim _ _).blockableBy _ _)
  | tax | exchange =>
    exact .ite (fun _ => .still) fun _ => openly_declare ((g.newClaim _ _).challengeableBy _)
  | assassinate target =>
    exact .ite (fun _ => .still) fun _ => .ite (fun _ => .still) fun _ => hagainst target _ _ _
  | steal target => exact .ite (fun _ => .still) fun _ => hagainst target _ _ _
  | convert target => exact .ite (fun _ => .still) fun _ => openly_convert actor target
  | embezzle =>
    exact .ite (fun _ => .still) fun _ => .ite (fun _ => openly_declare _) fun _ => .still
  | inspect target =>
    exact .ite (fun _ => .still) fun _ => .ite (fun _ => hagainst target _ _ _) fun _ => .still
  | _ => exact .ite (fun _ => .still) fun _ => .still

end CoupTable.Game
