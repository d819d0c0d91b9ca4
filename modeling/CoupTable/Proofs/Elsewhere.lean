import CoupTable.Game.Run
import CoupTable.Proofs.Basics

/-!
# Games at other venues

A game sends messages, sets alarms and takes them back, and does not look at its venue otherwise. So
it takes the same course at two venues that are tied to each other, which is to say that they stay
so whatever is sent, set or taken back at both (`Tie`): each function that runs a game leads to the
same game at venues that are tied still, or to the same fault (`Steady`).

The end of a game sets an alarm without delay, and that is all that most functions ask of the clock.
Only the table that is asked about a claim sets one for later, and only the passing of time moves
the clock. What comes of these is the same where the clocks are tied as well (`ClockTie`).
-/

namespace CoupTable

/-! ## Pairs of results -/

/-- Two results agree: values that `R` relates, or the same fault. -/
inductive Both {α β : Type} (R : α → β → Prop) : Except Fault α → Except Fault β → Prop where
  /-- Both are there. -/
  | ok {a : α} {b : β} (h : R a b) : Both R (.ok a) (.ok b)
  /-- Both meet the fault. -/
  | error (cause : Fault) : Both R (.error cause) (.error cause)

/-- The same value stands beside things that `R` relates. -/
inductive Beside {α β γ : Type} (R : β → γ → Prop) : α × β → α × γ → Prop where
  /-- The value is `a`. -/
  | intro (a : α) {b : β} {c : γ} (h : R b c) : Beside R (a, b) (a, c)

namespace Both

variable {α β γ δ : Type} {R : α → β → Prop} {S : γ → δ → Prop}

/-- What follows two results that agree does so if it does for all values that are related. -/
theorem bind {x : Except Fault α} {y : Except Fault β} {K : α → Except Fault γ}
    {K' : β → Except Fault δ} (h : Both R x y) (hK : ∀ a b, R a b → Both S (K a) (K' b)) :
    Both S (x >>= K) (y >>= K') := by
  cases h with
  | ok h => exact hK _ _ h
  | error cause => exact .error cause

/-- What follows the same result agrees if it does for all values. -/
theorem reading {r : Except Fault α} {K : α → Except Fault γ} {K' : α → Except Fault δ}
    (hK : ∀ a, Both S (K a) (K' a)) : Both S (r >>= K) (r >>= K') := by
  cases r with
  | ok a => exact hK a
  | error cause => exact .error cause

/-- Where the one is there so is the other. -/
theorem exists_ok {a : α} {y : Except Fault β} (h : Both R (.ok a) y) :
    ∃ b, y = .ok b ∧ R a b := by
  obtain ⟨h⟩ := h
  exact ⟨_, rfl, h⟩

/-- After the same decision results agree if they do either way. -/
theorem ite {b : Prop} [Decidable b] {x y : Except Fault α} {x' y' : Except Fault β}
    (hx : Both R x x') (hy : Both R y y') :
    Both R (if b then x else y) (if b then x' else y') := by
  by_cases hb : b
  · rwa [if_pos hb, if_pos hb]
  · rwa [if_neg hb, if_neg hb]

end Both

/-! ## Tied venues -/

/-- Venues that `T` relates stay so, whatever a game does at both while no time passes. -/
class Tie (T : Venue → Venue → Prop) : Prop where
  /-- The same message may be sent. -/
  send {v v' : Venue} (h : T v v') (m : Message) : T (v.send m) (v'.send m)
  /-- The same alarm may be taken back. -/
  cancel {v v' : Venue} (h : T v v') (id : AlarmId) : T (v.cancel id) (v'.cancel id)
  /-- An alarm may be set without delay, and gets the same number. -/
  arm {v v' : Venue} (h : T v v') : Both (Beside T) (v.arm 0) (v'.arm 0)

/-- Venues that `T` relates stay so, even if time passes at both. -/
class ClockTie (T : Venue → Venue → Prop) : Prop extends Tie T where
  /-- An alarm may be set for later, and gets the same number. -/
  armLater {v v' : Venue} (h : T v v') (delay : Nat) :
    Both (Beside T) (v.arm delay) (v'.arm delay)
  /-- The clock may be moved, and the same alarms are handed out. -/
  advance {v v' : Venue} (h : T v v') (delay : Nat) :
    Both (Beside T) (v.advance delay) (v'.advance delay)
  /-- The end of the game may be reported. -/
  reportOver {v v' : Venue} (h : T v v') : T v.reportOver v'.reportOver

/-- If there is an alarm it may be taken back at both venues. -/
theorem Tie.release {T : Venue → Venue → Prop} [Tie T] {v v' : Venue} (h : T v v')
    (id : Option AlarmId) : T (v.release id) (v'.release id) := by
  cases id with
  | none => exact h
  | some id => exact Tie.cancel h id

namespace Game

/-- The game at another venue. -/
def movedTo (g : Game) (venue : Venue) : Game := { g with venue }

/-- The other game is the same, at a venue that `T` relates to its own. -/
inductive Elsewhere (T : Venue → Venue → Prop) (g : Game) : Game → Prop where
  /-- It was moved there. -/
  | intro {venue : Venue} (h : T g.venue venue) : Elsewhere T g (g.movedTo venue)

/-- The function leads to the same game at both of two venues that `T` relates, or to the same
fault. -/
def Steady (T : Venue → Venue → Prop) (F : Game → Except Fault Game) : Prop :=
  ∀ ⦃g : Game⦄ ⦃v : Venue⦄, T g.venue v → Both (Elsewhere T) (F g) (F (g.movedTo v))

end Game

namespace Both

open Game (Elsewhere)

variable {T : Venue → Venue → Prop} {g : Game} {v : Venue}

/-- The game is there, and so it is at the other venue. -/
theorem there (h : T g.venue v) : Both (Elsewhere T) (.ok g) (.ok (g.movedTo v)) := .ok (.intro h)

/-- One function of a game goes on after the other. -/
theorem andThen {x x' : Except Fault Game} {K K' : Game → Except Fault Game}
    (hx : Both (Elsewhere T) x x')
    (hK : ∀ ⦃g v⦄, T g.venue v → Both (Elsewhere T) (K g) (K' (g.movedTo v))) :
    Both (Elsewhere T) (x >>= K) (x' >>= K') := by
  refine hx.bind ?_
  rintro g _ ⟨h⟩
  exact hK h

end Both

namespace Game

/-- What is steady is so wherever the game is. -/
theorem Elsewhere.steady {T : Venue → Venue → Prop} {g g' : Game} {F : Game → Except Fault Game}
    (h : Elsewhere T g g') (hF : Steady T F) : Both (Elsewhere T) (F g) (F g') := by
  obtain ⟨h⟩ := h
  exact hF h

variable {T : Venue → Venue → Prop} {g : Game} {v : Venue} {seat slot : Nat} {c : Claim} {m : Move}
  {effect : Effect}

/-! ## Small steps -/

/-- Doing something steady for each member of a list is steady. -/
theorem Steady.foldlM {α : Type} {F : Game → α → Except Fault Game} (h : ∀ a, Steady T (F · a))
    (l : List α) : Steady T fun g => l.foldlM F g := by
  induction l with
  | nil => exact fun _ _ hv => .there hv
  | cons a l ih =>
    intro g v hv
    simp only [List.foldlM_cons]
    exact (h a hv).andThen ih

/-- Changing a player is steady. -/
theorem steady_modifyPlayer (change : Player → Player) : Steady T (·.modifyPlayer seat change) :=
  fun _ _ h => .reading fun _ => .there h

/-- Paying a player is steady. -/
theorem steady_pay (coins : Nat) : Steady T (·.pay seat coins) := steady_modifyPlayer _

/-- Charging a player is steady. -/
theorem steady_charge (coins : Nat) : Steady T (·.charge seat coins) :=
  fun _ _ h => .reading fun _ => .ite (.error _) (steady_modifyPlayer _ h)

/-- Suspending for another step is steady. -/
theorem steady_push (f : Frame) : Steady T (·.push f) := fun _ _ h => .reading fun _ => .there h

/-- Cards are drawn alike. -/
theorem both_draw (h : T g.venue v) : Both (Beside (Elsewhere T)) g.draw (g.movedTo v).draw := by
  have hdeck : (g.movedTo v).deck = g.deck := rfl
  rw [draw, draw, hdeck]
  cases g.deck.draw? with
  | none => exact .error _
  | some drawn => exact .ok (.intro drawn.1 (.intro h))

/-- So are several cards. -/
theorem both_drawMany (n : Nat) (h : T g.venue v) :
    Both (Beside (Elsewhere T)) (drawMany n g) (drawMany n (g.movedTo v)) := by
  induction n generalizing g v with
  | zero => exact .ok (.intro [] (.intro h))
  | succ n ih =>
    refine (both_draw h).bind ?_
    rintro _ _ ⟨c, ⟨h⟩⟩
    refine (ih h).bind ?_
    rintro _ _ ⟨rest, h⟩
    exact .ok (.intro (c :: rest) h)

/-- Turning a card face up is steady. -/
theorem steady_killCard : Steady T (·.killCard seat slot) :=
  fun _ _ h => .reading fun _ => .ite (steady_modifyPlayer _ h) (.error _)

/-- Drawing a card into a slot is steady. -/
theorem steady_drawInto : Steady T (·.drawInto seat slot) := fun _ _ h => by
  refine (both_draw h).bind ?_
  rintro _ _ ⟨c, ⟨h⟩⟩
  exact steady_modifyPlayer _ h

/-- Dealing to some seats is steady. -/
theorem steady_dealTo (seats : List Nat) : Steady T (·.dealTo seats) := by
  refine .foldlM (fun seat _ _ h => (both_drawMany handSize h).bind ?_) seats
  rintro _ _ ⟨drawn, ⟨h⟩⟩
  exact steady_modifyPlayer _ h

/-- Offering cards for an exchange is steady. -/
theorem steady_startExchange : Steady T (·.startExchange seat) := fun g v h => by
  refine .reading fun p => (both_drawMany g.exchangeDraw h).bind ?_
  rintro _ _ ⟨drawn, ⟨h⟩⟩
  exact steady_push _ h

/-- Making a claim is steady. -/
theorem steady_declare (c : Claim) : Steady T (·.declare c) :=
  fun _ _ h => .ite (.error _) ((steady_push _ h).andThen fun g _ h => .there (g := g.stir) h)

/-- Robbing a player is steady. -/
theorem steady_rob {target : Nat} : Steady T (·.rob seat target) := fun _ _ h => by
  refine .reading fun p => ?_
  exact (steady_charge _ h).andThen fun _ _ h => steady_pay _ h

section Tied

variable [Tie T]

/-- Ending a step is steady. -/
theorem steady_pop : Steady T pop := fun g v h => by
  refine .reading fun popped => ?_
  dsimp only
  rw [cancelAlarm_eq, cancelAlarm_eq]
  exact .there (g := { g with stack := popped.2, venue := _ }) (Tie.release h popped.1.alarm)

/-! ## Hands -/

/-- Showing a player the hand is steady. -/
theorem steady_showCards : Steady T (·.showCards seat) := fun _ _ h => by
  refine .reading fun p => ?_
  cases p.isAlive with
  | true => exact .there (Tie.send h _)
  | false => exact .there h

/-- Changing cards for others from the deck is steady. -/
theorem steady_changeCards (cards : List (Nat × Character)) :
    Steady T (·.changeCards seat cards) := fun g v h => by
  have hdrawn : Steady T fun g => cards.foldlM (fun g card => g.drawInto seat card.1) g :=
    .foldlM (fun _ => steady_drawInto) cards
  refine (hdrawn (g := g.returnCards (cards.map (·.2))) h).andThen ?_
  exact fun _ _ h => steady_showCards h

/-- Changing a card is steady. -/
theorem steady_changeCard : Steady T (·.changeCard seat slot) := fun _ _ h => by
  refine .reading fun p => ?_
  cases p.living.find? (·.1 == slot) with
  | some card => exact steady_changeCards [card] h
  | none => exact .error _

/-- Changing the hand is steady. -/
theorem steady_changeHand : Steady T (·.changeHand seat) :=
  fun _ _ h => .reading fun p => steady_changeCards p.living h

/-! ## The status -/

/-- Sending the status is steady. -/
theorem steady_showStatus : Steady T showStatus := fun g v h => by
  have hends : Steady T fun g => if g.isFinished && !g.isOver then
      g.venue.arm 0 >>= fun armed =>
        .ok { g with venue := armed.2, isOver := true, overAlarm := some armed.1 }
      else .ok g := by
    refine fun g v h => .ite ((Tie.arm h).bind ?_) (.there h)
    rintro _ _ ⟨id, h⟩
    exact .there (g := { g with isOver := true, overAlarm := some id, venue := _ }) h
  exact hends (g := g.broadcast _ _) (Tie.send h _)

/-- The turn that passes on is steady. -/
theorem steady_nextTurn : Steady T nextTurn :=
  fun g _ h => steady_showStatus (g := { g with current := g.nextSeat }) h

/-! ## Losses, exchanges and interrogations -/

/-- A press while a player has to lose a card is steady. -/
theorem steady_lossInput {loser : Nat} : Steady T (·.lossInput loser seat m) := fun g v h => by
  cases m with
  | lose slot =>
    refine .reading fun p => .ite ?_ (.there h)
    exact (steady_killCard (g := g.stir) h).andThen fun _ _ h =>
      (steady_showCards h).andThen fun _ _ h => steady_pop h
  | _ => exact .there h

/-- A loss that goes on is steady. -/
theorem steady_lossIdle : Steady T (·.lossIdle seat) := fun g v h => by
  refine .reading fun p => .ite ?_ (.there (Tie.send h _))
  exact (steady_pop (g := g.stir) h).andThen fun _ _ h =>
    Steady.foldlM (fun _ => steady_killCard) _ h

/-- Ending an exchange is steady. -/
theorem steady_endExchange (e : Exchange) : Steady T (·.endExchange e) := fun g v h => by
  refine (steady_pop h).andThen fun g v h => ?_
  refine (steady_modifyPlayer (g := g.returnCards e.offered) _ h).andThen fun _ _ h => ?_
  exact (steady_showCards h).andThen fun g v h => .there (g := g.stir) h

/-- A press during an exchange is steady. -/
theorem steady_exchangeInput (e : Exchange) : Steady T (·.exchangeInput e seat m) :=
  fun g v h => by
    cases m with
    | keep index =>
      unfold exchangeInput
      dsimp only
      cases e.offered[index]? with
      | some c =>
        refine .ite (.ite ?_ (steady_endExchange _ h)) (.there h)
        exact .there (g := (g.setTop _).stir) h
      | none => exact .there h
    | _ => exact .there h

/-- A press during an interrogation is steady. -/
theorem steady_interrogationInput (i : Interrogation) :
    Steady T (·.interrogationInput i seat m) := fun g v h => by
  change Both _ (g.interrogationInput i seat m) ((g.movedTo v).interrogationInput i seat m)
  unfold interrogationInput
  split
  next slot hshown =>
    refine .ite (.reading fun inquisitor => .reading fun target => .ite ?_ (.there h)) (.there h)
    exact .reading fun c => .there (g := (tell (g.setTop _) _ _ _).stir) (Tie.send h _)
  next allowed slot hshown =>
    have hend : Steady T fun g => g.pop >>= fun g => .ok g.stir :=
      fun g v h => (steady_pop h).andThen fun g v h => .there (g := g.stir) h
    refine .ite (.reading fun inquisitor => .reading fun target => ?_) (.there h)
    cases allowed with
    | true => exact hend (g := g.note _) (Tie.send h _)
    | false =>
      exact (steady_changeCard h).andThen fun g v h => hend (g := g.note _) (Tie.send h _)
  next => exact .there h

/-- Asking the inquisitor is steady. -/
theorem steady_askInquisitor (i : Interrogation) : Steady T (·.askInquisitor i slot) :=
  fun _ _ h => .reading fun _ => .reading fun _ => .there (Tie.send h _)

/-- An interrogation that goes on is steady. -/
theorem steady_interrogationIdle (i : Interrogation) : Steady T (·.interrogationIdle i) :=
  fun g v h => by
    refine .reading fun inquisitor => .reading fun target => ?_
    dsimp only
    split
    next slot _ => exact steady_askInquisitor i h
    next slot _ _ => exact steady_askInquisitor _ (g := g.setTop _) h
    next => exact .there (Tie.send h _)

/-! ## Claims -/

/-- Dropping a claim that was blocked is steady. -/
theorem steady_dropBlocked : Steady T dropBlocked := fun g v h => by
  have hend : Steady T fun g => (g.note Wording.blockGranted).pop >>= fun g => .ok g.stir :=
    fun g v h => (steady_pop (g := g.note _) (Tie.send h _)).andThen
      fun g v h => .there (g := g.stir) h
  have htop : (g.movedTo v).stack.top? = g.stack.top? := rfl
  unfold dropBlocked
  rw [htop]
  split
  next c _ =>
    cases c.effect with
    | assassinate target => exact (steady_modifyPlayer _ h).andThen fun _ _ h => hend h
    | _ => exact hend h
  next => exact .error _

/-- Carrying out a claim is steady. -/
theorem steady_grant : Steady T (·.grant seat effect) := fun g v h => by
  refine .reading fun actor => ?_
  cases effect with
  | foreignAid => exact steady_pay 2 (g := g.note _) (Tie.send h _)
  | tax => exact steady_pay 3 (g := g.note _) (Tie.send h _)
  | embezzle =>
    exact steady_pay g.treasury (g := { g.note _ with treasury := 0 }) (Tie.send h _)
  | assassinate target =>
    refine .reading fun victim => ?_
    refine (steady_modifyPlayer _ (g := g.note _) (Tie.send h _)).andThen fun _ _ h => ?_
    exact .ite (steady_push _ h) (.there h)
  | steal target => exact .reading fun victim => steady_rob (g := g.note _) (Tie.send h _)
  | exchange => exact steady_startExchange (g := g.note _) (Tie.send h _)
  | inspect target =>
    exact .reading fun victim => .ite (steady_push _ (g := g.note _) (Tie.send h _)) (.there h)
  | block => exact steady_dropBlocked h

/-- A claim that goes through is steady. -/
theorem steady_resolve (c : Claim) : Steady T (·.resolve c) :=
  fun _ _ h => (steady_pop h).andThen fun g _ h => steady_grant (g := g.stir) h

/-- A claim may be suspended at both venues. -/
theorem elsewhere_suspend (h : T g.venue v) (c : Claim) :
    Elsewhere T (g.suspend c) ((g.movedTo v).suspend c) := by
  unfold suspend
  rw [cancelAlarm_eq, cancelAlarm_eq]
  exact .intro (g := setTop { g with venue := _ } _) (Tie.release h c.alarm)

/-- A press while a claim is before the table is steady. -/
theorem steady_claimInput (c : Claim) : Steady T (·.claimInput c seat m) := fun g v h => by
  cases m with
  | accept => exact .ite (steady_resolve _ (g := g.setTop _) h) (.there (g := g.setTop _) h)
  | challenge =>
    refine .ite ?_ (.there h)
    refine ((elsewhere_suspend h c).steady (steady_push _)).andThen fun g v h => ?_
    exact .there (g := g.stir) h
  | block =>
    refine .ite (.reading fun blocker => ?_) (.there h)
    exact (elsewhere_suspend h c).steady (steady_declare _)
  | _ => exact .there h

/-! ## Challenges -/

/-- Going back to a claim that stands is steady. -/
theorem steady_uphold (r : Reveal) : Steady T (·.uphold r) := fun _ _ h => by
  refine (steady_pop h).andThen fun g v h => ?_
  have htop : (g.movedTo v).stack.top? = g.stack.top? := rfl
  rw [htop]
  split
  next c _ => exact steady_push _ (g := (g.setTop _).stir) h
  next => exact .error _

/-- Dropping a claim with its challenge is steady. -/
theorem steady_dropClaim : Steady T dropClaim :=
  fun g _ h => (steady_pop (g := g.stir) h).andThen fun _ _ h => steady_pop h

/-- Revealing a card is steady. -/
theorem steady_revealCard (r : Reveal) : Steady T (·.revealCard r slot) := fun g v h => by
  refine .reading fun challenger => .reading fun challenged => .reading fun c => .ite ?_ ?_
  · exact (steady_changeCard (g := g.note _) (Tie.send h _)).andThen
      fun _ _ h => steady_uphold r h
  · exact (steady_killCard (g := g.note _) (Tie.send h _)).andThen fun _ _ h =>
      (steady_showCards h).andThen fun _ _ h => steady_dropClaim h

/-- Conceding is steady. -/
theorem steady_concede (r : Reveal) : Steady T (·.concede r) := fun g v h => by
  refine .reading fun challenger => .reading fun challenged => ?_
  exact (steady_dropClaim (g := g.note _) (Tie.send h _)).andThen fun _ _ h => steady_push _ h

/-- Showing the hand is steady. -/
theorem steady_showHand (r : Reveal) : Steady T (·.showHand r) := fun g v h => by
  refine .reading fun challenger => .reading fun challenged => ?_
  exact (steady_changeHand (g := g.note _) (Tie.send h _)).andThen fun _ _ h => steady_uphold r h

/-- A press while a player has to answer a challenge is steady. -/
theorem steady_revealInput (r : Reveal) : Steady T (·.revealInput r seat m) := fun g v h => by
  cases m with
  | reveal choice =>
    refine .reading fun challenged => .ite (.there h) (.ite ?_ ?_)
    · exact .ite (steady_concede r h) (.ite (steady_showHand r h) (.there h))
    · exact .ite (steady_revealCard r h) (.there h)
  | _ => exact .there h

/-- Asking a challenged player is steady. -/
theorem steady_askChallenged (r : Reveal) : Steady T (·.askChallenged r) := fun g v h => by
  refine .reading fun challenger => .reading fun challenged => ?_
  dsimp only
  cases r.inverted <;> exact .there (g := (g.note _).tell _ _ _) (Tie.send (Tie.send h _) _)

/-- A challenge that goes on is steady. -/
theorem steady_revealIdle (r : Reveal) : Steady T (·.revealIdle r) := fun g v h => by
  refine .reading fun challenged => .ite (steady_dropClaim h) ?_
  split
  next slot _ _ => exact steady_revealCard r h
  next => exact steady_askChallenged r h

/-! ## Turns -/

/-- Going on with a target is alike if everything that is done with one is. -/
theorem both_withTarget (h : T g.venue v) {act act' : Nat → Player → Except Fault Game}
    (hact : ∀ target p, Both (Elsewhere T) (act target p) (act' target p)) (target : Option Nat)
    (question : String) (make : Option Nat → Move) :
    Both (Elsewhere T) (g.withTarget target question make act)
      ((g.movedTo v).withTarget target question make act') := by
  cases target with
  | none => exact .there (g := g.askTarget _ _ _) (Tie.send h _)
  | some target => exact .ite (.reading fun victim => hact target victim) (.there h)

/-- A coup is steady. -/
theorem steady_coup (actor : Player) (target : Option Nat) : Steady T (·.coup actor target) :=
  fun g _ h => .ite (.there h) <| both_withTarget h (fun _ _ =>
    (steady_charge _ (g := g.note _) (Tie.send h _)).andThen
      fun g _ h => steady_push _ (g := g.stir) h) _ _ _

/-- Changing sides is steady. -/
theorem steady_convert (actor : Player) (target : Option Nat) :
    Steady T (·.convert actor target) := fun g v h => by
  refine .ite (.there h) ?_
  cases target with
  | none => exact .there (g := g.askTarget _ _ _) (Tie.send h _)
  | some target =>
    refine .ite (.reading fun other => ?_) (.there h)
    refine (steady_charge _ (g := g.note _) (Tie.send h _)).andThen fun g v h => ?_
    refine (steady_modifyPlayer _ (g := { g with treasury := g.treasury + _ }) h).andThen ?_
    exact fun g v h => .there (g := g.stir) h

/-- Making a claim against a target is steady. -/
theorem both_declareAgainst (h : T g.venue v) (claim : Nat → Player → Claim) (target : Option Nat)
    (question : String) (make : Option Nat → Move) :
    Both (Elsewhere T)
      (g.withTarget target question make fun target p => g.declare (claim target p))
      ((g.movedTo v).withTarget target question make fun target p =>
        (g.movedTo v).declare (claim target p)) :=
  both_withTarget h (fun _ _ => steady_declare _ h) target question make

/-- The current player's move is steady. -/
theorem steady_turnInput : Steady T (·.turnInput seat m) := fun g v h => by
  refine .ite (.there h) (.reading fun actor => ?_)
  -- A move that makes a claim is steady since `declare` is, once its conditions are decided alike.
  cases m with
  | coup target => exact steady_coup actor target h
  | income =>
    refine .ite (.there h) ((steady_pay 1 (g := g.note _) (Tie.send h _)).andThen ?_)
    exact fun g v h => .there (g := g.stir) h
  | foreignAid =>
    have hclaim : Both (Elsewhere T) (g.claimForeignAid actor)
        ((g.movedTo v).claimForeignAid actor) :=
      steady_declare ((g.newClaim _ _).blockableBy _ _) h
    exact .ite (.there h) hclaim
  | tax =>
    have hclaim : Both (Elsewhere T) (g.claimTax actor) ((g.movedTo v).claimTax actor) :=
      steady_declare ((g.newClaim _ _).challengeableBy _) h
    exact .ite (.there h) hclaim
  | exchange =>
    have hclaim : Both (Elsewhere T) (g.claimExchange actor)
        ((g.movedTo v).claimExchange actor) :=
      steady_declare ((g.newClaim _ _).challengeableBy _) h
    exact .ite (.there h) hclaim
  | assassinate target =>
    exact .ite (.there h) (.ite (.there h) (both_declareAgainst h _ target _ _))
  | steal target => exact .ite (.there h) (both_declareAgainst h _ target _ _)
  | convert target => exact .ite (.there h) (steady_convert actor target h)
  | embezzle => exact .ite (.there h) (.ite (steady_declare _ h) (.there h))
  | inspect target =>
    exact .ite (.there h) (.ite (both_declareAgainst h _ target _ _) (.there h))
  | _ => exact .ite (.there h) (.there h)

/-! ## The deal -/

/-- Dealing from a shuffled deck is steady. -/
theorem steady_dealFrom (v : Variant) (built : Deck × Pcg) : Steady T (·.dealFrom v built) :=
  fun g _ h => by
    refine (steady_dealTo g.seats
      (g := { g with variant := some v, deck := built.1, rng := built.2 }) h).andThen ?_
    refine fun g v h => .andThen (.ite (steady_charge 1 h) (.there h)) fun g v h => ?_
    exact (Steady.foldlM (fun _ => steady_showCards) g.seats h).andThen
      fun _ _ h => steady_showStatus h

/-- Choosing the variant is steady. -/
theorem steady_variantInput : Steady T (·.variantInput m) := fun g v h => by
  cases m with
  | gameType index =>
    unfold variantInput
    dsimp only
    cases Variant.ofIndex? index with
    | some v =>
      refine (steady_pop h).andThen fun g _ h => ?_
      exact steady_dealFrom v (Deck.build v.cast g.overrides g.rng) (g := g.note _) (Tie.send h _)
    | none => exact .there h
  | _ => exact .there h

/-! ## The frame on top -/

/-- Handing a press to the frame on top is steady. -/
theorem steady_dispatch : Steady T (·.dispatch seat m) := fun g v h => by
  have htop : (g.movedTo v).stack.top? = g.stack.top? := rfl
  change Both _ (g.dispatch seat m) ((g.movedTo v).dispatch seat m)
  unfold dispatch
  rw [htop]
  cases g.stack.top? with
  | none => exact .there h
  | some f =>
    cases f with
    | turn => exact steady_turnInput h
    | variantChoice => exact steady_variantInput h
    | loss loser => exact steady_lossInput h
    | claim c => exact steady_claimInput c h
    | reveal r => exact steady_revealInput r h
    | exchange e => exact steady_exchangeInput e h
    | interrogation i => exact steady_interrogationInput i h

/-- Letting the frame on top go on is steady if each claim that goes on is. -/
theorem both_idle (h : T g.venue v)
    (hclaim : ∀ c, g.stack.top? = some (.claim c) →
      Both (Elsewhere T) (g.claimIdle c) ((g.movedTo v).claimIdle c)) :
    Both (Elsewhere T) g.idle (g.movedTo v).idle := by
  have htop : (g.movedTo v).stack.top? = g.stack.top? := rfl
  unfold idle
  rw [htop]
  cases hf : g.stack.top? with
  | none => exact .there h
  | some f =>
    cases f with
    | turn => exact steady_nextTurn h
    | variantChoice => exact .there h
    | loss loser => exact steady_lossIdle h
    | claim c => exact hclaim c hf
    | reveal r => exact steady_revealIdle r h
    | exchange e => exact .there (g := g.exchangeIdle e) (Tie.send h _)
    | interrogation i => exact steady_interrogationIdle i h

end Tied

/-! ## Tied clocks -/

section ClockTied

variable [ClockTie T]

/-- Asking the table about a claim is steady. -/
theorem steady_askTable (c : Claim) : Steady T (·.askTable c) := fun g v h => by
  change Both _ (g.askTable c) ((g.movedTo v).askTable c)
  unfold askTable
  rw [cancelAlarm_eq, cancelAlarm_eq]
  refine (ClockTie.armLater (Tie.release h c.alarm) g.waitTime).bind ?_
  rintro _ _ ⟨id, h⟩
  exact .there (g := broadcast (setTop { g with venue := _ } _) _ _) (Tie.send h _)

/-- A claim that goes on is steady. -/
theorem steady_claimIdle (c : Claim) : Steady T (·.claimIdle c) :=
  fun g _ h => .ite (steady_resolve _ (g := g.setTop _) h) (steady_askTable _ (g := g.setTop _) h)

/-- Letting the frames go on is steady. -/
theorem steady_settleIn (fuel : Nat) : Steady T (settleIn fuel) := by
  induction fuel with
  | zero => exact fun _ _ h => .there h
  | succ fuel ih =>
    refine fun g v h => .ite ?_ (.there h)
    refine .andThen (both_idle (g := { g with stirred := false }) h ?_) fun _ _ h => ih h
    exact fun c _ => steady_claimIdle c (g := { g with stirred := false }) h

/-- Letting the frames go on until one needs somebody is steady. -/
theorem steady_settle : Steady T settle := fun g _ h => steady_settleIn (2 * g.stack.depth + 1) h

/-- A press is steady. -/
theorem steady_press (data : String) : Steady T (·.press seat data) := fun g v h => by
  refine .ite ?_ (.there h)
  cases Move.parse? data with
  | some m => exact (steady_dispatch h).andThen fun _ _ h => steady_settle h
  | none => exact .there h

/-- An alarm is steady. -/
theorem steady_expire (id : AlarmId) : Steady T (·.expire id) := fun g v h => by
  refine .ite (.there (g := { g with overAlarm := none, venue := g.venue.reportOver })
    (ClockTie.reportOver h)) ?_
  have htop : (g.movedTo v).stack.top? = g.stack.top? := rfl
  rw [htop]
  split
  next c _ =>
    refine .ite ((steady_resolve _ (g := g.setTop _) h).andThen ?_) (.there h)
    exact fun _ _ h => steady_settle h
  next => exact .there h

/-- Rounds of alarms are steady. -/
theorem steady_advanceIn (fuel time : Nat) : Steady T (advanceIn fuel time) := by
  induction fuel generalizing time with
  | zero => exact fun _ _ h => .there h
  | succ fuel ih =>
    intro g v h
    refine (ClockTie.advance h time).bind ?_
    rintro ⟨due, v₁⟩ ⟨_, v₁'⟩ ⟨_, h⟩
    refine .ite (.there (g := { g with venue := v₁ }) h) ?_
    refine (Steady.foldlM steady_expire due (g := { g with venue := v₁ }) h).andThen ?_
    exact fun _ _ h => ih 0 h

/-- The passing of time is steady. -/
theorem steady_advance (time : Nat) : Steady T (·.advance time) :=
  fun g _ h => steady_advanceIn (2 * g.stack.depth + 3) time h

/-- Whatever comes in is steady. -/
theorem steady_feed (i : Input) : Steady T (·.feed i) := by
  cases i with
  | press seat data => exact steady_press data
  | expire id => exact steady_expire id
  | advance time => exact steady_advance time

end ClockTied

end Game

end CoupTable
