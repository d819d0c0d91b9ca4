import CoupTable.Proofs.Discretion

/-!
# Frames that keep the veil

What the frames do as long as no card of the hidden player is turned up or changes hands: turns,
claims, challenges that others answer, losses and interrogations of others, and the status. All of
it is discreet.
-/

namespace CoupTable.Game

variable {q seat slot : Nat} {c : Claim} {m : Move}

/-! ## Claims -/

/-- Making a claim is discreet. -/
theorem discreet_declare (c : Claim) : Discreet q (·.declare c) := by
  unfold declare
  by_cases hidle : (!c.challengeable && !c.blockable) = true
  · simp only [if_pos hidle]
    exact .of_commutes fun _ => rfl
  · simp only [if_neg hidle]
    exact (discreet_push _).bind .stirs

/-- Suspending a claim does not tell games apart. -/
theorem suspend_veiled {g g' : Game} (hsame : g.veiled q = g'.veiled q) (c : Claim) :
    (g.suspend c).veiled q = (g'.suspend c).veiled q := by
  refine setTop_veiled ?_ rfl
  rw [← cancelAlarm_veiled, ← cancelAlarm_veiled, hsame]

/-- A claim that goes through or not is discreet if the other way is. -/
theorem discreet_ifAccepted {F : Game → Except Fault Game} (hF : Discreet q F) (c : Claim) :
    Discreet q fun g => if g.isAccepted c then g.resolve c else F g :=
  .ite (fun g => by rw [isAccepted_veiled]) (discreet_resolve c) hF

/-- A press while a claim is before the table is discreet. -/
theorem discreet_claimInput (c : Claim) (seat : Nat) (m : Move) :
    Discreet q (·.claimInput c seat m) := by
  cases m with
  | accept =>
    have hwaits := discreet_ifAccepted (q := q) (F := .ok) .stay
      { c with accepted := c.accepted.insert seat }
    exact hwaits.onTop _
  | challenge =>
    have hpush : Discreet q fun g =>
        (g.suspend c).push (.reveal ⟨seat, c.actor, c.challengedClans, c.inverted⟩) :=
      (discreet_push _).onto fun _ _ hsame => suspend_veiled hsame c
    refine .ite (fun g => ?_) (hpush.bind .stirs) .stay
    rw [isAlive_veiled]
  | block =>
    have hdeclare : ∀ p : Player, Discreet q fun g => (g.suspend c).declare
        (.counter seat (Wording.block p.name (g.cast.describe c.blockingClans))
          c.blockingClans) := by
      intro p
      refine .reading (r := (·.cast)) (fun _ => rfl) (K := fun g cast => (g.suspend c).declare
        (.counter seat (Wording.block p.name (cast.describe c.blockingClans))
          c.blockingClans)) fun cast => ?_
      exact (discreet_declare _).onto fun _ _ hsame => suspend_veiled hsame c
    refine .ite (fun g => ?_) (.player (fun _ _ _ => rfl) hdeclare) .stay
    rw [isAlive_veiled, canBlock_veiled]
  | _ => exact .stay

/-- Asking the table about a claim is discreet. -/
theorem discreet_askTable (c : Claim) : Discreet q (·.askTable c) := by
  have hask : Discreet q fun g => .ok (g.broadcast (g.claimText c) (claimButtons c)) := by
    refine .of_commutes fun g => ?_
    rw [claimText_veiled]
    rfl
  have harmed : ∀ delay, Discreet q fun g => g.venue.arm delay >>= fun armed =>
      .ok (({ g with venue := armed.2 }.setTop (.claim { c with alarm := some armed.1 })).broadcast
        (g.claimText c) (claimButtons c)) := by
    intro delay
    exact Discreet.arm delay (K := fun id g =>
      .ok ((g.setTop (.claim { c with alarm := some id })).broadcast (g.claimText c)
        (claimButtons c))) fun id => hask.onTop _
  refine .reading (r := (·.waitTime)) (fun _ => rfl) (K := fun g delay =>
    (g.cancelAlarm c.alarm).venue.arm delay >>= fun armed =>
      .ok (({ g with venue := armed.2 }.setTop (.claim { c with alarm := some armed.1 })).broadcast
        (g.claimText c) (claimButtons c))) fun delay => ?_
  refine ((harmed delay).after (c := (·.cancelAlarm c.alarm))
    fun g => cancelAlarm_veiled q g _).congr fun g => ?_
  cases c.alarm <;> rfl

/-- A claim that goes on is discreet. -/
theorem discreet_claimIdle (c : Claim) : Discreet q (·.claimIdle c) :=
  (discreet_ifAccepted (discreet_askTable _) _).onTop _

/-! ## The status -/

/-- Ends a game that is finished, with the alarm that reports it. -/
def conclude (g : Game) : Except Fault Game :=
  if g.isFinished && !g.isOver then
    g.venue.arm 0 >>= fun armed =>
      .ok { g with venue := armed.2, isOver := true, overAlarm := some armed.1 }
  else .ok g

/-- The turn passes on with a status, and the game ends if it is finished. -/
theorem nextTurn_eq (g : Game) : ∃ text buttons,
    g.nextTurn = ({ g with current := g.nextSeat }.broadcast text buttons).conclude :=
  ⟨_, _, rfl⟩

/-- Ending a finished game is discreet. -/
theorem discreet_conclude : Discreet q conclude := by
  refine .ite (fun g => ?_) ?_ .stay
  · rw [isFinished_veiled]
    rfl
  · exact .arm 0 (K := fun id g => .ok { g with isOver := true, overAlarm := some id })
      fun id => .of_commutes fun _ => rfl

/-- Sending the status is discreet. -/
theorem discreet_showStatus : Discreet q showStatus := by
  refine discreet_conclude.after fun g => ?_
  rw [statusText_veiled, isFinished_veiled, turnButtons_veiled]
  rfl

/-- The turn that passes on is discreet. -/
theorem discreet_nextTurn : Discreet q nextTurn := by
  refine discreet_showStatus.after fun g => ?_
  rw [nextSeat_veiled]
  rfl

/-! ## Losses -/

/-- A press while another player has to lose a card is discreet. -/
theorem discreet_lossInput {loser : Nat} (hne : loser ≠ q) (m : Move) :
    Discreet q (·.lossInput loser seat m) := by
  cases m with
  | lose slot =>
    refine .player (fun hq => absurd hq hne) fun p => ?_
    by_cases hopen : (decide (seat = loser) && p.hasLiving slot) = true
    · simp only [if_pos hopen]
      have hkill : Discreet q fun g => g.stir.killCard loser slot :=
        (discreet_killCard hne).after fun _ => rfl
      exact hkill.bind (discreet_showCards.bind discreet_pop)
    · simp only [if_neg hopen]
      exact .stay
  | _ => exact .stay

/-- A loss of another player that goes on is discreet. -/
theorem discreet_lossIdle {loser : Nat} (hne : loser ≠ q) : Discreet q (·.lossIdle loser) := by
  refine .player (fun hq => absurd hq hne) fun p => .ite (fun g => ?_) ?_ (discreet_tell _ _)
  · rw [losesAll_veiled]
  · have hpop : Discreet q fun g => g.stir.pop := discreet_pop.after fun _ => rfl
    exact hpop.bind (.foldlM fun slot _ => discreet_killCard hne)

/-! ## Challenges -/

/-- Going back to a claim that stands is discreet. -/
theorem discreet_uphold (r : Reveal) : Discreet q (·.uphold r) := by
  refine discreet_pop.bind (.topClaim fun c => ?_)
  have hloss : Discreet q fun g => g.stir.pushLoss r.challenger :=
    (discreet_push _).after fun _ => rfl
  exact hloss.onTop _

/-- Dropping a claim with its challenge is discreet. -/
theorem discreet_dropClaim : Discreet q dropClaim := by
  have hpop : Discreet q fun g => g.stir.pop := discreet_pop.after fun _ => rfl
  exact hpop.bind discreet_pop

/-- Conceding a challenge is discreet. -/
theorem discreet_concede (r : Reveal) : Discreet q (·.concede r) := by
  refine .player (fun _ _ _ => rfl) fun challenger => ?_
  refine .player (fun _ _ _ => rfl) fun challenged => ?_
  have hdrop : Discreet q fun g =>
      (g.note (Wording.conceded challenger.name challenged.name)).dropClaim :=
    discreet_dropClaim.after fun _ => rfl
  exact hdrop.bind (discreet_push _)

/-- Asking for the answer to a challenge is discreet: the buttons are for the challenged player
alone. -/
theorem discreet_askChallenged (r : Reveal) : Discreet q (·.askChallenged r) := by
  refine .player (fun _ _ _ => rfl) fun challenger => .player (fun hq g p => ?_) fun p => ?_
  · rw [hq]
    cases r.inverted <;> exact (veil_tell_self _ _ _).trans (veil_tell_self _ _ _).symm
  · refine .reading (r := (·.cast)) (fun _ => rfl) (K := fun g cast =>
      let texts :=
        if r.inverted then
          (Wording.choosingToConcede challenger.name p.name,
            Wording.askConcede challenger.name (cast.describe r.clans))
        else
          (Wording.choosingCard challenger.name p.name,
            Wording.askCard challenger.name (cast.describe r.clans))
      .ok ((g.note texts.1).tell r.challenged texts.2 (revealButtons r p))) fun cast => ?_
    cases r.inverted <;> exact (discreet_tell _ _).after fun _ => rfl

section Others

variable {r : Reveal} (hne : r.challenged ≠ q)
include hne

/-- Another player's revealing a card is discreet. -/
theorem discreet_revealCard : Discreet q (·.revealCard r slot) := by
  refine .player (fun _ _ _ => rfl) fun challenger => .player (fun hq => absurd hq hne)
    fun challenged => ?_
  refine .reading (r := (·.characterAt r.challenged slot)) (K := fun g shown => shown >>= fun c =>
    if r.clans.contains c.clan then
      (g.note (Wording.proven challenger.name challenged.name c.objectName)).changeCard
        r.challenged slot >>= fun g => g.uphold r
    else
      (g.note (Wording.caught challenger.name challenged.name (g.cast.describe r.clans))).killCard
        r.challenged slot >>= fun g => g.showCards r.challenged >>= dropClaim)
    (characterAt_veiled hne) fun shown => ?_
  cases shown with
  | error cause => exact .of_commutes fun _ => rfl
  | ok c =>
    simp only [ok_bind]
    split
    · have hchange : Discreet q fun g =>
          (g.note (Wording.proven challenger.name challenged.name c.objectName)).changeCard
            r.challenged slot := (discreet_changeCard hne).after fun _ => rfl
      exact hchange.bind (discreet_uphold r)
    · have hkill : Discreet q fun g =>
          (g.note (Wording.caught challenger.name challenged.name
            (g.cast.describe r.clans))).killCard r.challenged slot :=
        (discreet_killCard hne).after fun _ => rfl
      exact hkill.bind (discreet_showCards.bind discreet_dropClaim)

/-- Another player's showing the hand is discreet. -/
theorem discreet_showHand : Discreet q (·.showHand r) := by
  refine .player (fun _ _ _ => rfl) fun challenger => .player (fun hq => absurd hq hne)
    fun challenged => ?_
  have hchange : Discreet q fun g =>
      (g.note (Wording.handShown challenger.name challenged.name
        (joinNames " and " (challenged.living.map fun x => x.2.objectName)))).changeHand
          r.challenged := (discreet_changeHand hne).after fun _ => rfl
  exact hchange.bind (discreet_uphold r)

/-- A press while another player has to answer a challenge is discreet. -/
theorem discreet_revealInput (m : Move) : Discreet q (·.revealInput r seat m) := by
  cases m with
  | reveal choice =>
    refine .player (fun hq => absurd hq hne) fun challenged => ?_
    split
    · exact .stay
    · split
      · split
        · exact discreet_concede r
        · split
          · exact discreet_showHand hne
          · exact .stay
      · split
        · exact discreet_revealCard hne
        · exact .stay
  | _ => exact .stay

/-- A challenge to another player that goes on is discreet. -/
theorem discreet_revealIdle : Discreet q (·.revealIdle r) := by
  refine .player (fun hq => absurd hq hne) fun challenged => ?_
  split
  · exact discreet_dropClaim
  · split
    · exact discreet_revealCard hne
    · exact discreet_askChallenged r

end Others

/-! ## Exchanges and interrogations -/

/-- Asking for a card to keep is discreet. -/
theorem discreet_exchangeIdle (e : Exchange) : Discreet q fun g => .ok (g.exchangeIdle e) :=
  discreet_tell _ _

/-- Ending another player's exchange is discreet. -/
theorem discreet_endExchange {e : Exchange} (hne : e.player ≠ q) :
    Discreet q (·.endExchange e) := by
  have hchange : Discreet q fun g =>
      (g.returnCards e.offered).modifyPlayer e.player fun p => { p with cards := e.hand } :=
    (discreet_modifyPlayer fun hq => absurd hq hne).after fun _ => rfl
  exact discreet_pop.bind (hchange.bind (discreet_showCards.bind .stirs))

/-- A press during another player's exchange is discreet. -/
theorem discreet_exchangeInput {e : Exchange} (hne : e.player ≠ q) (m : Move) :
    Discreet q (·.exchangeInput e seat m) := by
  cases m with
  | keep index =>
    unfold exchangeInput
    dsimp only
    split
    · split
      · split
        · exact Discreet.stirs.onTop _
        · exact discreet_endExchange hne
      · exact .stay
    · exact .stay
  | _ => exact .stay

/-- Whether there is a card is known to all. -/
theorem exists_characterAt_veiled (g : Game) : (fun _ => ()) <$> (g.veiled q).characterAt seat slot
    = (fun _ => ()) <$> g.characterAt seat slot := by
  have hcards : ∀ p : Player, p.veiled.cards[slot]? = p.cards[slot]?.map (·.veiled) :=
    fun p => List.getElem?_map
  unfold characterAt
  rw [player_veiled]
  cases g.player seat with
  | error cause => rfl
  | ok p =>
    by_cases hq : q = seat
    · simp only [bind_map_left, ok_bind, if_pos hq, hcards]
      cases p.cards[slot]? <;> rfl
    · simp only [bind_map_left, ok_bind, if_neg hq]

/-- Showing a card to the inquisitor is discreet until the inquisitor is asked about it. -/
theorem discreet_showInput (i : Interrogation) : Discreet q (·.showInput i slot) := by
  refine .player (fun _ _ _ => rfl) fun inquisitor => .player (fun _ g p => ?_) fun target => ?_
  · rw [Player.hasLiving_veiled]
  · split
    · have hshown : ∀ c : Character, Discreet q fun g =>
          .ok ((g.setTop (.interrogation { i with shown := some slot })).tell i.target
            (Wording.deciding inquisitor.name c.objectName) []).stir := by
        intro c
        exact ((discreet_tell _ _).bind .stirs).onTop _
      by_cases hq : i.target = q
      · intro g g' hsame
        have hunseen : ∀ (g : Game) (text : String),
            (g.tell i.target text []).veiled q = g.veiled q := by
          intro g text
          rw [tell_veiled, if_pos hq]
        have hcard := congrArg (fun g => (fun _ => ()) <$> g.characterAt i.target slot) hsame
        simp only [exists_characterAt_veiled] at hcard
        refine veil_bind_congr hcard fun c c' _ => (hshown c g g' hsame).trans ?_
        exact congrArg (fun x : Game => (Except.ok x.stir : Except Fault Game))
          ((hunseen _ _).trans (hunseen _ _).symm)
      · refine .reading (r := (·.characterAt i.target slot)) (K := fun g shown => shown >>= fun c =>
          .ok ((g.setTop (.interrogation { i with shown := some slot })).tell i.target
            (Wording.deciding inquisitor.name c.objectName) []).stir) (characterAt_veiled hq)
          fun shown => ?_
        cases shown with
        | error cause => exact .of_commutes fun _ => rfl
        | ok c => exact hshown c
    · exact .stay

/-- Letting a card be kept is discreet. -/
theorem discreet_letKeep (i : Interrogation) : Discreet q (·.keepInput i slot true) := by
  refine .player (fun _ _ _ => rfl) fun inquisitor => .player (fun _ _ _ => rfl) fun target => ?_
  have hpop : Discreet q fun g => (g.note (Wording.letKeep inquisitor.name target.name)).pop :=
    discreet_pop.after fun _ => rfl
  exact hpop.bind .stirs

section Others

variable {i : Interrogation} (hne : i.target ≠ q)
include hne

/-- Having another player's card changed is discreet. -/
theorem discreet_makeChange : Discreet q (·.keepInput i slot false) := by
  refine .player (fun _ _ _ => rfl) fun inquisitor => .player (fun hq => absurd hq hne)
    fun target => ?_
  have hnote : Discreet q fun g =>
      .ok (g.note (Wording.madeChange inquisitor.name target.name)) := .of_commutes fun _ => rfl
  exact (discreet_changeCard hne).bind (hnote.bind (discreet_pop.bind .stirs))

/-- A press while another player is interrogated is discreet. -/
theorem discreet_interrogationInput (m : Move) : Discreet q (·.interrogationInput i seat m) := by
  unfold interrogationInput
  split
  · split
    · exact discreet_showInput i
    · exact .stay
  next allowed slot _ =>
    split
    · cases allowed with
      | true => exact discreet_letKeep i
      | false => exact discreet_makeChange hne
    · exact .stay
  · exact .stay

/-- Asking about another player's card is discreet. -/
theorem discreet_askInquisitor : Discreet q (·.askInquisitor i slot) := by
  refine .player (fun _ _ _ => rfl) fun target => ?_
  refine .reading (r := (·.characterAt i.target slot)) (K := fun g shown => shown >>= fun c =>
    .ok (g.tell i.inquisitor (Wording.askCanKeep target.name c.objectName)
      [⟨"Yes", (Move.canKeep true).data⟩, ⟨"No", (Move.canKeep false).data⟩]))
    (characterAt_veiled hne) fun shown => ?_
  cases shown with
  | error cause => exact .of_commutes fun _ => rfl
  | ok c => exact discreet_tell _ _

/-- An interrogation of another player that goes on is discreet. -/
theorem discreet_interrogationIdle : Discreet q (·.interrogationIdle i) := by
  refine .player (fun _ _ _ => rfl) fun inquisitor => .player (fun hq => absurd hq hne)
    fun target => ?_
  split
  · exact discreet_askInquisitor hne
  · exact (discreet_askInquisitor (i := { i with shown := _ }) hne).onTop _
  · exact discreet_tell _ _

end Others

/-! ## Turns -/

/-- A claim of the current player is discreet. -/
theorem discreet_declareOwn (make : Nat → Claim) :
    Discreet q fun g => g.declare (make g.current) :=
  .reading (r := (·.current)) (fun _ => rfl) (K := fun g current => g.declare (make current))
    fun _ => discreet_declare _

/-- Asking for a target is discreet. -/
theorem discreet_askTarget {seats : Game → List Nat} (hseats : ∀ g, seats (g.veiled q) = seats g)
    (question : String) (make : Option Nat → Move) :
    Discreet q fun g => .ok (g.askTarget (seats g) question make) := by
  refine .of_commutes fun g => ?_
  have hnames : (g.veiled q).nameOf = g.nameOf := funext (nameOf_veiled q g)
  unfold askTarget
  rw [hseats, hnames]
  rfl

/-- Going on with a target is discreet if everything that is done with one is. -/
theorem discreet_withTarget {A : Game → Nat → Player → Except Fault Game}
    (hlooks : ∀ g target p, A g target p.veiled = A g target p)
    (hact : ∀ target p, Discreet q (A · target p)) (target : Option Nat) (question : String)
    (make : Option Nat → Move) :
    Discreet q fun g => g.withTarget target question make (A g) := by
  cases target with
  | none => exact discreet_askTarget (targets_veiled q) question make
  | some target =>
    refine .ite (fun g => ?_) (.player (fun _ g p => ?_) (hact target)) .stay
    · have htarget := isTarget_veiled q g g.current target
      exact congrArg (· = true) htarget
    · rw [hlooks]

/-- A coup is discreet. -/
theorem discreet_coup (actor : Player) (target : Option Nat) :
    Discreet q (·.coup actor target) := by
  unfold coup
  split
  · exact .stay
  · refine discreet_withTarget (A := fun g target victim =>
      (g.note (Wording.coup actor.name victim.name)).charge g.current coupCost >>= fun g =>
        g.stir.pushLoss target) (fun _ _ _ => rfl) (fun target victim => ?_) _ _ _
    have hcharge : Discreet q fun g =>
        (g.note (Wording.coup actor.name victim.name)).charge g.current coupCost :=
      .reading (r := (·.current)) (fun _ => rfl) (K := fun g current =>
        (g.note (Wording.coup actor.name victim.name)).charge current coupCost)
        fun current => (discreet_charge _).after fun _ => rfl
    have hloss : Discreet q fun g => g.stir.pushLoss target := (discreet_push _).after fun _ => rfl
    exact hcharge.bind hloss

/-- Changing sides is discreet. -/
theorem discreet_convert (actor : Player) (target : Option Nat) :
    Discreet q (·.convert actor target) := by
  refine .ite (fun _ => rfl) .stay ?_
  cases target with
  | none => exact discreet_askTarget (livingSeats_veiled q) _ _
  | some target =>
    refine .ite (fun g => ?_) (.player (fun _ _ _ => rfl) fun other => ?_) .stay
    · rw [isAlive_veiled]
      rfl
    · refine .reading (r := (·.current)) (fun _ => rfl) (K := fun g current =>
        (g.note (if target = current then Wording.convertSelf actor.name
          else Wording.convertOther actor.name other.name)).charge current
            (conversionCost current target) >>= fun g =>
          modifyPlayer { g with treasury := g.treasury + conversionCost current target } target
            (fun p => { p with allegiance := p.allegiance.flip }) >>= fun g => .ok g.stir)
        fun current => ?_
      have hcharge : Discreet q fun g => (g.note (if target = current
          then Wording.convertSelf actor.name
          else Wording.convertOther actor.name other.name)).charge current
            (conversionCost current target) := (discreet_charge _).after fun _ => rfl
      have hflip : Discreet q (·.modifyPlayer target fun p =>
          { p with allegiance := p.allegiance.flip }) := discreet_modifyOpenly fun _ => rfl
      have hturned : Discreet q fun g => modifyPlayer
          { g with treasury := g.treasury + conversionCost current target } target
            (fun p => { p with allegiance := p.allegiance.flip }) := hflip.after fun _ => rfl
      exact hcharge.bind (hturned.bind .stirs)

/-- The current player's move is discreet. -/
theorem discreet_turnInput (seat : Nat) (m : Move) : Discreet q (·.turnInput seat m) := by
  refine .ite (fun _ => rfl) .stay (.player (fun _ g p => ?_) fun actor => ?_)
  · cases m <;> rfl
  · -- A player with ten coins has nothing but the coup, and coins are known to all.
    have hrich : ∀ {F}, Discreet q F →
        Discreet q fun g => if actor.coins ≥ forcedCoupCoins then .ok g else F g :=
      fun hF => .ite (fun _ => rfl) .stay hF
    -- A claim says who makes it and what for, which everybody is told, against a target or not.
    have hclaim : ∀ message effect, Discreet q fun g =>
        g.declare (.opening g.current message effect) :=
      fun message effect => discreet_declareOwn (.opening · message effect)
    have hagainst : ∀ (target : Option Nat) question make (message : String → String)
        (effect : Nat → Effect),
        Discreet q fun g => g.withTarget target question make fun target victim =>
          g.declare (.opening g.current (message victim.name) (effect target)) :=
      fun target question make message effect => discreet_withTarget (A := fun g target victim =>
        g.declare (.opening g.current (message victim.name) (effect target)))
        (fun _ _ _ => rfl) (fun target victim => hclaim _ _) target question make
    -- Whatever else a move reads, its price, the cast or the variant, is on the table as well.
    cases m with
    | coup target => exact discreet_coup actor target
    | income =>
      have hpay : Discreet q fun g => (g.note (Wording.income actor.name)).pay g.current 1 :=
        .reading (r := (·.current)) (fun _ => rfl) (K := fun g current =>
          (g.note (Wording.income actor.name)).pay current 1)
          fun current => (discreet_pay 1).after fun _ => rfl
      exact hrich (hpay.bind .stirs)
    | foreignAid => exact hrich (hclaim (Wording.foreignAid actor.name) .foreignAid)
    | tax => exact hrich (hclaim (Wording.tax actor.name) .tax)
    | assassinate target =>
      have hpoor : Discreet q fun g => if actor.coins < assassinationCost then .ok g else
          g.withTarget target Wording.whomToAssassinate .assassinate fun target victim =>
            g.declare (.opening g.current (Wording.assassinate actor.name victim.name)
              (.assassinate target)) :=
        .ite (fun _ => rfl) .stay (hagainst _ _ _ _ _)
      exact hrich hpoor
    | exchange =>
      have hexchange : Discreet q fun g => g.declare (.opening g.current
          (Wording.exchange actor.name (g.cast.character .negotiators).objectName) .exchange) :=
        .reading (r := (·.cast)) (fun _ => rfl) (K := fun g cast => g.declare (.opening g.current
          (Wording.exchange actor.name (cast.character .negotiators).objectName) .exchange))
          fun cast => hclaim _ _
      exact hrich hexchange
    | steal target => exact hrich (hagainst target _ _ (Wording.steal actor.name) .steal)
    | convert target => exact hrich (discreet_convert actor target)
    | embezzle =>
      have hreformed : Discreet q fun g => if g.isReformation then
          g.declare (.opening g.current (Wording.embezzle actor.name) .embezzle) else .ok g :=
        .ite (fun _ => rfl) (hclaim _ _) .stay
      exact hrich hreformed
    | inspect target =>
      have hinquired : Discreet q fun g => if g.usesInquisitor then
          g.withTarget target Wording.whomToInspect .inspect fun target victim =>
            g.declare (.opening g.current (Wording.inspect actor.name victim.name)
              (.inspect target)) else .ok g :=
        .ite (fun _ => rfl) (hagainst _ _ _ _ _) .stay
      exact hrich hinquired
    | _ => exact hrich .stay

/-! ## Dealing -/

/-- Dealing cards is discreet. -/
theorem discreet_dealTo (seats : List Nat) : Discreet q (·.dealTo seats) := by
  refine .foldlM fun seat _ => ?_
  exact Discreet.draw (K := fun drawn g =>
    g.modifyPlayer seat fun p => { p with cards := drawn.map fun c => ⟨c, false⟩ })
    fun drawn => discreet_modifyPlayer fun _ _ => rfl

/-- What a player less is paid in a game of two is known to all. -/
theorem discreet_payHandicap : Discreet q payHandicap := by
  refine .ite (fun g => ?_) ?_ .stay
  · rw [length_players_veiled]
  · exact .reading (r := (·.current)) (fun _ => rfl) (K := fun g current => g.charge current 1)
      fun current => discreet_charge 1

/-- Dealing from a deck is discreet. -/
theorem discreet_deal (v : Variant) : Discreet q (·.deal v) := by
  have hbuilt : ∀ built, Discreet q fun g => dealFrom g v built := by
    intro built
    have hdealt : Discreet q fun g =>
        { g with variant := some v, deck := built.1, rng := built.2 }.dealTo g.seats := by
      refine .reading (r := (·.seats)) (seats_veiled q) (K := fun g seats =>
        { g with variant := some v, deck := built.1, rng := built.2 }.dealTo seats) fun seats => ?_
      exact (discreet_dealTo seats).after fun _ => rfl
    have hshown : Discreet q fun g => g.seats.foldlM (fun g seat => g.showCards seat) g :=
      .reading (r := (·.seats)) (seats_veiled q) (K := fun g seats =>
        seats.foldlM (fun g seat => g.showCards seat) g)
        fun seats => .foldlM fun seat _ => discreet_showCards
    exact hdealt.bind (discreet_payHandicap.bind (hshown.bind discreet_showStatus))
  exact .reading (r := fun g => Deck.build v.cast g.overrides g.rng) (fun _ => rfl)
    (K := fun g built => g.dealFrom v built) hbuilt

/-- Choosing the variant is discreet. -/
theorem discreet_variantInput (m : Move) : Discreet q (·.variantInput m) := by
  cases m with
  | gameType index =>
    unfold variantInput
    dsimp only
    split
    next v _ =>
      have hdeal : Discreet q fun g => (g.note (Wording.variantChosen v.name)).deal v :=
        (discreet_deal v).after fun _ => rfl
      exact discreet_pop.bind hdeal
    · exact .stay
  | _ => exact .stay

end CoupTable.Game
