import CoupTable.Proofs.Choosing
import CoupTable.Proofs.Continuing
import CoupTable.Proofs.Exposure
import CoupTable.Proofs.Openly
import CoupTable.Proofs.Owing
import CoupTable.Proofs.Runs

/-!
# What players know of their own hands

A player acts on slots, and knows the own hand from the last message about it. That message lists
the hand as it is (`Game.Aware`): whoever's cards are changed is told of them before anything else
is said, and nothing else that a player is told begins as such a message does. Only another player's
name could, since some questions open with one; so the name of nobody else may (`Unmistakable`).

A hand that was changed, and whose owner is to be told yet, is no matter to the others
(`AwareBut`).
-/

namespace CoupTable

/-! ## What a hand reads like -/

/-- Every card that there is, alive or dead. -/
def Card.all : List Card := Character.all.flatMap fun c => [⟨c, false⟩, ⟨c, true⟩]

/-- There is no other card. -/
theorem Card.mem_all (card : Card) : card ∈ all := by
  obtain ⟨c, dead⟩ := card
  cases c <;> cases dead <;> decide

/-- A card can be told by how its owner sees it. -/
theorem Card.face_inj {card card' : Card} (h : card.face = card'.face) : card = card' := by
  have hall : ∀ card ∈ all, ∀ card' ∈ all, card.face = card'.face → card = card' := by
    decide +kernel
  exact hall card card.mem_all card' card'.mem_all h

/-- A card fits in a line. -/
theorem Card.newline_not_mem_face (card : Card) : '\n' ∉ card.face.toList := by
  have hall : ∀ card ∈ all, '\n' ∉ card.face.toList := by
    decide +kernel
  exact hall card card.mem_all

/-- The lines about some cards. -/
def cardLines (cards : List Card) : List Char := cards.flatMap fun card => '\n' :: card.face.toList

/-- A card is all that stands before the next line. -/
theorem takeWhile_cardLines (card : Card) (cards : List Card) :
    (card.face.toList ++ cardLines cards).takeWhile (· != '\n') = card.face.toList := by
  have hnext : (cardLines cards).takeWhile (· != '\n') = [] := by
    cases cards <;> rfl
  rw [List.takeWhile_append_of_pos, hnext, List.append_nil]
  intro c hc
  rw [bne_iff_ne]
  rintro rfl
  exact card.newline_not_mem_face hc

/-- The lines about cards tell the cards, in order. -/
theorem cardLines_inj {cards cards' : List Card} (h : cardLines cards = cardLines cards') :
    cards = cards' := by
  induction cards generalizing cards' with
  | nil =>
    cases cards' with
    | nil => rfl
    | cons => cases h
  | cons card cards ih =>
    cases cards' with
    | nil => cases h
    | cons card' cards' =>
      have hrest : card.face.toList ++ cardLines cards = card'.face.toList ++ cardLines cards' :=
        (List.cons.inj h).2
      have hface : card.face.toList = card'.face.toList := by
        rw [← takeWhile_cardLines card cards, hrest, takeWhile_cardLines]
      rw [hface] at hrest
      rw [Card.face_inj (String.toList_inj.1 hface), ih (List.append_cancel_left hrest)]

/-- What a player reads of the hand depends on the cards alone. -/
theorem Player.handText_congr {p q : Player} (h : p.cards = q.cards) : p.handText = q.handText :=
  congrArg (fun cards : List Card =>
    "Your cards are:" ++ String.join (cards.map fun card => "\n" ++ card.face)) h

/-- What a player reads of the hand is a greeting and a line for each card. -/
theorem Player.toList_handText (p : Player) :
    p.handText.toList = "Your cards are:".toList ++ cardLines p.cards := by
  have hlines : (String.join (p.cards.map fun card => "\n" ++ card.face)).toList
      = cardLines p.cards := by
    rw [String.toList_join, List.flatMap_map]
    exact congrArg (List.flatMap · p.cards) (funext fun card => String.toList_append)
  exact String.toList_append.trans (congrArg _ hlines)

/-- What a player reads of the hand tells the cards, in order, and which of them are dead. -/
theorem Player.cards_of_handText {p q : Player} (h : p.handText = q.handText) :
    p.cards = q.cards := by
  have hsame : "Your cards are:".toList ++ cardLines p.cards
      = "Your cards are:".toList ++ cardLines q.cards := by
    rw [← toList_handText, ← toList_handText, h]
  exact cardLines_inj (List.append_cancel_left hsame)

/-! ## Beginnings -/

/-- The text begins as a message about a hand does. -/
def greets (text : String) : Bool := "Your cards are:".toList.isPrefixOf text.toList

/-- A text with another first character does not begin as a message about a hand. -/
theorem greets_of_head? {text : String} (h : text.toList.head? ≠ some 'Y') :
    greets text = false := by
  refine Bool.eq_false_iff.2 fun hgreets => h ?_
  obtain ⟨rest, hrest⟩ := List.isPrefixOf_iff_prefix.1 hgreets
  rw [← hrest]
  rfl

/-- A list that begins two others put together, and not the first alone, has a rest that the second
begins with, as far as the second goes. -/
theorem take_prefix_of_prefix_append {start first second rest : List Char} {n : Nat}
    (h : start <+: first ++ (second ++ rest)) (hfirst : ¬ start <+: first)
    (hn : n ≤ second.length) :
    first.length < start.length ∧ (start.drop first.length).take n <+: second.take n := by
  obtain ⟨tail, htail⟩ := h
  have hlt : first.length < start.length := by
    by_contra hge
    refine hfirst ?_
    have hstart := congrArg (List.take start.length) htail
    rw [List.take_left, List.take_append_of_le_length (Nat.not_lt.1 hge)] at hstart
    rw [hstart]
    exact List.take_prefix _ _
  have hrest := congrArg (List.drop first.length) htail
  rw [List.drop_left, List.drop_append_of_le_length (Nat.le_of_lt hlt)] at hrest
  have hopens : start.drop first.length <+: second ++ rest := ⟨tail, hrest⟩
  have htake : (second ++ rest).take n = second.take n := List.take_append_of_le_length hn
  rw [← htake, List.prefix_take_iff]
  exact ⟨hlt, (List.take_prefix _ _).trans hopens, List.length_take_le ..⟩

/-- How questions go on after the name that they open with. -/
def continuations : List (List Char) := [[' ', 'd'], [' ', 'b'], [' ', 'i'], [' ', 's']]

/-- Nothing in the beginning of a message about a hand goes on like that. -/
theorem not_prefix_continuation : ∀ k < "Your cards are:".toList.length, ∀ pair ∈ continuations,
    ¬ ("Your cards are:".toList.drop k).take 2 <+: pair := by
  decide

/-- A question that opens with a name begins as a message about a hand only if the name does. -/
theorem greets_of_name {name : String} (h : greets name = false) (middle rest : String)
    (hmiddle : middle.toList.take 2 ∈ continuations) :
    greets (name ++ middle ++ rest) = false := by
  refine Bool.eq_false_iff.2 fun hgreets => ?_
  have hprefix := List.isPrefixOf_iff_prefix.1 hgreets
  have htext : (name ++ middle ++ rest).toList = name.toList ++ (middle.toList ++ rest.toList) := by
    rw [String.toList_append, String.toList_append, List.append_assoc]
  rw [htext] at hprefix
  have hname : ¬ "Your cards are:".toList <+: name.toList := fun hlong =>
    Bool.eq_false_iff.1 h (List.isPrefixOf_iff_prefix.2 hlong)
  have hlen : 2 ≤ middle.toList.length := by
    have hpairs : ∀ pair ∈ continuations, pair.length = 2 := by decide
    rw [← hpairs _ hmiddle]
    exact List.length_take_le' ..
  obtain ⟨hlt, hopens⟩ := take_prefix_of_prefix_append hprefix hname hlen
  exact not_prefix_continuation _ hlt _ hmiddle hopens

section Questions

variable {name : String} (h : greets name = false) (cards : String)
include h

/-- A player who is asked for a card is not told a hand. -/
theorem greets_askCard : greets (Wording.askCard name cards) = false := by
  have htext := greets_of_name h " doesn’t believe that you have "
    (cards ++ ".\nWhich card do you want to show them?") (by decide)
  rwa [← String.append_assoc] at htext

/-- Nor is a player who is asked to concede. -/
theorem greets_askConcede : greets (Wording.askConcede name cards) = false := by
  have htext := greets_of_name h " believes that you do have "
    (cards ++ ".\nDo you want to concede?") (by decide)
  rwa [← String.append_assoc] at htext

/-- Nor is a player who waits for the inquisitor. -/
theorem greets_deciding : greets (Wording.deciding name cards) = false :=
  greets_of_name h " is now deciding whether you can keep " cards (by decide)

/-- Nor is the inquisitor. -/
theorem greets_askCanKeep : greets (Wording.askCanKeep name cards) = false := by
  have htext := greets_of_name h " shows " (cards ++ " to you. Can they keep it?") (by decide)
  rwa [← String.append_assoc] at htext

end Questions

/-- A player who is asked for a card to show is not told a hand. -/
theorem greets_askShow (inquisitor : String) : greets (Wording.askShow inquisitor) = false := by
  have htext : (Wording.askShow inquisitor).toList
      = "Which card do you want to show to ".toList ++ (inquisitor ++ "?").toList := by
    rw [← String.toList_append, ← String.append_assoc]
    rfl
  have hfirst : "Which card do you want to show to ".toList.head? = some 'W' := by decide
  refine greets_of_head? ?_
  rw [htext, List.head?_append, hfirst]
  exact nofun

/-- What a player reads of the hand begins so. -/
theorem greets_handText (p : Player) : greets p.handText = true := by
  rw [greets, List.isPrefixOf_iff_prefix, p.toList_handText]
  exact List.prefix_append ..

namespace Game

variable {g g' x : Game} {seat who slot : Nat} {p : Player} {text : String} {buttons : List Button}
  {result : Except Fault Game}

/-- The last message to a player that begins as one about the hand does. -/
def lastHand? (g : Game) (seat : Nat) : Option Message := (g.toldTo seat).find? (greets ·.text)

/-- Nobody else has a name that begins as a message about the player's hand does. -/
def Unmistakable (seat : Nat) (g : Game) : Prop :=
  ∀ (other : Nat) (name : String), g.names[other]? = some name → other ≠ seat → greets name = false

/-- While the player lives, the last message about the hand lists it as it is, as long as no name is
mistaken for one. -/
def Aware (seat : Nat) (g : Game) : Prop :=
  Unmistakable seat g → ∀ p, g.players[seat]? = some p → p.isAlive = true →
    g.lastHand? seat = some ⟨.player seat, p.handText, []⟩

/-- The player is aware of the hand, unless it is that of `who`, which was changed. -/
def AwareBut (who seat : Nat) (g : Game) : Prop := who ≠ seat → Aware seat g

/-- Whoever is aware is so whatever hand is to be changed. -/
theorem Aware.but (h : Aware seat g) (who : Nat) : AwareBut who seat g := fun _ => h

/-- Whether a message can be mistaken depends on the names alone. -/
theorem Unmistakable.of_names (h : Unmistakable seat g') (hnames : g'.names = g.names) :
    Unmistakable seat g :=
  fun other name hother => h other name (hnames ▸ hother)

/-- A player's name does not begin as a message about the hand of another does. -/
theorem Unmistakable.name (h : Unmistakable seat g) (hp : g.player who = .ok p)
    (hne : who ≠ seat) : greets p.name = false := by
  refine h who p.name ?_ hne
  rw [names, List.getElem?_map, getElem?_of_player hp]
  rfl

/-! ## What happens in the open -/

/-- Whoever has the same names and hands has the same names. -/
theorem Openly.names (h : g.Openly g') : g'.names = g.names := by
  have hnames : ∀ g : Game, g.names = g.hands.map Prod.fst := fun g => by
    rw [Game.names, Game.hands, List.map_map]
    rfl
  rw [hnames, hnames, h.hands]

/-- A player has the hand of whoever sat in the seat before. -/
theorem Openly.exists_player (h : g.Openly g') (hp : g'.players[seat]? = some p) :
    ∃ q, g.players[seat]? = some q ∧ q.cards = p.cards := by
  have hhands := congrArg (·[seat]?) h.hands
  simp only [Game.hands, List.getElem?_map, hp, Option.map_some] at hhands
  obtain ⟨q, hq, heq⟩ := Option.map_eq_some_iff.1 hhands.symm
  exact ⟨q, hq, (Prod.mk.inj heq).2⟩

/-- Nothing that happens in the open takes awareness away. -/
theorem Aware.of_openly (h : Aware seat g) (hopen : g.Openly g') : Aware seat g' := by
  intro hnames p hp hlives
  obtain ⟨q, hq, hcards⟩ := hopen.exists_player hp
  have hlives' : q.isAlive = true := by rwa [Player.isAlive, hcards]
  rw [lastHand?, hopen.toldTo, ← lastHand?, h (hnames.of_names hopen.names) q hq hlives',
    Player.handText_congr hcards]

/-- So with the others, where the hand of one was changed. -/
theorem AwareBut.of_openly (h : AwareBut who seat g) (hopen : g.Openly g') :
    AwareBut who seat g' :=
  fun hne => (h hne).of_openly hopen

/-- A result in the open leaves whoever is aware so. -/
theorem Leads.aware (hresult : Leads g.Openly result) (h : Aware seat g) :
    Leads (Aware seat) result :=
  hresult.mono fun _ => h.of_openly

/-! ## What players are told -/

/-- A player is told something on top of what the player was told before. -/
theorem toldTo_tell_self : (g.tell seat text buttons).toldTo seat
    = ⟨.player seat, text, buttons⟩ :: g.toldTo seat :=
  List.filter_cons_of_pos (beq_self_eq_true (Recipient.player seat))

/-- Nobody else is told. -/
theorem toldTo_tell_of_ne (hne : who ≠ seat) :
    (g.tell who text buttons).toldTo seat = g.toldTo seat := by
  refine List.filter_cons_of_neg fun heq => hne ?_
  cases eq_of_beq heq
  rfl

/-- Telling a player something else leaves whoever is aware so. -/
theorem Aware.tell (h : Aware seat g)
    (hplain : who = seat → Unmistakable seat g → greets text = false) :
    Aware seat (g.tell who text buttons) := by
  intro hnames p hp hlives
  have hlast : (g.tell who text buttons).lastHand? seat = g.lastHand? seat := by
    by_cases hwho : who = seat
    · subst hwho
      rw [lastHand?, toldTo_tell_self, List.find?_cons_of_neg, lastHand?]
      exact Bool.eq_false_iff.1 (hplain rfl hnames)
    · rw [lastHand?, toldTo_tell_of_ne hwho, lastHand?]
  rw [hlast, h hnames p hp hlives]

/-- Once the changed hand is told to its owner, everybody is aware. -/
theorem AwareBut.showCards (h : AwareBut who seat g) : Leads (Aware seat) (g.showCards who) := by
  refine .reading fun p hp => .ok ?_
  by_cases hwho : who = seat
  · subst hwho
    have hp := getElem?_of_player hp
    split
    next =>
      intro _ q hq _
      cases hp.symm.trans hq
      rw [lastHand?, toldTo_tell_self, List.find?_cons_of_pos]
      exact greets_handText p
    next hdead =>
      intro _ q hq hlives
      cases hp.symm.trans hq
      exact absurd hlives hdead
  · split
    next => exact (h hwho).tell fun heq => absurd heq hwho
    next => exact h hwho

/-! ## Hands that change -/

/-- Another player in a seat, with the name of the one before, is no matter to the others. -/
theorem AwareBut.of_set (h : AwareBut who seat g) (hp : g.players[who]? = some p) {q : Player}
    (hname : q.name = p.name) (hps : g'.players = g.players.set who q)
    (hout : g'.venue.outbox = g.venue.outbox) : AwareBut who seat g' := by
  intro hne hnames q hq hlives
  rw [hps, List.getElem?_set_ne hne] at hq
  rw [lastHand?, toldTo, hout]
  exact h hne (hnames.of_names (names_of_set hp hps hname)) q hq hlives

/-- Changing a player who keeps the name is no matter to the others. -/
theorem AwareBut.modifyPlayer (h : AwareBut who seat g) {change : Player → Player}
    (hname : ∀ p, (change p).name = p.name) :
    Leads (AwareBut who seat) (g.modifyPlayer who change) :=
  .reading fun p hp => .ok (h.of_set (getElem?_of_player hp) (hname p) rfl rfl)

/-- Turning a card face up is no matter to the others. -/
theorem AwareBut.killCard (h : AwareBut who seat g) :
    Leads (AwareBut who seat) (g.killCard who slot) :=
  .reading fun _ _ => .ite (fun _ => h.modifyPlayer fun _ => rfl) fun _ => .error

/-- Drawing a card is no matter to the others. -/
theorem AwareBut.drawInto (h : AwareBut who seat g) :
    Leads (AwareBut who seat) (g.drawInto who slot) := by
  refine .reading fun drawn hdrawn => ?_
  obtain ⟨hplayers, hvenue⟩ := players_of_draw hdrawn
  have hopen := h.of_openly (.of_eq hplayers (congrArg (·.outbox) hvenue))
  exact hopen.modifyPlayer fun _ => rfl

/-- Whoever's cards are changed is told. -/
theorem AwareBut.changeCards (h : AwareBut who seat g) (cards : List (Nat × Character)) :
    Leads (Aware seat) (g.changeCards who cards) := by
  have hdrawn : ∀ (cards : List (Nat × Character)) (g : Game), AwareBut who seat g →
      Leads (AwareBut who seat) (cards.foldlM (fun g card => g.drawInto who card.1) g) := by
    intro cards
    induction cards with
    | nil => exact fun _ h => .ok h
    | cons card cards ih =>
      intro g h
      rw [List.foldlM_cons]
      exact h.drawInto.bind ih
  have hreturned : AwareBut who seat (g.returnCards (cards.map (·.2))) :=
    h.of_openly (.of_eq rfl rfl)
  exact (hdrawn cards _ hreturned).bind fun _ h => h.showCards

/-- Whoever's card is changed is told. -/
theorem Aware.changeCard (h : Aware seat g) : Leads (Aware seat) (g.changeCard who slot) := by
  refine .reading fun p _ => ?_
  split
  next card _ => exact (h.but who).changeCards [card]
  next => exact .error

/-- Whoever's hand is changed is told. -/
theorem Aware.changeHand (h : Aware seat g) : Leads (Aware seat) (g.changeHand who) :=
  .reading fun p _ => (h.but who).changeCards p.living

/-! ## Losses, exchanges and interrogations -/

variable {r : Reveal} {e : Exchange} {i : Interrogation} {m : Move}
  {below : List Frame} {loser : Nat}

/-- A press while a player has to lose a card leaves everybody aware. -/
theorem Aware.lossInput (h : Aware seat g) : Leads (Aware seat) (g.lossInput loser who m) := by
  cases m with
  | lose slot =>
    refine .reading fun p _ => .ite (fun _ => ?_) fun _ => .ok h
    have hstir : Aware seat g.stir := h.of_openly (.of_eq rfl rfl)
    refine (hstir.but loser).killCard.bind fun g h => h.showCards.bind fun g h => ?_
    exact openly_pop.aware h
  | _ => exact .ok h

/-- A loss that goes on leaves everybody aware who lives. -/
theorem Aware.lossIdle (h : Aware seat g) (hsound : g.Sound)
    (hf : g.stack.frames = .loss loser :: below) : Leads (Aware seat) (g.lossIdle loser) := by
  obtain ⟨p, hp, -⟩ := hsound.of_loss hf
  by_cases hall : g.losesAll loser p.livingCount = true
  · -- The last card is lost, and whoever lost it is dead.
    have hsingle := hsound.livingCount_of_losesAll hf hp hall
    obtain ⟨slot, hlives, hkill⟩ := Player.killAll_of_single hsingle
    rw [lossIdle_all hf hp hall]
    have hbut : AwareBut loser seat { g with players := g.players.set loser p.killAll } :=
      (h.but loser).of_set hp (by rw [Player.killAll_eq]) rfl rfl
    refine .ok ?_
    by_cases hwho : loser = seat
    · subst hwho
      intro _ q hq halive
      rw [List.getElem?_set_self (List.getElem?_eq_some_iff.1 hp).1] at hq
      cases hq
      have hcount := Player.livingCount_killSlot hlives
      rw [hkill, Player.isAlive_iff_livingCount] at halive
      omega
    · exact hbut hwho
  · rw [lossIdle_ask hp hall]
    exact .ok (h.tell fun _ _ => greets_of_head? (by decide))

/-- Ending an exchange leaves everybody aware. -/
theorem Aware.endExchange (h : Aware seat g) : Leads (Aware seat) (g.endExchange e) := by
  refine (openly_pop.aware h).bind fun g h => ?_
  have hreturned : Aware seat (g.returnCards e.offered) := h.of_openly (.of_eq rfl rfl)
  refine Leads.bind ((hreturned.but e.player).modifyPlayer fun _ => rfl) fun g h => ?_
  exact h.showCards.bind fun g h => .ok (h.of_openly (.of_eq rfl rfl))

/-- A press during an exchange leaves everybody aware. -/
theorem Aware.exchangeInput (h : Aware seat g) : Leads (Aware seat) (g.exchangeInput e who m) := by
  cases m with
  | keep index =>
    unfold Game.exchangeInput
    dsimp only
    cases e.offered[index]? with
    | some c =>
      refine .ite (fun _ => .ite (fun _ => .ok ?_) fun _ => h.endExchange) fun _ => .ok h
      exact h.of_openly (.of_eq rfl rfl)
    | none => exact .ok h
  | _ => exact .ok h

/-- An exchange that goes on leaves everybody aware. -/
theorem Aware.exchangeIdle (h : Aware seat g) : Aware seat (g.exchangeIdle e) :=
  h.tell fun _ _ => greets_of_head? (by decide)

/-- A press during an interrogation leaves everybody aware. -/
theorem Aware.interrogationInput (h : Aware seat g) (hne : i.inquisitor ≠ i.target) :
    Leads (Aware seat) (g.interrogationInput i who m) := by
  unfold Game.interrogationInput
  split
  next slot hshown =>
    refine .ite (fun _ => .reading fun inquisitor hinquisitor => .reading fun target _ => ?_)
      fun _ => .ok h
    refine .ite (fun _ => .reading fun c _ => .ok ?_) fun _ => .ok h
    have hshown : Aware seat (g.setTop (.interrogation { i with shown := some slot })) :=
      h.of_openly (.of_eq rfl rfl)
    refine (hshown.tell fun hwho hnames => ?_).of_openly (.of_eq rfl rfl)
    exact greets_deciding (hnames.name hinquisitor (hwho ▸ hne)) _
  next allowed slot hshown =>
    have hend : ∀ (g : Game) (text : String), Aware seat g →
        Leads (Aware seat) ((g.note text).pop >>= fun g => .ok g.stir) := fun g text h =>
      (openly_pop.aware (h.of_openly (g.openly_note text))).bind fun g h =>
        .ok (h.of_openly (.of_eq rfl rfl))
    refine .ite (fun _ => .reading fun inquisitor _ => .reading fun target _ => ?_) fun _ => .ok h
    cases allowed with
    | true => exact hend g _ h
    | false => exact h.changeCard.bind fun g h => hend g _ h
  next => exact .ok h

/-- Asking the inquisitor leaves everybody aware. -/
theorem Aware.askInquisitor (h : Aware seat g) (hne : i.inquisitor ≠ i.target) :
    Leads (Aware seat) (g.askInquisitor i slot) := by
  refine .reading fun target htarget => .reading fun c _ => .ok (h.tell fun hwho hnames => ?_)
  exact greets_askCanKeep (hnames.name htarget (hwho ▸ hne.symm)) _

/-- An interrogation that goes on leaves everybody aware. -/
theorem Aware.interrogationIdle (h : Aware seat g) (hne : i.inquisitor ≠ i.target) :
    Leads (Aware seat) (g.interrogationIdle i) := by
  refine .reading fun inquisitor _ => .reading fun target _ => ?_
  dsimp only
  split
  next slot _ => exact h.askInquisitor hne
  next slot _ _ => exact Aware.askInquisitor (h.of_openly (.of_eq rfl rfl)) hne
  next => exact .ok (h.tell fun _ _ => greets_askShow _)

/-! ## Challenges -/

/-- Revealing a card leaves everybody aware. -/
theorem Aware.revealCard (h : Aware seat g) : Leads (Aware seat) (g.revealCard r slot) := by
  refine .reading fun challenger _ => .reading fun challenged _ => .reading fun c _ => ?_
  refine .ite (fun _ => ?_) fun _ => ?_
  · have hnote := h.of_openly (g.openly_note
      (Wording.proven challenger.name challenged.name c.objectName))
    exact hnote.changeCard.bind fun g h => (openly_uphold r).aware h
  · have hnote := h.of_openly (g.openly_note
      (Wording.caught challenger.name challenged.name (g.cast.describe r.clans)))
    exact (hnote.but r.challenged).killCard.bind fun g h => h.showCards.bind fun g h =>
      openly_dropClaim.aware h

/-- A press while a player has to answer a challenge leaves everybody aware. -/
theorem Aware.revealInput (h : Aware seat g) : Leads (Aware seat) (g.revealInput r who m) := by
  have hshow : Leads (Aware seat) (g.showHand r) := by
    refine .reading fun challenger _ => .reading fun challenged _ => ?_
    refine Leads.bind (Aware.changeHand (h.of_openly (openly_note _ _))) fun g h => ?_
    exact (openly_uphold r).aware h
  cases m with
  | reveal choice =>
    refine .reading fun challenged _ => .ite (fun _ => .ok h) fun _ => ?_
    refine .ite (fun _ => ?_) fun _ => ?_
    · exact .ite (fun _ => (openly_concede r).aware h) fun _ =>
        .ite (fun _ => hshow) fun _ => .ok h
    · exact .ite (fun _ => h.revealCard) fun _ => .ok h
  | _ => exact .ok h

/-- A challenge that goes on leaves everybody aware. -/
theorem Aware.revealIdle (h : Aware seat g) (hne : r.challenger ≠ r.challenged) :
    Leads (Aware seat) (g.revealIdle r) := by
  have hask : Leads (Aware seat) (g.askChallenged r) := by
    refine .reading fun challenger hchallenger => .reading fun challenged _ => ?_
    dsimp only
    refine .ok (Aware.tell (h.of_openly (openly_note _ _)) fun hwho hnames => ?_)
    have hname := hnames.name hchallenger (hwho ▸ hne)
    cases r.inverted with
    | true => exact greets_askConcede hname _
    | false => exact greets_askCard hname _
  refine .reading fun challenged _ => .ite (fun _ => openly_dropClaim.aware h) fun _ => ?_
  split
  next slot _ _ => exact h.revealCard
  next => exact hask

/-! ## The deal -/

/-- Once all are told of their hands, whoever is among them is aware. -/
theorem aware_showAllCards {seats : List Nat} (hrest : seat ∉ seats → Aware seat g) :
    Leads (Aware seat) (seats.foldlM (fun g who => g.showCards who) g) := by
  induction seats generalizing g with
  | nil => exact .ok (hrest List.not_mem_nil)
  | cons who seats ih =>
    rw [List.foldlM_cons]
    refine Leads.bind (P := fun x => seat ∉ seats → Aware seat x) (fun x hx hnot => ?_) fun x => ih
    -- Whoever is not among the others is told now, or was aware before.
    have hbut : AwareBut who seat g := fun hne => hrest fun hmem => by
      rcases List.mem_cons.1 hmem with heq | hmem
      · exact hne heq.symm
      · exact hnot hmem
    exact hbut.showCards x hx

/-- Once the cards are dealt everybody is aware. -/
theorem aware_dealFrom (v : Variant) (built : Deck × Pcg) :
    Leads (Aware seat) (g.dealFrom v built) := by
  refine .reading fun x _ => .reading fun y _ => ?_
  refine (aware_showAllCards fun hnot _ p hp _ => ?_).bind fun z hz => openly_showStatus.aware hz
  -- Nobody sits in a seat that is not among all.
  exact absurd (List.mem_range.2 (List.getElem?_eq_some_iff.1 hp).1) hnot

/-- A press while the variant is open leaves everybody aware. -/
theorem Aware.variantInput (h : Aware seat g) : Leads (Aware seat) (g.variantInput m) := by
  cases m with
  | gameType index =>
    unfold Game.variantInput
    dsimp only
    cases Variant.ofIndex? index with
    | some v =>
      exact .reading fun x _ => aware_dealFrom v _
    | none => exact .ok h
  | _ => exact .ok h

/-! ## Whole runs -/

/-- A press that is handed to the frame on top leaves everybody aware. -/
theorem Aware.dispatch (h : Aware seat g) (hsound : g.Sound) :
    Leads (Aware seat) (g.dispatch who m) := by
  unfold Game.dispatch Stack.top?
  cases hf : g.stack.frames with
  | nil => exact .ok h
  | cons f below =>
    cases f with
    | turn => exact openly_turnInput.aware h
    | variantChoice => exact h.variantInput
    | loss loser => exact h.lossInput
    | claim c => exact (openly_claimInput c).aware h
    | reveal r => exact h.revealInput
    | exchange e => exact h.exchangeInput
    | interrogation i =>
      cases hsound.shape_of hf with
      | interrogation hinquisitor hne => exact h.interrogationInput (hinquisitor ▸ hne.symm)

/-- A frame that goes on by itself leaves everybody aware. -/
theorem Aware.idle (h : Aware seat g) (hsound : g.Sound) : Leads (Aware seat) g.idle := by
  unfold Game.idle Stack.top?
  cases hf : g.stack.frames with
  | nil => exact .ok h
  | cons f below =>
    cases f with
    | turn => exact openly_nextTurn.aware h
    | variantChoice => exact .ok h
    | loss loser => exact h.lossIdle hsound hf
    | claim c => exact (openly_claimIdle c).aware h
    | reveal r =>
      obtain ⟨c, rest, rfl⟩ := (hsound.shape_of hf).exists_claim
      exact h.revealIdle (hsound.shape_of hf).of_reveal.2.2.2.1
    | exchange e => exact .ok h.exchangeIdle
    | interrogation i =>
      cases hsound.shape_of hf with
      | interrogation hinquisitor hne => exact h.interrogationIdle (hinquisitor ▸ hne.symm)

/-- When a game has settled everybody is aware who was before. -/
theorem Aware.settles (h : Aware seat g) (hsound : g.Sound) (hsettles : Settles g x) :
    Aware seat x := by
  induction hsettles with
  | rest => exact h
  | @go g _ _ hstirred hidle _ ih =>
    have hhush : Aware seat { g with stirred := false } := h.of_openly (.of_eq rfl rfl)
    exact ih (hhush.idle hsound.hush _ hidle) (hsound.idled hstirred hidle).2

/-- An alarm leaves everybody aware. -/
theorem Aware.expire (h : Aware seat g) (hrest : g.AtRest) {id : AlarmId}
    (hexpire : g.expire id = .ok x) : Aware seat x := by
  unfold Game.expire at hexpire
  split at hexpire
  next =>
    cases hexpire
    exact h.of_openly (.of_eq rfl rfl)
  next =>
    split at hexpire
    next c htop =>
      split at hexpire
      next hid =>
        -- The claim goes through in the open, and the game settles.
        obtain ⟨y, hy, hsettle⟩ := exists_ok_of_bind hexpire
        have hclaim : Aware seat (g.setTop (.claim { c with alarm := none })) :=
          h.of_openly (.of_eq rfl rfl)
        have haware := (openly_resolve _).aware hclaim y hy
        obtain ⟨below, hf⟩ := List.head?_eq_some_iff.1 htop
        obtain ⟨_, hy', hgrant⟩ := hrest.resolve_eq hf { c with alarm := none } rfl rfl
        cases hy.symm.trans hy'
        obtain ⟨hsound, hsettles⟩ := Step.settles hrest (hrest.isOver_eq_false hf nofun)
          (.timeOut hf hid hgrant) hsettle
        exact haware.settles hsound hsettles
      next =>
        cases hexpire
        exact h
    next =>
      cases hexpire
      exact h

/-- Whatever comes in, everybody stays aware. -/
theorem Aware.feed (h : Aware seat g) (hrest : g.AtRest) {i : Input} (hfeed : g.feed i = .ok x) :
    Aware seat x := by
  cases i with
  | press who data =>
    rcases press_cases hrest hfeed with ⟨rfl, -⟩ | ⟨m, y, -, -, hdispatch, -, hsound, hsettles⟩
    · exact h
    · exact (h.dispatch hrest.toSound y hdispatch).settles hsound hsettles
  | expire id => exact h.expire hrest hfeed
  | advance time =>
    refine advanceIn_induction (P := Aware seat) ?_ ?_ hrest h hfeed
    · intro y time due venue hy hdue
      obtain ⟨a, rfl, -⟩ := Venue.eq_of_advance hdue
      exact hy.of_openly (.of_eq rfl rfl)
    · exact fun y y' id hy haware hexpire => haware.expire hy hexpire

/-- In a new game everybody is aware: before the deal nobody has cards. -/
theorem aware_of_start {names : List String} {s : Settings} {entropy : Pcg}
    (hstart : start names s entropy = .ok g) : Aware seat g := by
  have hbegin := begin_of_start hstart
  cases hv : s.variant with
  | none =>
    rw [hv, begin_none] at hbegin
    cases hbegin
    intro _ p hp hlives
    have hcards := (mem_newPlayers (List.mem_of_getElem? hp)).1
    rw [Player.isAlive, hcards] at hlives
    cases hlives
  | some v =>
    rw [hv, begin_some] at hbegin
    exact aware_dealFrom v _ g hbegin

/-- In a reachable game everybody is aware. -/
theorem Reachable.aware (h : Reachable g) : Aware seat g := by
  induction h with
  | started hstart => exact aware_of_start hstart
  | fed hg hfeed ih => exact ih.feed hg.atRest hfeed

/-! ## The result -/

/-- In a reachable game the last message to a living player that begins as one about the hand lists
the cards as they are, in order and with the dead ones marked, and no other cards; unless another
player's name could pass for the beginning of such a message. -/
theorem Reachable.hand_told (h : Reachable g) (hp : g.players[seat]? = some p)
    (hlives : p.isAlive = true) (hnames : Unmistakable seat g) :
    g.lastHand? seat = some ⟨.player seat, p.handText, []⟩ ∧
      ∀ q : Player, q.handText = p.handText → q.cards = p.cards :=
  ⟨h.aware hnames p hp hlives, fun _ => Player.cards_of_handText⟩

/-- Bob challenges Ada, who has the card, and loses one himself, of which he is told. -/
theorem hand_told_lost : ∃ g p,
    playOut ["Ada", "Bob"]
        { seed := some 0, startPlayer := some 0, variant := some .classic,
          cardOverrides := [.duke, .captain] }
        [.press 0 "tax", .press 1 "challenge", .press 0 "reveal:0", .press 1 "lose:0"] = some g ∧
      g.players[1]? = some p ∧ p.cards = [⟨.duke, true⟩, ⟨.contessa, false⟩] ∧
      g.lastHand? 1 = some ⟨.player 1, p.handText, []⟩ := by
  have hrun : (playOut ["Ada", "Bob"]
      { seed := some 0, startPlayer := some 0, variant := some .classic,
        cardOverrides := [.duke, .captain] }
      [.press 0 "tax", .press 1 "challenge", .press 0 "reveal:0", .press 1 "lose:0"]).map (fun g =>
        (g.names, g.players[1]?.map (·.cards)))
      = some (["Ada", "Bob"], some [⟨.duke, true⟩, ⟨.contessa, false⟩]) := by
    decide +kernel
  obtain ⟨g, hg, hrun⟩ := Option.map_eq_some_iff.1 hrun
  obtain ⟨hnames, hcards⟩ := Prod.mk.inj hrun
  obtain ⟨p, hp, hcards⟩ := Option.map_eq_some_iff.1 hcards
  have hlives : p.isAlive = true := by
    rw [Player.isAlive, hcards]
    decide
  have hother : Unmistakable 1 g := by
    intro other name hname hne
    rw [hnames] at hname
    obtain _ | _ | other := other
    · cases hname
      decide
    · exact absurd rfl hne
    · cases hname
  exact ⟨g, p, hg, hp, hcards, ((reachable_of_playOut hg).hand_told hp hlives hother).1⟩

/-- A player who is called as a message about a hand begins challenges Bob, who is asked for a card
with a message that begins so, and does not list his hand. -/
theorem hand_told_mistaken : ∃ g p m,
    playOut ["Your cards are:", "Bob"]
        { seed := some 0, startPlayer := some 1, variant := some .classic }
        [.press 1 "tax", .press 0 "challenge"] = some g ∧
      g.variant = some .classic ∧ g.players[1]? = some p ∧ p.isAlive = true ∧
      g.lastHand? 1 = some m ∧ m.text = Wording.askCard "Your cards are:" "the duke" ∧
      m.text ≠ p.handText := by
  have hrun : (playOut ["Your cards are:", "Bob"]
      { seed := some 0, startPlayer := some 1, variant := some .classic }
      [.press 1 "tax", .press 0 "challenge"]).map (fun g =>
        (g.variant, g.players[1]?.map fun p => (p.isAlive, p.handText),
          (g.lastHand? 1).map (·.text)))
      = some (some .classic, some (true, "Your cards are:\nDuke\nContessa"),
        some (Wording.askCard "Your cards are:" "the duke")) := by
    decide +kernel
  obtain ⟨g, hg, hrun⟩ := Option.map_eq_some_iff.1 hrun
  simp only [Prod.mk.injEq] at hrun
  obtain ⟨hvariant, hplayer, hlast⟩ := hrun
  obtain ⟨p, hp, hplayer⟩ := Option.map_eq_some_iff.1 hplayer
  obtain ⟨m, hm, htext⟩ := Option.map_eq_some_iff.1 hlast
  obtain ⟨hlives, hhand⟩ := Prod.mk.inj hplayer
  refine ⟨g, p, m, hg, hvariant, hp, hlives, hm, htext, ?_⟩
  rw [htext, hhand]
  decide +kernel

end Game

end CoupTable
