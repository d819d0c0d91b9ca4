import CoupTable.Proofs.Acceptances
import CoupTable.Proofs.Rotation

/-!
# A turn comes to its end

A claim can be blocked, the block challenged, and the claim put to the table anew, with nobody
having accepted it: neither the stack nor what was accepted gets any smaller on the way. But whoever
loses the challenge loses a card. The rank of a game counts the living cards, and weighs them so
that a card is worth more than all that can happen until another one is lost; what the frame on top
has yet to go through, its span, comes on top of that. Whatever stirs lowers the rank by more than
there are seats (`Step.rank_lt`), and frames that go on by themselves never raise it. Less those who
have accepted the claim on top the rank is the `patience` of a game: whatever changes the game while
a turn is under way lowers it.
-/

namespace CoupTable

/-- How much can happen to a frame on top of the stack at a table with some seats, as long as nobody
loses a card. A claim that is blocked gives way to the block, and each of the two can be accepted
from every seat. -/
def Frame.span (seats : Nat) : Frame → Nat
  | turn | variantChoice => 0
  | loss _ => 1
  | exchange e => handSize - e.hand.length
  | interrogation i => if i.shown.isSome then 1 else 2
  | reveal _ => 2
  | claim c => if c.blockable then 2 * seats + 4 else seats + 3

namespace SeatSet

variable {s : SeatSet} {seat : Nat}

/-- A seat that is in the set is not put into it a second time. -/
theorem insert_eq_self (h : s.contains seat = true) : s.insert seat = s := by
  refine congrArg SeatSet.mk (Nat.eq_of_testBit_eq fun other => ?_)
  have hother : (s.insert seat).contains other = s.contains other := by
    rw [contains_insert]
    by_cases heq : seat = other
    · subst heq
      rw [h, Bool.true_or]
    · rw [decide_eq_false heq, Bool.or_false]
  exact hother

/-- Of some seats more are in the set with a new one of them. -/
theorem countP_lt_countP_insert {seats : List Nat} (hseat : seat ∈ seats)
    (hnew : s.contains seat = false) :
    seats.countP s.contains < seats.countP (s.insert seat).contains := by
  have hle : ∀ seats : List Nat, seats.countP s.contains ≤ seats.countP (s.insert seat).contains :=
    fun seats => List.countP_mono_left fun other _ hother => by simp [hother]
  obtain ⟨before, after, rfl⟩ := List.append_of_mem hseat
  have hbefore := hle before
  have hafter := hle after
  have hself : (s.insert seat).contains seat = true := by simp
  simp only [List.countP_append, List.countP_cons, hnew, hself, if_true, Bool.false_eq_true,
    if_false]
  omega

end SeatSet

namespace Game

/-- The number of living cards. -/
def living (g : Game) : Nat := (g.players.map (·.livingCount)).sum

/-- What a living card is worth, more than the span of any frame. -/
def cardWorth (g : Game) : Nat := 2 * g.players.length + 5

/-- How much can happen until the turn is over, whoever may have accepted the claim on top. -/
def rank (g : Game) : Nat :=
  match g.stack.top? with
  | none | some .turn => 0
  | some f => g.cardWorth * g.living + f.span g.players.length

/-- The number of seats that have accepted the claim on top. -/
def acceptances (g : Game) : Nat :=
  match g.stack.top? with
  | some (.claim c) => g.seats.countP c.accepted.contains
  | _ => 0

/-- How much can happen until the turn is over. -/
def patience (g : Game) : Nat := g.rank - g.acceptances

/-- The inputs lead from one game to another, and each of them changes something but the venue. -/
inductive Eventful : Game → List Input → Game → Prop where
  /-- Nothing comes in. -/
  | done {g : Game} : Eventful g [] g
  /-- One input comes in before the others. -/
  | next {g g₁ g' : Game} {i : Input} {inputs : List Input} (hfeed : g.feed i = .ok g₁)
      (hchanged : ∀ venue, g₁ ≠ { g with venue }) (h : Eventful g₁ inputs g') :
    Eventful g (i :: inputs) g'

variable {g g' x : Game} {cause : Cause} {c : Claim} {f f' : Frame} {r : Reveal}
  {below below' : List Frame} {i : Input} {inputs : List Input} {seat choice n : Nat}
  {data : String} {id : AlarmId} {p q : Player}

/-! ## Ranks -/

/-- A card is worth more than what can happen without one being lost. -/
theorem span_lt (g : Game) (f : Frame) : f.span g.players.length < g.cardWorth := by
  unfold Frame.span cardWorth handSize
  cases f with
  | claim c => dsimp only; split <;> omega
  | interrogation i => dsimp only; split <;> omega
  | _ => dsimp only; omega

/-- The rank of a game with a turn under way. -/
theorem rank_eq (hf : g.stack.frames = f :: below) (hne : f ≠ .turn) :
    g.rank = g.cardWorth * g.living + f.span g.players.length := by
  unfold rank Stack.top?
  rw [hf, List.head?_cons]
  cases f with
  | turn => exact absurd rfl hne
  | _ => rfl

/-- The rank of a game with a claim on top. -/
theorem rank_claim (hf : g.stack.frames = .claim c :: below) :
    g.rank = g.cardWorth * g.living + (Frame.claim c).span g.players.length :=
  rank_eq hf nofun

/-- At the beginning of a turn nothing is left to happen until it is over. -/
theorem rank_of_turn (hf : g.stack.frames = .turn :: below) : g.rank = 0 := by
  unfold rank Stack.top?
  rw [hf, List.head?_cons]

/-- The rank is not above what the living cards and the frame on top are worth. -/
theorem rank_le (hf : g.stack.frames = f :: below) :
    g.rank ≤ g.cardWorth * g.living + f.span g.players.length := by
  by_cases hturn : f = .turn
  · subst hturn
    rw [rank_of_turn hf]
    exact Nat.zero_le _
  · exact Nat.le_of_eq (rank_eq hf hturn)

/-- With one more living card the rank would be higher, whatever were on top. -/
theorem rank_lt (g : Game) : g.rank < g.cardWorth * (g.living + 1) := by
  have hpos : 0 < g.cardWorth := Nat.succ_pos _
  rw [Nat.mul_succ]
  unfold rank
  split
  next => exact Nat.add_pos_right _ hpos
  next => exact Nat.add_pos_right _ hpos
  next f _ _ => exact Nat.add_lt_add_left (g.span_lt f) _

/-- A game in which a card was lost ranks lower. -/
theorem rank_lt_of_living (hf : g.stack.frames = f :: below) (hne : f ≠ .turn)
    (hseats : g'.players.length = g.players.length) (hliving : g'.living < g.living) :
    g'.rank < g.rank := by
  have hworth : g'.cardWorth = g.cardWorth := by rw [cardWorth, cardWorth, hseats]
  calc g'.rank < g'.cardWorth * (g'.living + 1) := g'.rank_lt
    _ ≤ g.cardWorth * g.living := by rw [hworth]; exact Nat.mul_le_mul_left _ hliving
    _ ≤ g.rank := by rw [rank_eq hf hne]; exact Nat.le_add_right ..

/-- With as many living cards a game ranks lower by as much as the span of the frame on top is
smaller. -/
theorem rank_add_le (hf : g.stack.frames = f :: below) (hne : f ≠ .turn)
    (hf' : g'.stack.frames = f' :: below') (hseats : g'.players.length = g.players.length)
    (hliving : g'.living = g.living)
    (hspan : f'.span g.players.length + n ≤ f.span g.players.length) : g'.rank + n ≤ g.rank := by
  have hle := rank_le hf'
  rw [cardWorth, hseats, hliving] at hle
  rw [rank_eq hf hne, cardWorth]
  omega

/-- With as many living cards, and a frame on top that spans no more, a game ranks no higher. -/
theorem rank_le_of_span (hf : g.stack.frames = f :: below) (hne : f ≠ .turn)
    (hf' : g'.stack.frames = f' :: below') (hseats : g'.players.length = g.players.length)
    (hliving : g'.living = g.living)
    (hspan : f'.span g.players.length ≤ f.span g.players.length) : g'.rank ≤ g.rank :=
  rank_add_le (n := 0) hf hne hf' hseats hliving hspan

/-- With the turn back on top a game ranks lower. -/
theorem rank_lt_of_turn (hf : g.stack.frames = f :: below) (hne : f ≠ .turn)
    (hspan : 0 < f.span g.players.length) (hf' : g'.stack.frames = .turn :: below') :
    g'.rank < g.rank := by
  rw [rank_of_turn hf', rank_eq hf hne]
  exact Nat.add_pos_right _ hspan

/-! ## Acceptances -/

/-- Nobody has accepted anything if there is no claim on top. -/
theorem acceptances_eq_zero (hf : g.stack.frames = f :: below) (hclaim : ∀ c, f ≠ .claim c) :
    g.acceptances = 0 := by
  unfold acceptances Stack.top?
  rw [hf, List.head?_cons]
  cases f with
  | claim c => exact absurd rfl (hclaim c)
  | _ => rfl

/-- Every seat accepts the claim on top at most once. -/
theorem acceptances_le (g : Game) : g.acceptances ≤ g.players.length := by
  unfold acceptances
  split
  next c _ =>
    calc g.seats.countP c.accepted.contains ≤ g.seats.length := List.countP_le_length
      _ = g.players.length := List.length_range
  next => exact Nat.zero_le _

/-! ## Living cards -/

/-- With the same cards as many are alive. -/
theorem SameCards.living_eq (h : g.SameCards g') : g'.living = g.living := by
  have hcounts := congrArg (fun hands => (hands.map fun cards => cards.countP (!·.dead)).sum) h
  simpa [living, Player.livingCount_eq, Function.comp_def] using hcounts

/-- Where one player is changed, but not in the number of living cards, as many are alive. -/
theorem living_of_set_eq (hp : g.players[seat]? = some p)
    (hps : g'.players = g.players.set seat q) (hcount : q.livingCount = p.livingCount) :
    g'.living = g.living := by
  have hsum := sum_map_set (q := q) (·.livingCount) hp
  rw [living, living, hps]
  omega

/-- Where one player has fewer living cards, fewer are alive. -/
theorem living_of_set_lt (hp : g.players[seat]? = some p)
    (hps : g'.players = g.players.set seat q) (hcount : q.livingCount < p.livingCount) :
    g'.living < g.living := by
  have hsum := sum_map_set (q := q) (·.livingCount) hp
  rw [living, living, hps]
  omega

/-- Where a living card dies, fewer are alive. -/
theorem living_of_killSlot (hp : g.players[seat]? = some p) {slot : Nat}
    (hlives : p.hasLiving slot = true) (hps : g'.players = g.players.set seat (p.killSlot slot)) :
    g'.living < g.living := by
  refine living_of_set_lt hp hps ?_
  rw [← Player.livingCount_killSlot hlives]
  exact Nat.lt_succ_self _

/-! ## Steps -/

/-- What a pending claim leads to when it goes through has a small span. -/
theorem Pending.span_grant (h : g.Pending c below) (hgrant : Grant x c.actor c.effect g')
    (hf : x.stack.frames = below) (seats : Nat) :
    ∃ f rest, g'.stack.frames = f :: rest ∧ f.span seats ≤ 2 := by
  generalize heffect : c.effect = effect at hgrant
  cases h with
  | own hc =>
    cases hgrant with
    | assassinate => exact ⟨_, _, rfl, Nat.le_succ 1⟩
    | exchange => exact ⟨_, _, rfl, Nat.sub_le ..⟩
    | inspect => exact ⟨_, _, rfl, Nat.le_refl 2⟩
    | block | blockKill => exact absurd heffect hc.ne_block
    | _ => exact ⟨_, _, hf, Nat.zero_le _⟩
  | block hc halarm hb =>
    rw [hb.effect] at heffect
    subst heffect
    cases hgrant with
    | block hf' | blockKill hf' =>
      cases hf.symm.trans hf'
      exact ⟨_, _, rfl, Nat.zero_le _⟩

/-- A pending claim has a span that is larger by more than there are seats. -/
theorem span_claim (seats : Nat) (c : Claim) : seats + 3 ≤ (Frame.claim c).span seats := by
  rw [Frame.span]
  split <;> omega

/-- A claim that goes through lowers the rank by more than can be accepted. -/
theorem Sound.rank_lt_of_grant (h : g.Sound) (hf : g.stack.frames = .claim c :: below)
    (hgrant : Grant x c.actor c.effect g') (hx : x.stack.frames = below)
    (hplayers : x.players = g.players) : g'.rank + g.players.length < g.rank := by
  have hsame : g.SameCards g' := by
    have hsame := hgrant.sameCards
    unfold SameCards at hsame ⊢
    rw [hsame, hplayers]
  have hspan := span_claim g.players.length c
  cases h.shape_of hf with
  | asked hpending =>
    obtain ⟨f, rest, hf', hsmall⟩ := hpending.span_grant hgrant hx g.players.length
    refine rank_add_le (n := g.players.length + 1) hf nofun hf' hsame.length_eq hsame.living_eq ?_
    omega

/-- An answer to a challenge lowers the rank. -/
theorem Answer.rank_lt (h : Answer g r c below choice g')
    (hf : g.stack.frames = .reveal r :: .claim c :: below) : g'.rank < g.rank := by
  cases h with
  | @proven p slot card drawn rest ms hp =>
    refine rank_add_le (n := 1) hf nofun rfl (List.length_set ..) ?_ (Nat.le_refl 2)
    exact living_of_set_eq hp rfl (Player.livingCount_redraw _ _)
  | @shown p drawn rest ms hp =>
    refine rank_add_le (n := 1) hf nofun rfl (List.length_set ..) ?_ (Nat.le_refl 2)
    exact living_of_set_eq hp rfl (Player.livingCount_redraw _ _)
  | caught hp _ hcard hlives =>
    refine rank_lt_of_living hf nofun (List.length_set ..) ?_
    exact living_of_killSlot hp (Player.hasLiving_iff.2 ⟨_, hcard, hlives⟩) rfl
  | conceded => exact rank_add_le (n := 1) hf nofun rfl rfl rfl (Nat.le_refl 2)

/-- While a turn is under way every step that stirs lowers the rank, by more than was accepted. -/
theorem Step.rank_lt (h : g.Sound) (hstill : g.stirred = false) (hv : g.variant ≠ none)
    (hway : g.underWay = true) (hstep : Step g cause g') (hstirred : g'.stirred = true) :
    g'.rank + g.acceptances < g.rank := by
  have haccepted := g.acceptances_le
  -- Of the claim on top every seat may have accepted, and of no other frame anything.
  have hother : ∀ {f below}, g.stack.frames = f :: below → (∀ c, f ≠ .claim c) →
      g'.rank < g.rank → g'.rank + g.acceptances < g.rank := by
    intro f below hf hclaim hlt
    rwa [acceptances_eq_zero hf hclaim]
  cases hstep with
  | deal hf => exact absurd (h.shape_of hf).variant_eq_none hv
  | income hf | coup hf | convert hf | claim hf | askTarget hf | pass hf | finish hf =>
    cases (underWay_of_turn hf).symm.trans hway
  | accept | ask | showOnly | askSomebody => cases hstill.symm.trans hstirred
  | acceptLast hf _ hgrant | unopposed hf _ hgrant | timeOut hf _ hgrant =>
    have hlt := h.rank_lt_of_grant hf hgrant rfl rfl
    exact Nat.lt_of_le_of_lt (Nat.add_le_add_left haccepted _) hlt
  | @challenge c below seat hf =>
    have hspan := span_claim g.players.length c
    refine Nat.lt_of_le_of_lt (Nat.add_le_add_left haccepted _) ?_
    refine rank_add_le (n := g.players.length + 1) hf nofun rfl rfl rfl ?_
    rw [Frame.span]
    omega
  | @block c below seat message hf hblock =>
    refine Nat.lt_of_le_of_lt (Nat.add_le_add_left haccepted _) ?_
    refine rank_add_le (n := g.players.length + 1) hf nofun rfl rfl rfl ?_
    simp only [Frame.span, Claim.counter, hblock, if_true, Bool.false_eq_true, if_false]
    omega
  | answer hf hanswer | answerLast hf _ _ _ hanswer =>
    exact hother hf (fun _ => nofun) (hanswer.rank_lt hf)
  | dropDead hf hdead => cases (h.shape_of hf).isAlive_challenged.symm.trans hdead
  | lose hf hp hlives =>
    refine hother hf (fun _ => nofun) (rank_lt_of_living hf nofun (List.length_set ..) ?_)
    exact living_of_killSlot hp hlives rfl
  | loseAll hf hp hall =>
    obtain ⟨slot, hlives, hkill⟩ := Player.killAll_of_single (h.livingCount_of_losesAll hf hp hall)
    refine hother hf (fun _ => nofun) (rank_lt_of_living hf nofun (List.length_set ..) ?_)
    exact living_of_killSlot hp hlives (by rw [hkill])
  | @keep e below index c hf hc hmore =>
    refine hother hf (fun _ => nofun) (rank_add_le (n := 1) hf nofun rfl rfl rfl ?_)
    simp only [Frame.span, List.length_append, List.length_singleton]
    omega
  | keepLast hf =>
    cases h.shape_of hf with
    | exchange _ hhand =>
      exact hother hf (fun _ => nofun) (rank_lt_of_turn hf nofun (Nat.sub_pos_of_lt hhand) rfl)
  | showCard hf hshown =>
    refine hother hf (fun _ => nofun) (rank_add_le (n := 1) hf nofun rfl rfl rfl ?_)
    simp [Frame.span, hshown]
  | allow hf hshown | change hf hshown =>
    cases h.shape_of hf with
    | interrogation =>
      refine hother hf (fun _ => nofun) (rank_lt_of_turn hf nofun ?_ rfl)
      simp [Frame.span, hshown]

/-- A frame that goes on by itself does not raise the rank. -/
theorem Step.rank_le (h : g.Sound) (hstill : g.stirred = false) (hv : g.variant ≠ none)
    (hstep : Step g .idle g') : g'.rank ≤ g.rank := by
  cases hway : g.underWay with
  | false =>
    have hf := h.frames_of_turn hway
    obtain ⟨hcalm, -⟩ := hstep.calm hstill hf rfl
    rw [rank_of_turn ((hcalm.turn _ hf).trans hf)]
    exact Nat.zero_le _
  | true =>
    cases hstirred : g'.stirred with
    | true =>
      have hlt := hstep.rank_lt h hstill hv hway hstirred
      exact Nat.le_of_lt (Nat.lt_of_le_of_lt (Nat.le_add_right ..) hlt)
    | false =>
      cases hstep with
      | pass hf | finish hf => cases (underWay_of_turn hf).symm.trans hway
      | unopposed _ _ hgrant => cases (hgrant.stirred_eq rfl).symm.trans hstirred
      | answerLast _ _ _ _ hanswer => cases hanswer.stirred_eq.symm.trans hstirred
      | dropDead | loseAll => cases hstirred
      | ask hf =>
        refine rank_le_of_span hf nofun rfl rfl rfl ?_
        exact Nat.le_refl _
      | showOnly hf hshown =>
        refine rank_le_of_span hf nofun rfl rfl rfl ?_
        simp [Frame.span, hshown]
      | askSomebody => exact Nat.le_refl _

/-- The variant stays chosen while frames go on by themselves. -/
theorem Settles.variant_ne_none (hsettles : Settles g g') (h : g.Sound) (hv : g.variant ≠ none) :
    g'.variant ≠ none := by
  induction hsettles with
  | rest => exact hv
  | go hstirred hidle _ ih =>
    obtain ⟨hidled, hsound⟩ := h.idled hstirred hidle
    exact ih hsound (hidled.step.variant_ne_none h.hush hv)

/-- Frames that go on by themselves do not raise the rank. -/
theorem Settles.rank_le (hsettles : Settles g g') (h : g.Sound) (hv : g.variant ≠ none) :
    g'.rank ≤ g.rank := by
  induction hsettles with
  | rest => exact Nat.le_refl _
  | go hstirred hidle _ ih =>
    obtain ⟨hidled, hsound⟩ := h.idled hstirred hidle
    have hv' := hidled.step.variant_ne_none h.hush hv
    have hle := hidled.step.rank_le h.hush rfl hv
    exact Nat.le_trans (ih hsound hv') hle

/-! ## Inputs -/

/-- The variant stays chosen. -/
theorem AtRest.variant_of_feed (h : g.AtRest) (hv : g.variant ≠ none)
    (hfeed : g.feed i = .ok g') : g'.variant ≠ none := by
  refine h.feed_induction (P := (·.variant ≠ none)) (fun x x' hx hv hevent => ?_) hv hfeed
  cases hevent with
  | clock | report => exact hv
  | step hstep _ _ hsound hsettles =>
    exact hsettles.variant_ne_none hsound (hstep.variant_ne_none hx.toSound hv)

/-- While a turn is under way its rank is above what was accepted. -/
theorem Sound.acceptances_lt (h : g.Sound) (hv : g.variant ≠ none) (hway : g.underWay = true) :
    g.acceptances < g.rank := by
  have hother : ∀ {f below}, g.stack.frames = f :: below → (∀ c, f ≠ .claim c) → f ≠ .turn →
      0 < f.span g.players.length → g.acceptances < g.rank := by
    intro f below hf hclaim hturn hspan
    rw [acceptances_eq_zero hf hclaim, rank_eq hf hturn]
    exact Nat.add_pos_right _ hspan
  obtain ⟨frames, hf⟩ : ∃ frames, g.stack.frames = frames := ⟨_, rfl⟩
  cases h.shape_of hf with
  | turn => cases (underWay_of_turn hf).symm.trans hway
  | variantChoice hv' => exact absurd hv' hv
  | loss | upheld => exact hother hf (fun _ => nofun) nofun Nat.one_pos
  | exchange _ hhand => exact hother hf (fun _ => nofun) nofun (Nat.sub_pos_of_lt hhand)
  | @interrogation i =>
    refine hother hf (fun _ => nofun) nofun ?_
    rw [Frame.span]
    split <;> decide
  | challenged => exact hother hf (fun _ => nofun) nofun Nat.two_pos
  | @asked c =>
    have haccepted := g.acceptances_le
    have hspan := span_claim g.players.length c
    rw [rank_claim hf]
    omega

/-- Less patience is left after a step that stirs. -/
theorem Step.patience_lt (h : g.AtRest) (hv : g.variant ≠ none) (hway : g.underWay = true)
    (hstep : Step g cause x) (hstirred : x.stirred = true) (hsound : x.Sound)
    (hsettles : Settles x g') : g'.patience < g.patience := by
  have hstepped := hstep.rank_lt h.toSound h.still hv hway hstirred
  have hsettled := hsettles.rank_le hsound (hstep.variant_ne_none h.toSound hv)
  calc g'.patience ≤ g'.rank := Nat.sub_le ..
    _ ≤ x.rank := hsettled
    _ < g.patience := Nat.lt_sub_of_add_lt hstepped

/-- A claim that is accepted from one more seat leaves less patience. -/
theorem AtRest.patience_accepted (h : g.AtRest) (hv : g.variant ≠ none)
    (hf : g.stack.frames = .claim c :: below) (hseat : seat < g.players.length)
    (hnew : c.accepted.contains seat = false) :
    patience { g with stack := ⟨.claim { c with accepted := c.accepted.insert seat } :: below⟩ }
      < g.patience := by
  have hway : g.underWay = true := by
    rw [underWay, Stack.top?, hf]
    rfl
  have hlt : g.acceptances < acceptances
      { g with stack := ⟨.claim { c with accepted := c.accepted.insert seat } :: below⟩ } := by
    have hbefore : g.acceptances = g.seats.countP c.accepted.contains := by
      rw [acceptances, Stack.top?, hf]
      rfl
    rw [hbefore]
    exact SeatSet.countP_lt_countP_insert (List.mem_range.2 hseat) hnew
  have hrank : rank { g with
      stack := ⟨.claim { c with accepted := c.accepted.insert seat } :: below⟩ } = g.rank := by
    rw [rank_claim hf]
    rfl
  have hleft := h.toSound.acceptances_lt hv hway
  rw [patience, patience, hrank]
  exact Nat.sub_lt_sub_left hleft hlt

/-- While a turn is under way a press changes nothing, or less patience is left after it. -/
theorem AtRest.patience_of_press (h : g.AtRest) (hv : g.variant ≠ none) (hway : g.underWay = true)
    (hpress : g.press seat data = .ok g') : g' = g ∨ g'.patience < g.patience := by
  rcases press_cases h hpress with ⟨rfl, -⟩ | ⟨m, x, -, -, -, hstep, hsound, hsettles⟩
  · exact .inl rfl
  cases hstirred : x.stirred with
  | true => exact .inr (hstep.patience_lt h hv hway hstirred hsound hsettles)
  | false =>
    cases hsettles.eq_of_still hstirred
    obtain ⟨_, _, _, hf, -⟩ | ⟨_, _, hf, -⟩ | ⟨c, below, _, hf, hcause, rfl⟩ :=
      hstep.of_still nofun hstirred
    · exact absurd (h.shape_of hf).variant_eq_none hv
    · cases (underWay_of_turn hf).symm.trans hway
    · cases hcause
      cases hold : c.accepted.contains seat with
      | true =>
        -- It was accepted from this seat before.
        left
        have hstack : g.stack = ⟨.claim c :: below⟩ := congrArg Stack.mk hf
        rw [SeatSet.insert_eq_self hold, ← hstack]
      | false =>
        by_cases hseat : seat < g.players.length
        · exact .inr (h.patience_accepted hv hf hseat hold)
        · exact .inl (Except.ok.inj (hpress.symm.trans (press_eq_of_le (Nat.not_lt.1 hseat) data)))

/-- While a turn is under way an alarm changes nothing, or less patience is left after it. -/
theorem AtRest.patience_of_expire (h : g.AtRest) (hv : g.variant ≠ none) (hway : g.underWay = true)
    (hexpire : g.expire id = .ok g') : g' = g ∨ g'.patience < g.patience := by
  rcases expire_cases h hexpire with ⟨halarm, -⟩ | rfl | ⟨x, hstep, hsound, hsettles⟩
  · have hf := (h.ended (h.overAlarm (halarm ▸ nofun))).1
    cases (underWay_of_turn hf).symm.trans hway
  · exact .inl rfl
  · right
    cases hstep with
    | timeOut hf hid hgrant =>
      have hstep : Step g (.alarm id) x := .timeOut hf hid hgrant
      exact hstep.patience_lt h hv hway (hgrant.stirred_eq rfl) hsound hsettles

/-- While a turn is under way an input changes nothing but the venue, or less patience is left after
it. -/
theorem AtRest.patience_of_feed (h : g.AtRest) (hv : g.variant ≠ none) (hway : g.underWay = true)
    (hfeed : g.feed i = .ok g') : (∃ venue, g' = { g with venue }) ∨ g'.patience < g.patience := by
  cases i with
  | press seat data => exact (h.patience_of_press hv hway hfeed).imp_left fun heq => ⟨_, heq⟩
  | expire id => exact (h.patience_of_expire hv hway hfeed).imp_left fun heq => ⟨_, heq⟩
  | advance time =>
    have hleft : (∃ venue, g' = { g with venue }) ∨
        g'.variant ≠ none ∧ g'.patience < g.patience := by
      refine advanceIn_induction (P := fun x => (∃ venue, x = { g with venue }) ∨
        x.variant ≠ none ∧ x.patience < g.patience) ?_ ?_ h (.inl ⟨_, rfl⟩) hfeed
      · rintro x time due venue (⟨venue', rfl⟩ | hless) -
        · exact .inl ⟨venue, rfl⟩
        · exact .inr hless
      · intro x x' id hrest hx hexpire
        have hrest' : x'.AtRest := hrest.feed (i := .expire id) hexpire
        rcases hx with ⟨venue, rfl⟩ | ⟨hv', hless⟩
        · rcases hrest.patience_of_expire hv hway hexpire with rfl | hlt
          · exact .inl ⟨venue, rfl⟩
          · exact .inr ⟨hrest.variant_of_feed (i := .expire id) hv hexpire, hlt⟩
        · right
          refine ⟨hrest.variant_of_feed (i := .expire id) hv' hexpire, ?_⟩
          cases hway' : x.underWay with
          | true =>
            rcases hrest.patience_of_expire hv' hway' hexpire with rfl | hlt
            · exact hless
            · exact Nat.lt_trans hlt hless
          | false =>
            -- The turn is over, and the stack stays as it is.
            have hf := hrest.frames_of_turn hway'
            have hf' := hrest.frames_of_expire (fun c below hf' => by cases hf.symm.trans hf')
              hexpire
            rw [patience, rank_of_turn (hf'.trans hf), Nat.zero_sub]
            exact Nat.zero_lt_of_lt hless
    exact hleft.imp_right (·.2)

/-! ## The result -/

namespace Eventful

/-- Inputs that change something lead from rest to rest. -/
theorem atRest (hrun : Eventful g inputs g') (h : g.AtRest) : g'.AtRest := by
  induction hrun with
  | done => exact h
  | next hfeed _ _ ih => exact ih (h.feed hfeed)

/-- Inputs that change something lead to the end of a turn under way, if they are as many as there
is patience for. -/
theorem turn_ends (hrun : Eventful g inputs g') (h : g.AtRest) (hv : g.variant ≠ none)
    (hway : g.underWay = true) (hmany : g.patience ≤ inputs.length) :
    ∃ earlier later x, inputs = earlier ++ later ∧ earlier.length ≤ g.patience ∧
      Eventful g earlier x ∧ x.underWay = false := by
  induction hrun with
  | done =>
    have hpos := Nat.sub_pos_of_lt (h.toSound.acceptances_lt hv hway)
    exact absurd hmany (Nat.not_le.2 hpos)
  | @next g g₁ g' i inputs hfeed hchanged hrun ih =>
    have hless : g₁.patience < g.patience :=
      (h.patience_of_feed hv hway hfeed).resolve_left fun ⟨venue, heq⟩ => hchanged venue heq
    cases hway₁ : g₁.underWay with
    | false =>
      refine ⟨[i], inputs, g₁, rfl, ?_, .next hfeed hchanged .done, hway₁⟩
      exact Nat.zero_lt_of_lt hless
    | true =>
      have hmany₁ : g₁.patience ≤ inputs.length :=
        Nat.le_of_lt_succ (Nat.lt_of_lt_of_le hless hmany)
      obtain ⟨earlier, later, x, rfl, hlength, hearlier, hturn⟩ :=
        ih (h.feed hfeed) (h.variant_of_feed hv hfeed) hway₁ hmany₁
      refine ⟨i :: earlier, later, x, rfl, ?_, .next hfeed hchanged hearlier, hturn⟩
      exact Nat.lt_of_le_of_lt hlength hless

end Eventful

/-- A turn comes to its end. While it is under way every input that changes something but the venue
leaves less patience, and so after at most as many of them as there is patience for the turn is on
top of the stack again. -/
theorem Reachable.turn_comes_to_end (h : Reachable g) (hv : g.variant ≠ none)
    (hway : g.underWay = true) :
    (∀ i g', g.feed i = .ok g' → (∀ venue, g' ≠ { g with venue }) → g'.patience < g.patience) ∧
    ∀ inputs g', Eventful g inputs g' → g.patience ≤ inputs.length →
      ∃ earlier later x, inputs = earlier ++ later ∧ earlier.length ≤ g.patience ∧
        Eventful g earlier x ∧ x.stack.frames = [.turn] := by
  refine ⟨fun i g' hfeed hchanged => ?_, fun inputs g' hrun hmany => ?_⟩
  · exact (h.atRest.patience_of_feed hv hway hfeed).resolve_left
      fun ⟨venue, heq⟩ => hchanged venue heq
  · obtain ⟨earlier, later, x, rfl, hlength, hearlier, hturn⟩ :=
      hrun.turn_ends h.atRest hv hway hmany
    have hrest := hearlier.atRest h.atRest
    exact ⟨earlier, later, x, rfl, hlength, hearlier, hrest.frames_of_turn hturn⟩

/-- Cid has accepted Ada's foreign aid, but Bob blocks it, and Ada challenges that. Bob has no duke:
the foreign aid is put to the table again, with nobody having accepted it, but a card was lost, and
less patience is left. -/
theorem turn_comes_to_end_blocked : ∃ g g',
    playOut ["Ada", "Bob", "Cid"]
        { seed := some 0, startPlayer := some 0, variant := some .classic,
          cardOverrides := [.captain, .captain, .contessa, .contessa] }
        [.press 0 "foreign_aid", .press 2 "accept", .press 1 "block", .press 0 "challenge"]
      = some g ∧
      g.feed (.press 1 "reveal:0") = .ok g' ∧ g'.stack.depth = 2 ∧ g'.acceptances = 0 ∧
      g.patience = 68 ∧ g'.patience < 68 ∧
      ∀ inputs x, Eventful g inputs x → 68 ≤ inputs.length →
        ∃ earlier later y, inputs = earlier ++ later ∧ earlier.length ≤ 68 ∧
          Eventful g earlier y ∧ y.stack.frames = [.turn] := by
  have hrun : ((playOut ["Ada", "Bob", "Cid"]
      { seed := some 0, startPlayer := some 0, variant := some .classic,
        cardOverrides := [.captain, .captain, .contessa, .contessa] }
      [.press 0 "foreign_aid", .press 2 "accept", .press 1 "block", .press 0 "challenge"]).bind
        fun g => (g.feed (.press 1 "reveal:0")).toOption.map fun g' =>
          (g.variant.isSome, g.underWay, g.patience, g'.stack.depth, g'.acceptances,
            g.stack == g'.stack)) = some (true, true, 68, 2, 0, false) := by
    decide +kernel
  obtain ⟨g, g', hg, hfeed, hrun⟩ := exists_of_playOut hrun
  simp only [Prod.mk.injEq] at hrun
  obtain ⟨hv, hway, hpatience, hdepth, haccepted, hstack⟩ := hrun
  obtain ⟨hless, hends⟩ :=
    (reachable_of_playOut hg).turn_comes_to_end (Option.isSome_iff_ne_none.1 hv) hway
  have hlt := hless _ _ hfeed fun venue heq => beq_eq_false_iff_ne.1 hstack (heq ▸ rfl)
  rw [hpatience] at hlt hends
  exact ⟨g, g', hg, hfeed, hdepth, haccepted, hpatience, hlt, hends⟩

end Game

end CoupTable
