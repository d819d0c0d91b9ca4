import CoupTable.Proofs.Claiming

/-!
# What calls cost in cards

The toll of a seat counts its dead cards together with the losses that are on the stack for it, so
that a loss is counted as soon as it is certain and not again when the card is chosen. While a turn
is under way a step only raises it where it answers a challenge, for the loser, or grants an
assassination, for a target that is alive. `Chain.toll_eq` sums that up over calls, and
`Chain.openChallenges_add` has as many losers as there are challenges.
-/

namespace CoupTable

/-- Whether the frame is about a claim. -/
def Frame.isClaim : Frame → Bool
  | claim _ => true
  | turn | variantChoice | loss _ | reveal _ | exchange _ | interrogation _ => false

/-- Whether the frame is a challenge that waits for its answer. -/
def Frame.isReveal : Frame → Bool
  | reveal _ => true
  | turn | variantChoice | loss _ | claim _ | exchange _ | interrogation _ => false

namespace Game

/-- The number of dead cards in a seat. -/
def deadCardsOf (g : Game) (seat : Nat) : Nat := (g.players[seat]?.map (·.deadCount)).getD 0

/-- The number of dead cards in a seat, together with those that it has to lose. -/
def toll (g : Game) (seat : Nat) : Nat :=
  g.deadCardsOf seat + g.stack.frames.count (.loss seat)

/-- The number of challenges that wait for their answers. -/
def openChallenges (g : Game) : Nat := g.stack.frames.countP (·.isReveal)

namespace Call

/-- Whether the call takes in a challenge, and does not ignore it. -/
def isChallenge (k : Call) : Bool :=
  match k.cause with
  | .press _ .challenge => k.after != k.before
  | _ => false

/-- Who loses a card over a challenge that the call answers: the challenged player, if the claim is
dropped, and the challenger, if it stands. -/
def loser? (k : Call) : Option Nat :=
  match k.before.stack.top?, k.after.stack.top? with
  | some (.reveal _), some (.reveal _) => none
  | some (.reveal r), _ =>
    if k.after.stack.frames.countP (·.isClaim) < k.before.stack.frames.countP (·.isClaim) then
      some r.challenged
    else some r.challenger
  | _, _ => none

/-- Whether the call grants the claim of the current player while a target is alive. -/
def grantsOver (k : Call) (target : Nat) : Bool :=
  k.outcome? == some .granted && k.before.isAlive target

/-- Who loses a card to the assassination that the call grants, if it grants one while the target is
alive. -/
def victim? (k : Call) : Option Nat :=
  match k.before.claim?.map Claim.effect with
  | some (.assassinate target) => if k.grantsOver target then some target else none
  | _ => none

end Call

/-- Who loses a card over the challenges that some calls answer. -/
def losers (ks : List Call) : List Nat := ks.filterMap (·.loser?)

variable {P : Game → Prop} {g g' x : Game} {cause : Cause} {c : Claim} {f : Frame}
  {frames below : List Frame} {outcome : Outcome} {effect : Effect} {k : Call} {ks : List Call}
  {inputs : List Input} {seat other slot choice : Nat} {p q : Player} {r : Reveal} {m : Move}
  {data : String}

/-! ## Dead cards -/

/-- The number of dead cards of a player in a seat. -/
theorem deadCardsOf_eq (hp : g.players[seat]? = some p) : g.deadCardsOf seat = p.deadCount := by
  rw [deadCardsOf, hp]
  rfl

/-- Where one player is changed, the dead cards of that one change. -/
theorem deadCardsOf_of_set (hp : g.players[seat]? = some p)
    (hps : g'.players = g.players.set seat q) (other : Nat) :
    g'.deadCardsOf other = if other = seat then q.deadCount else g.deadCardsOf other :=
  getD_of_set (·.deadCount) hp hps other

/-- A player who is changed, but not in the number of dead cards, leaves all those numbers as they
are. -/
theorem deadCardsOf_of_set_eq (hp : g.players[seat]? = some p)
    (hps : g'.players = g.players.set seat q) (hdead : q.deadCount = p.deadCount) (other : Nat) :
    g'.deadCardsOf other = g.deadCardsOf other := by
  rw [deadCardsOf_of_set hp hps]
  split
  next heq => rw [heq, hdead, deadCardsOf_eq hp]
  next => rfl

/-- With the same cards everybody has as many dead ones. -/
theorem SameCards.deadCardsOf_eq (h : g.SameCards g') (seat : Nat) :
    g'.deadCardsOf seat = g.deadCardsOf seat := by
  have hseat := congrArg (fun hands => (hands[seat]?.map fun cards =>
    cards.countP (·.dead)).getD 0) h
  simpa [deadCardsOf, Player.deadCount, Function.comp_def] using hseat

/-! ## Tolls -/

/-- A seat has the toll it had, if it has as many dead cards and as many losses. -/
theorem toll_congr (hdead : g'.deadCardsOf seat = g.deadCardsOf seat)
    (hlosses : g'.stack.frames.count (.loss seat) = g.stack.frames.count (.loss seat)) :
    g'.toll seat = g.toll seat := by
  rw [toll, toll, hdead, hlosses]

/-- In a lull no toll is taken. -/
theorem Lull.toll_eq (h : g.Lull g') (seat : Nat) : g'.toll seat = g.toll seat := by
  obtain ⟨_, _, _, rfl⟩ := h
  rfl

/-- A loss on top is a card of its seat. -/
theorem count_loss_cons (seat other : Nat) :
    (Frame.loss other :: frames).count (.loss seat)
      = frames.count (.loss seat) + if other = seat then 1 else 0 := by
  rw [List.count_cons]
  simp

/-- A frame on top that is no loss counts for none. -/
theorem count_loss_cons_of_ne (hf : ∀ other, f ≠ .loss other) (seat : Nat) :
    (f :: frames).count (.loss seat) = frames.count (.loss seat) :=
  List.count_cons_of_ne (hf seat)

/-! ## Losers -/

/-- Nobody loses a card over a challenge if none is called. -/
theorem Call.loser?_eq_none (hf : k.before.stack.frames = f :: below)
    (hne : ∀ r, f ≠ .reveal r) : k.loser? = none := by
  unfold loser? Stack.top?
  rw [hf, List.head?_cons]
  cases f with
  | reveal r => exact absurd rfl (hne r)
  | _ => rfl

/-- Nobody loses a card over a challenge as long as the stack stays as it is. -/
theorem Call.loser?_of_stack_eq (h : k.after.stack = k.before.stack) : k.loser? = none := by
  unfold loser?
  rw [h]
  split
  next => rfl
  next r heq hnot => exact absurd heq (hnot r)
  next => rfl

/-- Once a challenge is answered, its loser depends on whether the claim is dropped. -/
theorem Call.loser?_eq (hf : k.before.stack.frames = .reveal r :: below)
    (hne : ∀ r', k.after.stack.top? ≠ some (.reveal r')) :
    k.loser? = some (if k.after.stack.frames.countP (·.isClaim)
      < k.before.stack.frames.countP (·.isClaim) then r.challenged else r.challenger) := by
  have htop : k.before.stack.top? = some (.reveal r) := by rw [Stack.top?, hf, List.head?_cons]
  unfold loser?
  rw [htop]
  split
  next h => exact absurd h (hne _)
  next r' heq _ =>
    cases heq
    split <;> rfl
  next hnone _ => exact absurd rfl (hnone r)

/-- An answer costs one card, of the challenger if the claim stands, and of the challenged player if
it is dropped. -/
theorem Answer.loser?_eq (h : Answer g r c below choice g')
    (hf : g.stack.frames = .reveal r :: .claim c :: below) (hpending : g.Pending c below) :
    ∃ loser, (⟨g, cause, g'⟩ : Call).loser? = some loser ∧
      (loser = r.challenger ∨ loser = r.challenged) ∧
      ∀ seat, g'.toll seat = g.toll seat + if loser = seat then 1 else 0 := by
  have hcount : ∀ seat, g.stack.frames.count (.loss seat) = below.count (.loss seat) := by
    intro seat
    rw [hf, count_loss_cons_of_ne (fun _ => by simp), count_loss_cons_of_ne (fun _ => by simp)]
  have hclaims : g.stack.frames.countP (·.isClaim) = below.countP (·.isClaim) + 1 := by
    rw [hf]
    simp [Frame.isClaim]
  cases h with
  | proven hp | shown hp =>
    -- The claim stays, and the challenger is to lose a card.
    refine ⟨r.challenger, ?_, .inl rfl, fun seat => ?_⟩
    · rw [Call.loser?_eq hf (by simp [Stack.top?]), hclaims]
      simp [Frame.isClaim]
    · rw [toll, toll, deadCardsOf_of_set_eq hp rfl (Player.deadCount_redraw _ _), hcount,
        count_loss_cons, count_loss_cons_of_ne fun _ => by simp]
      omega
  | @caught p _ card ms hp hplain hcard hlives hclan =>
    -- The claim is dropped, and the revealed card dies at once. What lies below is no challenge.
    have hslot : p.hasLiving choice = true := Player.hasLiving_iff.2 ⟨card, hcard, hlives⟩
    have hbelow : ∀ r', (⟨below⟩ : Stack).top? ≠ some (.reveal r') := by
      cases hpending <;> simp [Stack.top?]
    refine ⟨r.challenged, ?_, .inr rfl, fun seat => ?_⟩
    · rw [Call.loser?_eq hf hbelow, hclaims]
      simp
    · rw [toll, toll, deadCardsOf_of_set hp rfl, hcount]
      have hone := Player.deadCount_killSlot hslot
      have hbefore := deadCardsOf_eq hp
      split
      next heq =>
        subst heq
        rw [if_pos rfl]
        dsimp only
        omega
      next hne =>
        rw [if_neg (Ne.symm hne)]
        rfl
  | conceded =>
    -- The claim is dropped, and its player is to lose a card of choice.
    refine ⟨r.challenged, ?_, .inr rfl, fun seat => ?_⟩
    · rw [Call.loser?_eq hf (by simp [Stack.top?]), hclaims]
      simp [Frame.isClaim]
    · rw [toll, toll, hcount, count_loss_cons]
      exact (Nat.add_assoc ..).symm

/-! ## Exchanges -/

/-- Whoever exchanges cards keeps the dead ones. -/
def KeepsDead (g : Game) : Prop :=
  ∀ e, g.exchange? = some e → e.hand.countP (·.dead) = g.deadCardsOf e.player

/-- Where nobody exchanges cards no dead ones are taken away. -/
theorem KeepsDead.of_none (h : g.exchange? = none) : g.KeepsDead :=
  fun _ he => nomatch h.symm.trans he

/-- A claim that goes through has dead cards kept. -/
theorem Grant.keepsDead (h : Grant g seat effect g') (hnone : exchangeIn g.stack.frames = none) :
    g'.KeepsDead := by
  cases h with
  | @exchange p ms drawn rest hp =>
    intro e he
    cases he
    have hkept : (p.cards.filter (·.dead)).countP (·.dead) = p.deadCount := by
      rw [List.countP_filter, Player.deadCount]
      simp
    exact hkept.trans (deadCardsOf_eq hp).symm
  | block hf | blockKill hf =>
    rw [hf] at hnone
    exact .of_none hnone
  | _ => exact .of_none hnone

/-- While a turn is under way every step has dead cards kept. -/
theorem Step.keepsDead (h : g.Sound) (hg : g.KeepsDead) (hstep : Step g cause g')
    (hvariant : g.variant ≠ none) (hpress : ∀ seat m, cause = .press seat m → g.underWay = true) :
    g'.KeepsDead := by
  have hbelow : ∀ {f below}, g.stack.frames = f :: below → exchangeIn below = none :=
    fun hf => (h.shape_of hf).exchangeIn_below
  cases hstep with
  | income hf | coup hf | convert hf | claim hf | askTarget hf =>
    cases (underWay_of_turn hf).symm.trans (hpress _ _ rfl)
  | deal hf => exact absurd (h.shape_of hf).variant_eq_none hvariant
  | acceptLast hf _ hgrant | unopposed hf _ hgrant | timeOut hf _ hgrant =>
    exact hgrant.keepsDead (hbelow hf)
  | answer hf hanswer | answerLast hf _ _ _ hanswer =>
    have hnone := (h.shape_of hf).of_reveal.1.exchangeIn_below
    cases hanswer <;> exact .of_none hnone
  | accept hf | ask hf | challenge hf | block hf | lose hf | loseAll hf | keepLast hf | showCard hf
  | showOnly hf | allow hf | change hf =>
    have hnone := hbelow hf
    exact .of_none hnone
  | dropDead hf =>
    have hnone := (h.shape_of hf).of_reveal.1.exchangeIn_below
    exact .of_none hnone
  | @keep e below index c hf =>
    intro e' he'
    cases he'
    have hkept := hg e (by rw [exchange?, hf]; rfl)
    rw [List.countP_append, hkept]
    rfl
  | pass | finish | askSomebody => exact hg

/-! ## Steps -/

/-- Where a frame is taken off that is no loss, and nobody's dead cards change, no toll is taken. -/
theorem toll_of_pop (hf : g.stack.frames = f :: below) (hne : ∀ other, f ≠ .loss other)
    (hf' : g'.stack.frames = below) (hdead : g'.deadCardsOf seat = g.deadCardsOf seat) :
    g'.toll seat = g.toll seat :=
  toll_congr hdead (by rw [hf, hf', count_loss_cons_of_ne hne])

/-- A card that is lost was counted already when it was owed. -/
theorem toll_of_killSlot (hf : g.stack.frames = .loss seat :: below)
    (hp : g.players[seat]? = some p) (hlives : p.hasLiving slot = true)
    (hps : g'.players = g.players.set seat (p.killSlot slot)) (hf' : g'.stack.frames = below)
    (other : Nat) : g'.toll other = g.toll other := by
  have hone := Player.deadCount_killSlot hlives
  have hbefore := deadCardsOf_eq hp
  rw [toll, toll, deadCardsOf_of_set hp hps, hf, hf', count_loss_cons]
  split
  next heq =>
    subst heq
    rw [if_pos rfl]
    omega
  next hne => rw [if_neg (Ne.symm hne), Nat.add_zero]

/-- A claim that goes through takes a toll from the target of an assassination, if that is alive,
and from nobody else. -/
theorem Grant.toll_eq (h : Grant g seat effect g') (other : Nat) :
    g'.toll other = g.toll other
      + if effect = .assassinate other ∧ g.isAlive other = true then 1 else 0 := by
  have hdead := h.sameCards.deadCardsOf_eq other
  rw [toll, toll, hdead]
  cases h with
  | @assassinate p ms target hp ht =>
    -- The loss that goes on the stack is the target's.
    rw [count_loss_cons, Nat.add_assoc]
    congr 2
    by_cases heq : target = other
    · subst heq
      simp [ht]
    · rw [if_neg heq, if_neg fun hkill => heq (Effect.assassinate.inj hkill.1)]
  | @assassinateDead p ms target hp ht =>
    have hno : ¬ (Effect.assassinate target = .assassinate other ∧ g.isAlive other = true) := by
      rintro ⟨hkill, hlives⟩
      rw [← Effect.assassinate.inj hkill, ht] at hlives
      cases hlives
    rw [if_neg hno]
    rfl
  | exchange | inspect =>
    rw [count_loss_cons_of_ne fun _ => by simp]
    simp
  | block hf | blockKill hf =>
    rw [hf, count_loss_cons_of_ne fun _ => by simp]
    simp
  | _ => simp

/-- A step that grants a claim takes a toll from the target of an assassination, if that is alive,
and from nobody else. -/
theorem Decided.toll_eq (h : Decided g c .granted g') (other : Nat) :
    g'.toll other = g.toll other
      + if c.effect = .assassinate other ∧ g.isAlive other = true then 1 else 0 := by
  cases h with
  | granted venue hf hgrant =>
    have htoll := hgrant.toll_eq other
    have hpop : toll { g with venue, stack := ⟨[.turn]⟩, stirred := true } other = g.toll other :=
      toll_of_pop hf (fun _ => by simp) rfl rfl
    rwa [hpop] at htoll

/-- A claim that goes through takes no toll, unless it is the current player's. -/
theorem Sound.toll_of_grant {v : Venue} (h : g.Sound) (hf : g.stack.frames = .claim c :: below)
    (hgrant : Grant { g with venue := v, stack := ⟨below⟩, stirred := true } c.actor c.effect g')
    (hnot : ∀ c, ¬ Decided g c .granted g') (other : Nat) : g'.toll other = g.toll other := by
  have htoll := hgrant.toll_eq other
  have hpop : toll { g with venue := v, stack := ⟨below⟩, stirred := true } other = g.toll other :=
    toll_of_pop hf (fun _ => by simp) rfl rfl
  rw [hpop] at htoll
  cases h.shape_of hf with
  | asked hpending =>
    cases hpending with
    | own hc => exact absurd (.granted v hf hgrant) (hnot c)
    | block _ _ hb =>
      rw [hb.effect, if_neg (by simp)] at htoll
      exact htoll

/-- A step that grants nothing takes a toll from the loser of the challenge that it answers, if it
does, and from nobody else. -/
theorem Step.toll_eq (h : g.Sound) (hg : g.KeepsDead) (hstep : Step g cause g')
    (hvariant : g.variant ≠ none) (hpress : ∀ seat m, cause = .press seat m → g.underWay = true)
    (hnot : ∀ c, ¬ Decided g c .granted g') (other : Nat) :
    g'.toll other = g.toll other
      + if (⟨g, cause, g'⟩ : Call).loser? = some other then 1 else 0 := by
  -- Where no challenge is called, nobody loses one.
  have hnobody : ∀ {f below}, g.stack.frames = f :: below → (∀ r, f ≠ .reveal r) →
      g'.toll other = g.toll other → g'.toll other = g.toll other
        + if (⟨g, cause, g'⟩ : Call).loser? = some other then 1 else 0 := by
    intro f below hf hne htoll
    rw [Call.loser?_eq_none hf hne, htoll, if_neg (Option.some_ne_none other).symm, Nat.add_zero]
  cases hstep with
  | income hf | coup hf | convert hf | claim hf | askTarget hf =>
    cases (underWay_of_turn hf).symm.trans (hpress _ _ rfl)
  | deal hf => exact absurd (h.shape_of hf).variant_eq_none hvariant
  | acceptLast hf _ hgrant | unopposed hf _ hgrant =>
    exact hnobody hf (fun _ => by simp) (h.toll_of_grant hf hgrant hnot other)
  | timeOut hf _ hgrant =>
    exact hnobody hf (fun _ => by simp) (h.toll_of_grant (v := g.venue) hf hgrant hnot other)
  | answer hf hanswer | answerLast hf _ _ _ hanswer =>
    obtain ⟨loser, hloser, -, htoll⟩ := hanswer.loser?_eq hf (h.shape_of hf).of_reveal.1
    rw [htoll, hloser]
    simp
  | lose hf hp hlives =>
    exact hnobody hf (fun _ => by simp) (toll_of_killSlot hf hp hlives rfl rfl other)
  | loseAll hf hp hall =>
    -- Losing all cards is losing one: whoever has to lose one and has no choice has one left.
    obtain ⟨slot, hlives, hkill⟩ := Player.killAll_of_single (h.livingCount_of_losesAll hf hp hall)
    exact hnobody hf (fun _ => by simp) (toll_of_killSlot hf hp hlives (by rw [hkill]) rfl other)
  | @keepLast e below index c p ms hf _ _ hp =>
    -- The hand that is put down has the dead cards that were on the table.
    have hkept := hg e (by rw [exchange?, hf]; rfl)
    have hdead : ({ p with cards := e.hand ++ [⟨c, false⟩] } : Player).deadCount = p.deadCount := by
      rw [Player.deadCount, List.countP_append, hkept, deadCardsOf_eq hp]
      rfl
    exact hnobody hf (fun _ => by simp) (toll_of_pop hf (fun _ => by simp) rfl
      (deadCardsOf_of_set_eq hp rfl hdead other))
  | change hf _ hp =>
    exact hnobody hf (fun _ => by simp) (toll_of_pop hf (fun _ => by simp) rfl
      (deadCardsOf_of_set_eq hp rfl (Player.deadCount_redraw _ _) other))
  | accept hf | ask hf | keep hf | showCard hf | showOnly hf =>
    refine hnobody hf (fun _ => by simp) (toll_congr rfl ?_)
    rw [hf, count_loss_cons_of_ne fun _ => by simp, count_loss_cons_of_ne fun _ => by simp]
  | challenge hf | block hf =>
    refine hnobody hf (fun _ => by simp) (toll_congr rfl ?_)
    rw [hf, count_loss_cons_of_ne fun _ => by simp, count_loss_cons_of_ne fun _ => by simp,
      count_loss_cons_of_ne fun _ => by simp]
  | allow hf => exact hnobody hf (fun _ => by simp) (toll_of_pop hf (fun _ => by simp) rfl rfl)
  | dropDead hf hdead => cases (h.shape_of hf).isAlive_challenged.symm.trans hdead
  | pass hf | finish hf => exact hnobody hf (fun _ => by simp) rfl
  | askSomebody hf =>
    rw [Call.loser?_of_stack_eq rfl]
    rfl

/-! ## Challenges -/

/-- A claim that goes through leaves the challenges that wait. -/
theorem Grant.openChallenges_eq (h : Grant g seat effect g') :
    g'.openChallenges = g.openChallenges := by
  unfold openChallenges
  cases h with
  | block hf | blockKill hf => simp [hf, Frame.isReveal]
  | _ => simp [Frame.isReveal]

/-- An answer ends the challenge on top. -/
theorem Answer.openChallenges_succ (h : Answer g r c below choice g')
    (hf : g.stack.frames = .reveal r :: .claim c :: below) :
    g'.openChallenges + 1 = g.openChallenges := by
  unfold openChallenges
  rw [hf]
  cases h <;> simp [Frame.isReveal]

/-- While a turn is under way, the challenges that wait are those that were taken in and have no
loser yet. -/
theorem Step.openChallenges_add (h : g.Sound) (hstep : Step g cause g')
    (hvariant : g.variant ≠ none) (hpress : ∀ seat m, cause = .press seat m → g.underWay = true) :
    g'.openChallenges + (⟨g, cause, g'⟩ : Call).loser?.toList.length
      = g.openChallenges + if (⟨g, cause, g'⟩ : Call).isChallenge = true then 1 else 0 := by
  have hnobody : ∀ {f below}, g.stack.frames = f :: below → (∀ r, f ≠ .reveal r) →
      (⟨g, cause, g'⟩ : Call).loser?.toList.length = 0 := by
    intro f below hf hne
    rw [Call.loser?_eq_none hf hne]
    rfl
  cases hstep with
  | income hf | coup hf | convert hf | claim hf | askTarget hf =>
    cases (underWay_of_turn hf).symm.trans (hpress _ _ rfl)
  | deal hf => exact absurd (h.shape_of hf).variant_eq_none hvariant
  | @challenge c below seat hf =>
    have hne : (⟨g, .press seat .challenge, { g with
        venue := g.venue.release c.alarm
        stack := ⟨.reveal ⟨seat, c.actor, c.challengedClans, c.inverted⟩
          :: .claim { c with alarm := none } :: below⟩
        stirred := true }⟩ : Call).isChallenge = true := by
      unfold Call.isChallenge
      simp only [bne_iff_ne, ne_eq]
      intro heq
      have hstack := congrArg (fun g => g.stack.frames) heq
      rw [hf] at hstack
      cases hstack
    -- The challenge that was taken in waits now, and nobody has lost it yet.
    rw [hnobody hf (fun _ => by simp), hne, if_pos rfl]
    simp [openChallenges, hf, Frame.isReveal]
  | acceptLast hf _ hgrant | unopposed hf _ hgrant | timeOut hf _ hgrant =>
    rw [hnobody hf (fun _ => by simp), hgrant.openChallenges_eq]
    simp [openChallenges, hf, Frame.isReveal, Call.isChallenge, lifted]
  | answer hf hanswer | answerLast hf _ _ _ hanswer =>
    obtain ⟨loser, hloser, -, -⟩ := hanswer.loser?_eq hf (h.shape_of hf).of_reveal.1
    -- The challenge that waited has its loser.
    rw [hloser, ← hanswer.openChallenges_succ hf]
    rfl
  | dropDead hf hdead => cases (h.shape_of hf).isAlive_challenged.symm.trans hdead
  | askSomebody hf =>
    rw [Call.loser?_of_stack_eq rfl]
    rfl
  | pass hf | finish hf =>
    rw [hnobody hf (fun _ => by simp)]
    rfl
  | _ hf =>
    rw [hnobody hf (fun _ => by simp)]
    simp [openChallenges, hf, Frame.isReveal, Call.isChallenge]

/-! ## Victims -/

/-- Whether a call has a victim depends on the effect of the claim that it is about. -/
theorem Call.victim?_of_claim? (hclaim : k.before.claim? = some c) :
    k.victim? = match c.effect with
      | .assassinate target => if k.grantsOver target then some target else none
      | _ => none := by
  unfold victim?
  rw [hclaim, Option.map_some]
  cases c.effect <;> rfl

/-- Nobody loses a card to a call that decides nothing. -/
theorem Call.victim?_eq_none (h : k.outcome? ≠ some .granted) : k.victim? = none := by
  have hgrants : ∀ target, k.grantsOver target = false := by
    intro target
    rw [grantsOver, beq_eq_false_iff_ne.2 h, Bool.false_and]
  unfold victim?
  split
  next target _ => rw [hgrants target, if_neg Bool.false_ne_true]
  next => rfl

/-- Whoever loses a card to a call that grants the claim is the target of an assassination, and
alive. -/
theorem Decided.victim?_eq_iff (h : Decided k.before c .granted k.after) (hsound : k.before.Sound)
    (other : Nat) : k.victim? = some other ↔
      c.effect = .assassinate other ∧ k.before.isAlive other = true := by
  have hclaim : k.before.claim? = some c := by
    cases h with
    | granted venue hf =>
      rw [claim?, hf]
      cases hsound.shape_of hf with
      | asked hpending =>
        cases hpending with
        | own hc => exact ownClaimIn_own hc.ne_block
  -- The claim is granted, so that the fate of its target depends on whether that is alive.
  have hgrants : ∀ target, k.grantsOver target = k.before.isAlive target := by
    intro target
    rw [Call.grantsOver, h.outcome?_eq hsound hclaim, beq_self_eq_true, Bool.true_and]
  rw [Call.victim?_of_claim? hclaim]
  generalize c.effect = effect
  cases effect with
  | assassinate target =>
    dsimp only
    rw [hgrants, Effect.assassinate.injEq]
    by_cases hlives : k.before.isAlive target = true
    · rw [if_pos hlives, Option.some.injEq]
      exact ⟨fun heq => ⟨heq, heq ▸ hlives⟩, And.left⟩
    · rw [if_neg hlives]
      constructor
      · rintro ⟨⟩
      · rintro ⟨rfl, hlives'⟩
        exact absurd hlives' hlives
  | _ =>
    constructor
    · rintro ⟨⟩
    · rintro ⟨⟨⟩, -⟩

/-- A call takes a toll from the loser of the challenge that it answers, and from the target of the
assassination that it grants, and from nobody else. -/
theorem Regular.toll_eq (hcall : Regular (·.underWay = true) k) (hv : k.before.variant ≠ none)
    (hkept : k.before.KeepsDead) (other : Nat) :
    k.after.toll other = k.before.toll other + k.loser?.toList.count other
      + k.victim?.toList.count other := by
  have hcount : ∀ found : Option Nat,
      found.toList.count other = if found = some other then 1 else 0 := by
    rintro (_ | seat)
    · rfl
    · simp [List.count_singleton]
  have hnone : ¬ none = some other := (Option.some_ne_none other).symm
  rw [hcount, hcount]
  by_cases hgranted : ∃ c, Decided k.before c .granted k.after
  · obtain ⟨c, hdecided⟩ := hgranted
    -- A call that grants a claim answers no challenge.
    have hloser : k.loser? = none := by
      cases hdecided with
      | granted _ hf => exact Call.loser?_eq_none hf fun _ => by simp
    rw [hdecided.toll_eq, hloser, if_neg hnone]
    simp only [hdecided.victim?_eq_iff hcall.sound, Nat.add_zero]
  · have hnot : ∀ c, ¬ Decided k.before c .granted k.after := fun c hc => hgranted ⟨c, hc⟩
    -- A call that grants none has no victim.
    have hvictim : k.victim? = none := by
      refine Call.victim?_eq_none fun hout => ?_
      obtain ⟨c, -, hdecided⟩ := hcall.decided hout
      exact hnot c hdecided
    rw [hvictim, if_neg hnone, Nat.add_zero]
    rcases hcall.step with heq | hstep
    · rw [Call.loser?_of_stack_eq (by rw [heq]), heq, if_neg hnone, Nat.add_zero]
    · exact hstep.toll_eq hcall.sound hkept hv hcall.press hnot other

/-- What is known of a game in which a turn is under way. -/
structure InPlay (g : Game) : Prop where
  /-- The variant is chosen. -/
  variant : g.variant ≠ none
  /-- Whoever exchanges cards keeps the dead ones. -/
  keepsDead : g.KeepsDead

/-- A regular call leaves it at that. -/
theorem Regular.inPlay (hcall : Regular (·.underWay = true) k) (h : k.before.InPlay) :
    k.after.InPlay := by
  refine ⟨hcall.variant_ne_none h.variant, ?_⟩
  rcases hcall.step with heq | hstep
  · rw [heq]
    exact h.keepsDead
  · exact hstep.keepsDead hcall.sound h.keepsDead h.variant hcall.press

/-- The calls of a turn take a toll from the losers of the challenges that they answer, and from the
targets of the assassinations that they grant. -/
theorem Chain.toll_eq (hchain : Chain (·.underWay = true) g ks g') (h : g.InPlay) (other : Nat) :
    g'.toll other = g.toll other + (losers ks).count other
      + (ks.filterMap (·.victim?)).count other := by
  induction hchain with
  | done hlull => exact hlull.toll_eq other
  | @next g g' k ks hlull hcall _ ih =>
    have hbefore : k.before.InPlay ∧ k.before.toll other = g.toll other := by
      obtain ⟨_, _, _, hk⟩ := hlull
      rw [hk]
      exact ⟨⟨h.variant, h.keepsDead⟩, rfl⟩
    have hone := hcall.toll_eq hbefore.1.variant hbefore.1.keepsDead other
    have hcons : ∀ find : Call → Option Nat, (k :: ks).filterMap find
        = (find k).toList ++ ks.filterMap find := by
      intro find
      rw [List.filterMap_cons]
      cases find k <;> rfl
    have hrest := ih (hcall.inPlay hbefore.1)
    unfold losers at hrest ⊢
    rw [hcons, hcons, List.count_append, List.count_append]
    omega

/-- A call takes in a challenge that waits then, or answers one that waited, or neither. -/
theorem Regular.openChallenges_add (hcall : Regular (·.underWay = true) k)
    (hv : k.before.variant ≠ none) : k.after.openChallenges + k.loser?.toList.length
      = k.before.openChallenges + if k.isChallenge = true then 1 else 0 := by
  rcases hcall.step with heq | hstep
  · have hno : k.isChallenge = false := by
      unfold Call.isChallenge
      rw [heq]
      split <;> simp
    rw [Call.loser?_of_stack_eq (by rw [heq]), heq, hno]
    rfl
  · exact hstep.openChallenges_add hcall.sound hv hcall.press

/-- The calls of a turn answer as many challenges as they take in, but for those that wait. -/
theorem Chain.openChallenges_add (hchain : Chain (·.underWay = true) g ks g')
    (hv : g.variant ≠ none) : g'.openChallenges + (losers ks).length
      = g.openChallenges + ks.countP (·.isChallenge) := by
  induction hchain with
  | done hlull =>
    obtain ⟨_, _, _, rfl⟩ := hlull
    rfl
  | @next g g' k ks hlull hcall _ ih =>
    have hbefore : k.before.variant ≠ none ∧ k.before.openChallenges = g.openChallenges := by
      obtain ⟨_, _, _, hk⟩ := hlull
      rw [hk]
      exact ⟨hv, rfl⟩
    have hone := hcall.openChallenges_add hbefore.1
    have hrest := ih (hcall.variant_ne_none hbefore.1)
    have hlosers : (losers (k :: ks)).length = k.loser?.toList.length + (losers ks).length := by
      unfold losers
      rw [List.filterMap_cons]
      cases k.loser? <;> simp [Nat.add_comm]
    rw [hlosers, List.countP_cons]
    omega

end Game

end CoupTable
