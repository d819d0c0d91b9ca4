import CoupTable.Proofs.Closing
import CoupTable.Proofs.Verdicts

/-!
# The arbitration of challenges

From the press that challenges a claim on, whatever comes in is ignored but for the answer of the
challenged player and for the choice of the card that the challenge costs. Each may be made without
asking, where only one card is left. When both are made, exactly one card is lost, and the claim has
met with the `Verdict` that the answer deserves.
-/

namespace CoupTable.Game

variable {g g' x y : Game} {cause : Cause} {i : Input} {inputs : List Input} {seat choice : Nat}
  {p : Player} {c : Claim} {r : Reveal} {below : List Frame}

/-! ## Answers -/

/-- Only what answers a challenge is an answer. -/
theorem Answer.answers (h : Answer g r c below choice g')
    (hp : g.players[r.challenged]? = some p) : p.answers r choice = true := by
  unfold Player.answers
  cases h with
  | proven hp' hplain hcard hlives | caught hp' hplain hcard hlives =>
    cases hp.symm.trans hp'
    rw [hplain, if_neg nofun]
    exact Player.hasLiving_iff.2 ⟨_, hcard, hlives⟩
  | shown hp' hinverted hclan =>
    cases hp.symm.trans hp'
    rw [hinverted, if_pos rfl, hclan]
    rfl
  | conceded hinverted =>
    rw [hinverted, if_pos rfl]
    rfl

/-- Whatever answers a challenge is taken for an answer. -/
theorem revealInput_of_answers (h : g.Sound) (hf : g.stack.frames = .reveal r :: .claim c :: below)
    (hp : g.players[r.challenged]? = some p) (hanswers : p.answers r choice = true) :
    ∃ g', g.revealInput r r.challenged (.reveal choice) = .ok g' ∧
      Answer g r c below choice g' := by
  unfold Player.answers at hanswers
  unfold revealInput
  simp only [player_eq hp, ok_bind, ne_eq, not_true_eq_false, if_false]
  cases hinverted : r.inverted with
  | true =>
    rw [hinverted, if_pos rfl, Bool.or_eq_true, Bool.and_eq_true, beq_iff_eq, beq_iff_eq,
      Bool.not_eq_true'] at hanswers
    rw [if_pos rfl]
    obtain rfl | ⟨rfl, hclan⟩ := hanswers
    · exact concede_eq h hf hinverted
    · simp only [Nat.one_ne_zero, if_false, hclan, Bool.not_false, Bool.and_true, decide_true,
        if_true]
      obtain ⟨challenger, -, hchallenger, -, hlen⟩ := h.of_challenge hf
      exact showHand_eq hf hlen hchallenger hp hinverted hclan
  | false =>
    rw [hinverted, if_neg nofun] at hanswers
    simp only [hanswers, if_true]
    exact revealCard_eq h hf hp hinverted hanswers

/-- A step that a challenge on top takes is the question, or an answer. -/
theorem Step.of_reveal (h : g.Sound) (hstep : Step g cause g')
    (hf : g.stack.frames = .reveal r :: .claim c :: below)
    (hp : g.players[r.challenged]? = some p) :
    (cause = .idle ∧ ∃ venue, g' = { g with venue }) ∨
    ∃ choice, Answer g r c below choice g' ∧ (cause = .press r.challenged (.reveal choice) ∨
      cause = .idle ∧ r.inverted = false ∧ p.singleLiving? = some choice) := by
  cases hstep with
  | answer hf' hanswer =>
    rw [hf] at hf'
    cases hf'
    exact .inr ⟨_, hanswer, .inl rfl⟩
  | answerLast hf' hp' hplain hsingle hanswer =>
    rw [hf] at hf'
    cases hf'
    cases hp.symm.trans hp'
    exact .inr ⟨_, hanswer, .inr ⟨rfl, hplain, hsingle⟩⟩
  | dropDead hf' hdead => cases (h.shape_of hf').isAlive_challenged.symm.trans hdead
  | askSomebody => exact .inl ⟨rfl, _, rfl⟩
  | deal hf' | income hf' | coup hf' | convert hf' | claim hf' | askTarget hf' | pass hf'
  | finish hf' | accept hf' | acceptLast hf' | timeOut hf' | unopposed hf' | ask hf'
  | challenge hf' | block hf' | lose hf' | loseAll hf' | keep hf' | keepLast hf' | showCard hf'
  | showOnly hf' | allow hf' | change hf' =>
    rw [hf] at hf'
    cases hf'

/-- What comes in while a challenge waits for its answer changes the venue alone, or is the answer,
after which the game settles. -/
theorem AtRest.feed_of_reveal (h : g.AtRest)
    (hf : g.stack.frames = .reveal r :: .claim c :: below)
    (hp : g.players[r.challenged]? = some p) (hfeed : g.feed i = .ok x) :
    (p.answer? r i = none ∧ ∃ venue, x = { g with venue }) ∨
    ∃ choice g', p.answer? r i = some choice ∧ Answer g r c below choice g' ∧ g'.Sound ∧
      Settles g' x := by
  obtain ⟨hstay, hignored⟩ | ⟨seat, data, m, g₁, rfl, hparse, -, hstep, hsound, hsettles⟩ :=
    feed_cases h hf nofun (fun _ => nofun) hfeed
  · refine .inl ⟨Option.eq_none_iff_forall_ne_some.2 fun choice hchoice => ?_, hstay⟩
    unfold Player.answer? at hchoice
    split at hchoice
    next seat data =>
      split at hchoice
      next choice' hparse =>
        split at hchoice
        next hanswers =>
          -- an answer would not have been ignored
          obtain ⟨rfl, hanswers⟩ := hanswers
          obtain ⟨hlt, -⟩ := List.getElem?_eq_some_iff.1 hp
          have hdispatch := hignored _ _ _ rfl hparse hlt
          obtain ⟨g', hinput, hanswer⟩ := revealInput_of_answers h.toSound hf hp hanswers
          unfold dispatch Stack.top? at hdispatch
          rw [hf, List.head?_cons] at hdispatch
          cases hinput.symm.trans hdispatch
          cases hanswer.stirred_eq.symm.trans h.still
        next => cases hchoice
      next => cases hchoice
    next => cases hchoice
    next => cases hchoice
  · refine .inr ?_
    obtain ⟨hidle, -⟩ | ⟨choice, hanswer, hcause | ⟨hidle, -⟩⟩ := hstep.of_reveal h.toSound hf hp
    · cases hidle
    · cases hcause
      have hanswers := hanswer.answers hp
      refine ⟨choice, g₁, ?_, hanswer, hsound, hsettles⟩
      simp only [Player.answer?, hparse, hanswers, and_self, if_true]
    · cases hidle

/-! ## Runs up to the answer -/

/-- A challenge on top has to be answered. -/
theorem isArbitrating_of_reveal {frames : List Frame} (hf : g.stack.frames = .reveal r :: frames) :
    g.isArbitrating = true := by
  rw [isArbitrating, Stack.top?, hf]
  rfl

/-- The challenge in `g`, with the venue as it is by then, is answered by a choice, the game settles
at a game at rest, and further inputs lead from there to `g'`. -/
def Answered (g : Game) (r : Reveal) (c : Claim) (below : List Frame) (choice : Nat) (g' : Game) :
    Prop :=
  ∃ venue y x rest, Answer { g with venue, stirred := false } r c below choice y ∧ y.Sound ∧
    Settles y x ∧ x.AtRest ∧ RunsThrough (·.isArbitrating = true) x rest g'

/-- A run with a challenge on top that is over once it is answered, and a card lost, comes to the
first answer among its inputs. -/
theorem RunsThrough.of_reveal (hrun : RunsThrough (·.isArbitrating = true) g inputs g')
    (h : g.AtRest) (hf : g.stack.frames = .reveal r :: .claim c :: below)
    (hp : g.players[r.challenged]? = some p) (hdone : g'.isArbitrating = false) :
    ∃ choice, inputs.findSome? (p.answer? r) = some choice ∧ g.Answered r c below choice g' := by
  induction hrun with
  | done => cases (isArbitrating_of_reveal hf).symm.trans hdone
  | @next g g₁ g' i inputs _ hfeed hrun ih =>
    obtain ⟨hnone, venue, rfl⟩ | ⟨choice, y, hsome, hanswer, hsound, hsettles⟩ :=
      h.feed_of_reveal hf hp hfeed
    · obtain ⟨choice, hfind, hanswered⟩ := ih (h.feed hfeed) hf hp hdone
      refine ⟨choice, ?_, hanswered⟩
      rw [List.findSome?_cons, hnone]
      exact hfind
    · refine ⟨choice, ?_, g.venue, y, g₁, inputs, ?_, hsound, hsettles, h.feed hfeed, hrun⟩
      · rw [List.findSome?_cons, hsome]
      · rw [← h.still]
        exact hanswer

/-- Wherever a game with a challenge on top settles, a run from there that is over once the
challenge is answered, and a card lost, comes to the answer that the inputs choose. -/
theorem Settles.runsThrough_of_reveal (hsettles : Settles g x) (h : g.Sound)
    (hf : g.stack.frames = .reveal r :: .claim c :: below)
    (hp : g.players[r.challenged]? = some p) (hx : x.AtRest)
    (hrun : RunsThrough (·.isArbitrating = true) x inputs g') (hdone : g'.isArbitrating = false) :
    ∃ choice, p.choice? r inputs = some choice ∧ g.Answered r c below choice g' := by
  have hasked : (∃ venue, x = { g with venue, stirred := false }) →
      ∃ choice, p.choice? r inputs = some choice ∧ g.Answered r c below choice g' := by
    rintro ⟨venue, rfl⟩
    obtain ⟨choice, hfind, hanswered⟩ := hrun.of_reveal hx hf hp hdone
    refine ⟨choice, ?_, hanswered⟩
    -- a last card would have been revealed by now
    have hwaits := hx.waiting _ _ hf
    unfold Player.choice?
    split
    next slot hplain hsingle =>
      exact absurd (Player.singleLiving?_eq_some hsingle).2 (hwaits hplain p hp)
    next => exact hfind
  obtain ⟨hstill, rfl⟩ | ⟨-, g₁, hidled, hsound, hsettles⟩ := hsettles.split h
  · exact hasked ⟨x.venue, by rw [← hstill]⟩
  · obtain ⟨-, venue, rfl⟩ | ⟨choice, hanswer, hcause | ⟨-, hplain, hsingle⟩⟩ :=
      hidled.step.of_reveal h.hush hf hp
    · cases hsettles.eq_of_still rfl
      exact hasked ⟨venue, rfl⟩
    · cases hcause
    · refine ⟨choice, ?_, g.venue, g₁, x, inputs, hanswer, hsound, hsettles, hx, hrun⟩
      unfold Player.choice?
      rw [hplain, hsingle]

/-! ## After the answer -/

/-- A game with a claim on top that settles has it before the table again, and nobody has to answer
or to lose a card. -/
theorem Settles.reopened (hsettles : Settles g x) (h : g.Sound) (hstirred : g.stirred = true)
    (hf : g.stack.frames = .claim c :: below) :
    Reopened { g with stirred := false } x ∧ x.isArbitrating = false := by
  obtain ⟨venue, alarm, rfl⟩ | ⟨hquorum, g₁, hgrant, hsound, hsettles⟩ :=
    hsettles.of_claim h hstirred hf
  · exact ⟨.asked hf, rfl⟩
  · cases h.shape_of hf with
    | asked hpending =>
      obtain ⟨f, rest, hf₁, hcalm⟩ := hpending.calm_grant hquorum hgrant
      have hcalms := hsettles.calm hsound hf₁ hcalm
      obtain ⟨f', hf', hcalm'⟩ := hcalms.top
      exact ⟨.through hf hquorum hgrant hsettles hcalms, isArbitrating_of_isCalm hf' hcalm'⟩

/-- A game with the turn on top that settles keeps its cards, its coins and its stack. -/
theorem Settles.of_turn (hsettles : Settles g x) (h : g.Sound) (hf : g.stack.frames = [.turn]) :
    g.Calm x ∧ x.stack.frames = [.turn] ∧ x.isArbitrating = false := by
  have hcalm := hsettles.calm h hf rfl
  have hframes := (hcalm.turn _ hf).trans hf
  exact ⟨hcalm, hframes, isArbitrating_of_isCalm hframes rfl⟩

/-- What an answer does, by what it proves: the claim stands, and the cards that were shown are
changed; or it is dropped, with the card that was revealed or for a card of choice. -/
inductive Ruling (g : Game) (r : Reveal) (c : Claim) (below : List Frame) (p : Player) :
    Nat → Game → Prop where
  /-- The claim is proved. -/
  | upheld {choice drawn rest ms} (hproof : p.proves r choice = true)
      (hdeck : (g.reshuffled ((p.shown r choice).map (·.2))).1.cards = drawn ++ rest)
      (hdrawn : drawn.length = (p.shown r choice).length) :
    Ruling g r c below p choice { g with
      venue := g.venue.saying ms
      rng := (g.reshuffled ((p.shown r choice).map (·.2))).2
      players := g.players.set r.challenged (p.redraw ((p.shown r choice).map (·.1)) drawn)
      deck := ⟨rest⟩
      stack := ⟨.loss r.challenger :: .claim { c with challengeable := false } :: below⟩
      stirred := true }
  /-- A card of other clans is revealed. -/
  | caught {choice ms} (hplain : r.inverted = false) (hproof : p.proves r choice = false)
      (hlives : p.hasLiving choice = true) :
    Ruling g r c below p choice { g with
      venue := (g.venue.saying ms).release c.alarm
      players := g.players.set r.challenged (p.killSlot choice)
      stack := ⟨below⟩
      stirred := true }
  /-- The claim is given up. -/
  | conceded {choice ms} (hinverted : r.inverted = true) (hproof : p.proves r choice = false) :
    Ruling g r c below p choice { g with
      venue := (g.venue.saying ms).release c.alarm
      stack := ⟨.loss r.challenged :: below⟩
      stirred := true }

/-- Every answer is ruled on. -/
theorem Answer.ruling (h : Answer g r c below choice g')
    (hp : g.players[r.challenged]? = some p) : Ruling g r c below p choice g' := by
  cases h with
  -- A claim is upheld by one card that is shown, or, where the player denies to have one, by all.
  | @proven _ _ card drawn rest ms hp' hplain hcard hlives hclan hdeck =>
    cases hp.symm.trans hp'
    have hproof : p.proves r choice = true := by
      rw [Player.proves, hplain, if_neg nofun, hcard, Option.any_some, hlives, hclan]
      rfl
    have hshown := Player.shown_eq hplain hcard hlives
    have hdeck' : (g.reshuffled ((p.shown r choice).map (·.2))).1.cards = [drawn] ++ rest := by
      rw [hshown]
      exact hdeck
    have hruling := @Ruling.upheld g r c below p choice _ _ ms hproof hdeck' (by rw [hshown]; rfl)
    rw [hshown] at hruling
    exact hruling
  | @shown _ drawn rest ms hp' hinverted hclan hdeck hdrawn =>
    cases hp.symm.trans hp'
    have hproof : p.proves r 1 = true := by
      rw [Player.proves, hinverted, if_pos rfl, hclan]
      rfl
    have hshown : p.shown r 1 = p.living := by rw [Player.shown, hinverted, if_pos rfl]
    rw [← hshown] at hdeck
    have hruling := @Ruling.upheld g r c below p 1 _ _ ms hproof hdeck
      (by rw [hshown]; exact hdrawn)
    rw [hshown] at hruling
    exact hruling
  -- It is dropped where the card does not prove it, or where the player admits to have one.
  | caught hp' hplain hcard hlives hclan =>
    cases hp.symm.trans hp'
    refine .caught hplain ?_ (Player.hasLiving_iff.2 ⟨_, hcard, hlives⟩)
    rw [Player.proves, hplain, if_neg nofun, hcard, Option.any_some, hlives, hclan]
    rfl
  | conceded hinverted =>
    refine .conceded hinverted ?_
    rw [Player.proves, hinverted, if_pos rfl]
    rfl

/-- An answer settles a challenge: once the card that it costs is lost as well, the claim has met
with its verdict. -/
theorem Answered.verdict (h : g.Sound)
    (hf : g.stack.frames
      = .reveal (c.challengedBy seat) :: .claim { c with alarm := none } :: below)
    (hanswered : g.Answered (c.challengedBy seat) { c with alarm := none } below choice g')
    (hdone : g'.isArbitrating = false) :
    ∃ venue, Verdict { g with venue, stirred := false } c below seat choice g' := by
  obtain ⟨venue, y, x, rest, hanswer, hsound, hsettles, hx, hrun⟩ := hanswered
  refine ⟨venue, ?_⟩
  have hstop : ∀ {x rest}, RunsThrough (·.isArbitrating = true) x rest g' →
      x.isArbitrating = false → g' = x := by
    intro x rest hrun hx
    exact hrun.eq_of_not (by rw [hx]; exact nofun)
  obtain ⟨hpending, -, -, hne, -⟩ := (h.shape_of hf).of_reveal
  obtain ⟨p, hp⟩ : ∃ p, g.players[c.actor]? = some p := exists_player hpending.actor_lt
  cases hanswer.ruling (p := p) hp with
  | upheld hproof hdeck hdrawn =>
    -- The challenger loses a card, and then the claim is before the table again.
    obtain ⟨x', _, ⟨q, slot, venue', hq, hlives, hsound', hsettles'⟩, hrun'⟩ :=
      hsettles.runsThrough_of_loss hsound rfl hx hrun hdone
    obtain ⟨hreopened, hnot⟩ := hsettles'.reopened hsound' rfl rfl
    cases hstop hrun' hnot
    refine .upheld venue' hp ?_ hproof hdeck hdrawn hlives hreopened
    rwa [List.getElem?_set_ne hne.symm] at hq
  | caught hplain hproof hlives =>
    -- Nobody has to choose a card: the turn passes on, or the claim below a block is back.
    cases hpending with
    | own =>
      obtain ⟨hcalm, hframes, hnot⟩ := hsettles.of_turn hsound rfl
      cases hstop hrun hnot
      exact .dropped hp hproof hlives (fun _ => rfl) rfl hcalm.players hcalm.treasury hcalm.deck
        hframes
    | block =>
      obtain ⟨hreopened, hnot⟩ := hsettles.reopened hsound rfl rfl
      cases hstop hrun hnot
      exact .unblocked _ hp hproof hlives rfl hreopened
  | conceded hinverted hproof =>
    -- The challenged player loses a card of choice. A block cannot be conceded.
    obtain ⟨x', _, ⟨q, slot, venue', hq, hlives, hsound', hsettles'⟩, hrun'⟩ :=
      hsettles.runsThrough_of_loss hsound rfl hx hrun hdone
    cases hp.symm.trans hq
    have hslot : c.inverted = false → slot = choice := fun hplain => by
      cases hplain.symm.trans hinverted
    cases hpending with
    | own =>
      obtain ⟨hcalm, hframes, hnot⟩ := hsettles'.of_turn hsound' rfl
      cases hstop hrun' hnot
      exact .dropped hp hproof hlives hslot rfl hcalm.players hcalm.treasury hcalm.deck hframes
    | block _ _ hb => cases hb.not_inverted.symm.trans hinverted

end CoupTable.Game
