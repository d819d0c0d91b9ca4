import CoupTable.Proofs.Arbitration

/-!
# The outcome of a challenge

Every challenge of a reachable game costs exactly one card: the challenger's, if the answer proves
the claim, and the challenged player's otherwise. A claim that was proved cannot be challenged again
as long as it lies on the stack.
-/

namespace CoupTable.Game

variable {g g' x : Game} {inputs : List Input} {seat other slot choice : Nat} {p q : Player}
  {c : Claim} {below : List Frame} {data : String}

/-! ## Counting cards -/

/-- What happens to one player does not touch the living cards of another. -/
theorem livingCards_of_ne (hps : g'.players = g.players.set seat q) (hne : other ≠ seat) :
    g'.livingCards other = g.livingCards other := by
  rw [livingCards, livingCards, hps, List.getElem?_set_ne hne.symm]

/-- A changed player has the living cards of the new one. -/
theorem livingCards_of_set (hp : g.players[seat]? = some p)
    (hps : g'.players = g.players.set seat q) : g'.livingCards seat = q.livingCount := by
  obtain ⟨hlt, -⟩ := List.getElem?_eq_some_iff.1 hp
  rw [livingCards, hps, List.getElem?_set_self hlt]
  rfl

section Loss

variable (hp : g.players[seat]? = some p) (hlives : p.hasLiving slot = true)
  (hps : g'.players = g.players.set seat (p.killSlot slot))
include hp hlives hps

/-- A living card that is lost is one more lost card. -/
theorem deadCards_of_killSlot : g'.deadCards = g.deadCards + 1 := by
  have hset := sum_map_set (·.deadCount) (q := p.killSlot slot) hp
  have hone := Player.deadCount_killSlot hlives
  unfold deadCards
  rw [hps]
  omega

/-- A living card that is lost is one living card less. -/
theorem livingCards_of_killSlot : g'.livingCards seat + 1 = g.livingCards seat := by
  rw [livingCards_of_set hp hps, Player.livingCount_killSlot hlives, livingCards, hp]
  rfl

end Loss

section Redraw

variable {slots : List Nat} {drawn : List Character} (hp : g.players[seat]? = some p)
  (hps : g'.players = g.players.set seat (p.redraw slots drawn))
include hp hps

/-- Cards that are changed for others leave as many lost cards. -/
theorem deadCards_of_redraw : g'.deadCards = g.deadCards := by
  have hset := sum_map_set (·.deadCount) (q := p.redraw slots drawn) hp
  rw [Player.deadCount_redraw] at hset
  unfold deadCards
  rw [hps]
  omega

/-- Cards that are changed for others leave as many living cards. -/
theorem livingCards_of_redraw : g'.livingCards seat = g.livingCards seat := by
  rw [livingCards_of_set hp hps, Player.livingCount_redraw, livingCards, hp]
  rfl

end Redraw

namespace Verdict

/-- A claim that is proved costs the challenger a card, and its player none. -/
theorem of_proves (h : Verdict g c below seat choice g') (hne : seat ≠ c.actor)
    (hp : g.players[c.actor]? = some p)
    (hproof : p.proves (c.challengedBy seat) choice = true) :
    g'.deadCards = g.deadCards + 1 ∧ g'.livingCards seat + 1 = g.livingCards seat ∧
      ∀ other ≠ seat, g'.livingCards other = g.livingCards other := by
  cases h with
  | @upheld p' q drawn rest slot _ venue hp' hq _ _ _ hlives h =>
    -- Two players have changed, one after the other: the claimant's cards were redrawn first.
    obtain ⟨redrawn, hredrawn⟩ : ∃ redrawn : Game, redrawn.players = g.players.set c.actor
        (p'.redraw ((p'.shown (c.challengedBy seat) choice).map (·.1)) drawn) :=
      ⟨{ g with players := _ }, rfl⟩
    have hq' : redrawn.players[seat]? = some q := by
      rw [hredrawn, List.getElem?_set_ne hne.symm, hq]
    rw [← hredrawn] at h
    have hcards := h.sameCards
    refine ⟨?_, ?_, fun other hother => ?_⟩
    · rw [hcards.deadCards_eq, deadCards_of_killSlot hq' hlives rfl,
        deadCards_of_redraw hp' hredrawn]
    · rw [hcards.livingCards_eq, livingCards_of_killSlot hq' hlives rfl,
        livingCards_of_ne hredrawn hne]
    · rw [hcards.livingCards_eq, livingCards_of_ne (g := redrawn) rfl hother]
      by_cases hactor : other = c.actor
      · rw [hactor, livingCards_of_redraw hp' hredrawn]
      · exact livingCards_of_ne hredrawn hactor
  | dropped hp' hfailed | unblocked _ hp' hfailed =>
    cases hp.symm.trans hp'
    cases hproof.symm.trans hfailed

/-- A claim that is not proved costs its player a card, and nobody else. -/
theorem of_not_proves (h : Verdict g c below seat choice g') (hp : g.players[c.actor]? = some p)
    (hproof : p.proves (c.challengedBy seat) choice = false) :
    g'.deadCards = g.deadCards + 1 ∧ g'.livingCards c.actor + 1 = g.livingCards c.actor ∧
      ∀ other ≠ c.actor, g'.livingCards other = g.livingCards other := by
  cases h with
  | upheld _ hp' _ hproved =>
    cases hp.symm.trans hp'
    cases hproof.symm.trans hproved
  | dropped hp' _ hlives _ _ hplayers =>
    exact ⟨deadCards_of_killSlot hp' hlives hplayers, livingCards_of_killSlot hp' hlives hplayers,
      fun other hother => livingCards_of_ne hplayers hother⟩
  | unblocked _ hp' _ hlives _ h =>
    have hcards := h.sameCards
    refine ⟨?_, ?_, fun other hother => ?_⟩
    · rw [hcards.deadCards_eq, deadCards_of_killSlot hp' hlives rfl]
    · rw [hcards.livingCards_eq, livingCards_of_killSlot hp' hlives rfl]
    · rw [hcards.livingCards_eq, livingCards_of_ne rfl hother]

end Verdict

/-! ## Claims that were proved -/

/-- No claim lies on frames that it is one of. -/
theorem not_mem_openTails_self : below ∉ openTails below := by
  intro hmem
  obtain ⟨upper, c, hframes, -⟩ := mem_openTails.1 hmem
  have hlen := congrArg List.length hframes
  rw [List.length_append, List.length_cons] at hlen
  omega

/-- A claim that is before the table, and that nobody can challenge, is either there still, or no
other claim that could be challenged has come in its place. -/
theorem Reopened.closed (h : Reopened g g') (hf : g.stack.frames = .claim c :: below)
    (hclosed : c.challengeable = false) : below ∉ openTails g'.stack.frames := by
  cases h with
  | asked hf' =>
    rw [hf] at hf'
    cases hf'
    intro hmem
    obtain ⟨hopen, -⟩ | hmem := mem_openTails_cons.1 hmem
    · cases hclosed.symm.trans hopen
    · exact not_mem_openTails_self hmem
  | @through c' below' g₁ _ hf' _ hgrant _ hcalm =>
    rw [hf] at hf'
    cases hf'
    obtain ⟨f, hframes, hfcalm⟩ := hcalm.top
    intro hmem
    rw [hframes] at hmem
    obtain ⟨hopen, -⟩ | hmem := mem_openTails_cons.1 hmem
    · cases f <;> first | cases hopen | cases hfcalm
    · have htail : openTails g₁.stack.frames.tail ⊆ openTails g₁.stack.frames := by
        cases g₁.stack.frames with
        | nil => exact List.Subset.refl _
        | cons f frames => exact openTails_subset_cons f frames
      exact not_mem_openTails_self (hgrant.openTails_subset (htail hmem))

/-- Once a claim is proved, no claim on the frames below it can be challenged. -/
theorem Verdict.closed (h : Verdict g c below seat choice g') (hp : g.players[c.actor]? = some p)
    (hproof : p.proves (c.challengedBy seat) choice = true) :
    below ∉ openTails g'.stack.frames := by
  cases h with
  | upheld _ _ _ _ _ _ _ h => exact h.closed rfl rfl
  | dropped hp' hfailed | unblocked _ hp' hfailed =>
    cases hp.symm.trans hp'
    cases hproof.symm.trans hfailed

/-- A challenge is ignored while a claim that is closed to challenges is on top. -/
theorem AtRest.press_challenge_eq (h : g.AtRest) (hf : g.stack.frames = .claim c :: below)
    (hclosed : c.challengeable = false) (hdata : Move.parse? data = some .challenge) :
    g.press seat data = .ok g := by
  have hdispatch : g.dispatch seat .challenge = .ok g := by
    unfold dispatch Stack.top?
    rw [hf, List.head?_cons]
    simp only [claimInput, challengeInput, hclosed, Bool.false_and, Bool.false_eq_true, if_false]
    rfl
  unfold press
  rw [hdata]
  split
  next =>
    dsimp only
    rw [hdispatch, ok_bind, settle_eq h.still]
  next => rfl

/-- Whatever comes in, a claim on certain frames cannot be challenged as long as it lies there: it
is closed to challenges, and while it is on top each of them is ignored. -/
def ClosedOn (below : List Frame) (g : Game) : Prop :=
  ∀ later g', RunsThrough (HasClaimOn below) g later g' →
    ∀ upper c, g'.stack.frames = upper ++ .claim c :: below → c.challengeable = false ∧
      (upper = [] → ∀ seat data, Move.parse? data = some .challenge → g'.press seat data = .ok g')

/-- A claim on certain frames that cannot be challenged now can never be. -/
theorem AtRest.closedOn (h : g.AtRest) (hclosed : below ∉ openTails g.stack.frames) :
    g.ClosedOn below := by
  intro later g' hrun upper c hf
  have hnot : c.challengeable = false := by
    refine Bool.eq_false_iff.2 fun hopen => hrun.closed h hclosed ?_
    exact mem_openTails.2 ⟨upper, c, hf, hopen⟩
  refine ⟨hnot, fun hupper seat data hdata => ?_⟩
  subst hupper
  exact (hrun.atRest h).press_challenge_eq hf hnot hdata

/-! ## Challenges -/

/-- The game in which the player in a seat has just challenged the claim on top. -/
def challenged (g : Game) (c : Claim) (below : List Frame) (seat : Nat) : Game :=
  { g with
    venue := g.venue.release c.alarm
    stack := ⟨.reveal (c.challengedBy seat) :: .claim { c with alarm := none } :: below⟩
    stirred := true }

/-- A challenge that is not ignored is somebody else's, and the game settles with it on top. -/
theorem AtRest.press_challenge_cases (h : g.AtRest) (hf : g.stack.frames = .claim c :: below)
    (hdata : Move.parse? data = some .challenge) (hpress : g.press seat data = .ok x)
    (haccepted : x ≠ g) : seat ≠ c.actor ∧ (g.challenged c below seat).Sound ∧
      Settles (g.challenged c below seat) x := by
  obtain ⟨hignored, -⟩ | ⟨m, g₁, hparse, -, -, hstep, hsound, hsettles⟩ := press_cases h hpress
  · exact absurd hignored haccepted
  · cases hdata.symm.trans hparse
    cases hstep with
    | challenge hf' _ hne =>
      rw [hf] at hf'
      cases hf'
      exact ⟨hne, hsound, hsettles⟩
    | claim hf' | askTarget hf' =>
      rw [hf] at hf'
      cases hf'

/-- Once a challenge of a reachable game is answered, and the card that it costs is lost, the answer
that was given first has its verdict, and exactly one card is lost. If the answer proves the claim,
it is a card of the challenger, and the claim cannot be challenged again. Otherwise it is a card of
the challenged player. -/
theorem Reachable.challenge_arbitrated (h : Reachable g) (hf : g.stack.frames = .claim c :: below)
    (hdata : Move.parse? data = some .challenge) (hpress : g.press seat data = .ok x)
    (haccepted : x ≠ g) (hrun : RunsThrough (·.isArbitrating = true) x inputs g')
    (hdone : g'.isArbitrating = false) :
    ∃ p choice, g.players[c.actor]? = some p ∧
      p.choice? (c.challengedBy seat) inputs = some choice ∧
      Verdict g c below seat choice g' ∧ g'.deadCards = g.deadCards + 1 ∧
      (p.proves (c.challengedBy seat) choice = true →
        g'.livingCards seat + 1 = g.livingCards seat ∧
        (∀ other ≠ seat, g'.livingCards other = g.livingCards other) ∧ g'.ClosedOn below) ∧
      (p.proves (c.challengedBy seat) choice = false →
        g'.livingCards c.actor + 1 = g.livingCards c.actor ∧
        ∀ other ≠ c.actor, g'.livingCards other = g.livingCards other) := by
  have hrest := h.atRest
  obtain ⟨hne, hsound, hsettles⟩ := hrest.press_challenge_cases hf hdata hpress haccepted
  obtain ⟨hpending, -⟩ := hsound.shape.of_reveal
  obtain ⟨p, hp⟩ : ∃ p, g.players[c.actor]? = some p := exists_player hpending.actor_lt
  have hx : x.AtRest := hrest.feed (i := .press seat data) hpress
  obtain ⟨choice, hchoice, hanswered⟩ := hsettles.runsThrough_of_reveal hsound rfl hp hx hrun hdone
  obtain ⟨venue, hverdict⟩ := hanswered.verdict hsound rfl hdone
  have hverdict : Verdict g c below seat choice g' := hverdict.congr hrest.still
  refine ⟨p, choice, hp, hchoice, hverdict, ?_, fun hproof => ?_, fun hproof => ?_⟩
  · cases hproof : p.proves (c.challengedBy seat) choice with
    | true => exact (hverdict.of_proves hne hp hproof).1
    | false => exact (hverdict.of_not_proves hp hproof).1
  · obtain ⟨-, hseat, hothers⟩ := hverdict.of_proves hne hp hproof
    exact ⟨hseat, hothers, (hrun.atRest hx).closedOn (hverdict.closed hp hproof)⟩
  · exact (hverdict.of_not_proves hp hproof).2

/-- Bob challenges a tax of Ada's. She reveals her duke, he gives up a card, and one card is lost.
-/
theorem challenge_arbitrated_proven_tax :
    ∃ g x g', playOut ["Ada", "Bob"]
        { seed := some 0, startPlayer := some 0, variant := some .classic }
        [.press 0 "tax"] = some g ∧ g.press 1 "challenge" = .ok x ∧ x ≠ g ∧
      RunsThrough (·.isArbitrating = true) x [.press 0 "reveal:1", .press 1 "lose:0"] g' ∧
      g'.isArbitrating = false ∧ g'.deadCards = g.deadCards + 1 := by
  have hrun : ((playOut ["Ada", "Bob"]
      { seed := some 0, startPlayer := some 0, variant := some .classic }
      [.press 0 "tax"]).bind fun g => (g.runThrough? (fun _ => true) [.press 1 "challenge"]).bind
        fun x => (x.runThrough? isArbitrating [.press 0 "reveal:1", .press 1 "lose:0"]).map
          fun g' => (g.stack.top?.map (·.isOpen), g.isArbitrating, x.isArbitrating,
            g'.isArbitrating)) = some (some true, false, true, false) := by
    decide +kernel
  obtain ⟨g, hg, hrun⟩ := Option.bind_eq_some_iff.1 hrun
  obtain ⟨x, hx, hrun⟩ := Option.bind_eq_some_iff.1 hrun
  obtain ⟨g', hg', hrun⟩ := Option.map_eq_some_iff.1 hrun
  obtain ⟨htop, hrun⟩ := Prod.mk.inj hrun
  obtain ⟨hcalm, hrun⟩ := Prod.mk.inj hrun
  obtain ⟨hasked, hdone⟩ := Prod.mk.inj hrun
  have hpress : g.press 1 "challenge" = .ok x := by
    cases runsThrough_of_runThrough? hx with
    | next _ hfeed hrest =>
      cases hrest
      exact hfeed
  have haccepted : x ≠ g := by
    rintro rfl
    cases hcalm.symm.trans hasked
  have hruns := runsThrough_of_runThrough? hg'
  obtain ⟨c, below, hf⟩ : ∃ c below, g.stack.frames = .claim c :: below := by
    obtain ⟨f, hf, hopen⟩ := Option.map_eq_some_iff.1 htop
    obtain ⟨below, hf⟩ := List.head?_eq_some_iff.1 hf
    cases f with
    | claim c => exact ⟨c, below, hf⟩
    | _ => cases hopen
  have hdata : Move.parse? "challenge" = some .challenge := by decide
  obtain ⟨p, choice, -, -, -, hdead, -⟩ :=
    (reachable_of_playOut hg).challenge_arbitrated hf hdata hpress haccepted hruns hdone
  exact ⟨g, x, g', hg, hpress, haccepted, hruns, hdone, hdead⟩

end CoupTable.Game
