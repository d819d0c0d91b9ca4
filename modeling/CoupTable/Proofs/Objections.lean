import CoupTable.Proofs.Choices
import CoupTable.Proofs.Faultless

/-!
# What the table is offered against a claim

A claim that waits was the last thing that the table was asked about (`Game.Consulted`), and nothing
that the question depends on has changed since. Its buttons are the moves that somebody can make
now, with one exception. A claim that is aimed at somebody, and that is put to the table again after
a block of it was caught, still offers a block and addresses the target, also where the target has
lost the last card by that block (`Game.HasDeadTarget`): who made the claim may be challenged, and
so the claim waits, but nobody can block it any more.
-/

namespace CoupTable

/-- The data of the buttons under a message. -/
def Message.offers (m : Message) : List String := m.buttons.map (·.data)

/-- A claim that somebody alone may block can be blocked. -/
theorem Effect.isBlockable_of_blocker? {effect : Effect} {seat : Nat}
    (h : effect.blocker? = some seat) : effect.isBlockable = true := by
  cases effect <;> first | rfl | cases h

/-- What anybody may block cannot be challenged. -/
theorem Effect.isChallengeable_of_blocker?_eq_none {effect : Effect}
    (h : effect.blocker? = none) (hblock : effect.isBlockable = true) :
    effect.isChallengeable = false := by
  cases effect with
  | foreignAid => rfl
  | assassinate | steal => cases h
  | tax | exchange | embezzle | inspect | block => cases hblock

namespace Game

variable {g g' : Game} {c : Claim} {below : List Frame} {cause : Cause} {seat : Nat}
  {data : String}

/-! ## The last question -/

/-- The question about a claim. -/
def claimPrompt (g : Game) (c : Claim) : Message := ⟨.everyone, g.claimText c, claimButtons c⟩

/-- The table was asked last of all about the claim that waits. -/
def Consulted (g : Game) : Prop :=
  ∀ c below, g.stack.frames = .claim c :: below →
    ∃ before, g.venue.outbox = g.claimPrompt c :: before

/-- A game without a claim on top has nothing to ask. -/
theorem Consulted.of_ne_claim (hf : ∀ c below, g.stack.frames ≠ .claim c :: below) : g.Consulted :=
  fun c below hclaim => absurd hclaim (hf c below)

/-- A press or an alarm that leaves nothing to stir leaves the question as it was. -/
theorem Step.consulted (h : g.AtRest) (hg : g.Consulted) (hstep : Step g cause g')
    (hcause : cause ≠ .idle) (hstill : g'.stirred = false) : g'.Consulted := by
  obtain ⟨v, ms, below, hf, hdeal⟩ | ⟨ms, below, hf, -, rfl⟩ | ⟨c, below, seat, hf, -, rfl⟩ :=
    hstep.of_still hcause hstill
  · obtain ⟨built, ms', -, rfl⟩ := h.of_deal hf hdeal
    refine .of_ne_claim fun c below hclaim => ?_
    cases hclaim
  · refine .of_ne_claim fun c below hclaim => ?_
    cases hf.symm.trans hclaim
  · -- The text and the buttons do not depend on who has accepted.
    intro c below hclaim
    cases hclaim
    obtain ⟨before, hout⟩ := hg _ _ hf
    exact ⟨before, hout⟩

/-- After every event the claim that waits is what the table was asked about last. -/
theorem Happening.consulted (h : g.AtRest) (hg : g.Consulted) (hevent : Happening g g') :
    g'.Consulted := by
  cases hevent with
  | clock hdue =>
    obtain ⟨a, rfl, -⟩ := Venue.eq_of_advance hdue
    exact hg
  | report => exact hg
  | step hstep hcause _ hsound hsettles =>
    intro c below hf'
    rcases hsettles.posts hsound hf' with rfl | hposts
    · exact hstep.consulted h hg hcause hsettles.still c below hf'
    · obtain ⟨ms, hout⟩ := hposts.prompt
      exact ⟨_, hout⟩

/-- In a reachable game the claim that waits is what the table was asked about last. -/
theorem Reachable.consulted (h : Reachable g) : g.Consulted := by
  refine h.induction (fun _ _ hg hconsulted hevent => hevent.consulted hg hconsulted)
    fun names s entropy g hrefusal hbegun => .of_ne_claim fun c below hf => ?_
  rcases (hbegun.rests hrefusal).2 with hf' | hf'
  · cases hf'.symm.trans hf
  · cases hf'.symm.trans hf

/-! ## Who can object -/

/-- The only player who may block the claim is dead. -/
def HasDeadTarget (g : Game) (c : Claim) : Prop :=
  ∃ target, c.target = some target ∧ g.isAlive target = false

/-- A claim whose target may block it can be blocked. -/
theorem Pending.blockable_of_target {target : Nat} (h : g.Pending c below)
    (htarget : c.target = some target) : c.blockable = true := by
  cases h with
  | own hc =>
    rw [hc.fits.blockable]
    exact Effect.isBlockable_of_blocker? (hc.fits.target.symm.trans htarget)
  | block _ _ hb => cases hb.target.symm.trans htarget

/-- A claim that waits for somebody, and that can be blocked, can be blocked by somebody who is
alive, unless its target is dead. -/
theorem Pending.exists_blocker (h : g.Pending c below) (hquorum : g.quorum c ≠ [])
    (hblock : c.blockable = true) (hdead : ¬ g.HasDeadTarget c) :
    ∃ seat, seat ≠ c.actor ∧ g.isAlive seat = true ∧ g.canBlock c seat = true := by
  cases h with
  | block _ _ hb => cases hb.not_blockable.symm.trans hblock
  | own hc =>
    cases htarget : c.target with
    | some target =>
      -- The target is another player.
      have hvictim := Effect.victim?_of_blocker? (hc.fits.target.symm.trans htarget)
      have hlives : g.isAlive target = true := by
        cases hlives : g.isAlive target with
        | true => rfl
        | false => exact absurd ⟨target, htarget, hlives⟩ hdead
      refine ⟨target, (hc.victim target hvictim).2, hlives, ?_⟩
      rw [canBlock, htarget]
      exact beq_self_eq_true target
    | none =>
      -- Nobody can challenge, and so whoever has to accept the claim can block it.
      have hclosed := Effect.isChallengeable_of_blocker?_eq_none
        (hc.fits.target.symm.trans htarget) (hc.fits.blockable.symm.trans hblock)
      obtain ⟨seat, hseat⟩ := List.exists_mem_of_ne_nil _ hquorum
      obtain ⟨hne, hlives, hopen | ⟨-, hcan⟩⟩ := mem_quorum.1 hseat
      · cases hclosed.symm.trans (hc.fits.challengeable hopen)
      · exact ⟨seat, hne, hlives, hcan⟩

/-- A claim that waits is before the table, with somebody who has to accept it. -/
theorem AtRest.pending (h : g.AtRest) (hf : g.stack.frames = .claim c :: below) :
    g.Pending c below ∧ g.quorum c ≠ [] := by
  cases h.shape_of hf with
  | asked hpending => exact ⟨hpending, h.quorum_ne_nil hf⟩

/-- What it takes to block a claim. -/
theorem block_mem_movesFor : (seat, Move.block) ∈ g.movesFor (.claim c) ↔
    seat ≠ c.actor ∧ g.isAlive seat = true ∧ c.blockable = true ∧ g.canBlock c seat = true := by
  rw [mem_movesFor_claim]
  simp

/-- Whoever may block a claim is its target, if it has one, and is alive. -/
theorem target_of_mem_moves {target : Nat} (hf : g.stack.frames = .claim c :: below)
    (hmem : (seat, Move.block) ∈ g.moves) (htarget : c.target = some target) :
    seat = target ∧ g.isAlive target = true := by
  obtain ⟨-, hlives, -, hcan⟩ := block_mem_movesFor.1 (mem_movesFor hmem hf)
  rw [canBlock, htarget] at hcan
  rw [← eq_of_beq hcan]
  exact ⟨rfl, hlives⟩

/-! ## The buttons -/

/-- The buttons under the question about a claim. -/
theorem mem_claimButtons : data ∈ (claimButtons c).map (·.data) ↔
    data = Move.accept.data ∨ (data = Move.challenge.data ∧ c.challengeable = true) ∨
      (data = Move.block.data ∧ c.blockable = true) := by
  unfold claimButtons
  cases c.challengeable <;> cases c.blockable <;> simp [or_comm, or_assoc]

/-- What can be done about a claim that waits: somebody may accept it, and challenge it if it can be
challenged, and block it if anybody can. -/
theorem AtRest.mem_moves_claim (h : g.AtRest) (hf : g.stack.frames = .claim c :: below) :
    data ∈ g.moves.map (·.2.data) ↔
      data = Move.accept.data ∨ (data = Move.challenge.data ∧ c.challengeable = true) ∨
        (data = Move.block.data ∧ ∃ seat, (seat, Move.block) ∈ g.moves) := by
  have hmoves := moves_eq (h.isOver_eq_false hf nofun) hf
  obtain ⟨other, hother⟩ := List.exists_mem_of_ne_nil _ (h.quorum_ne_nil hf)
  obtain ⟨hne, hlives, -⟩ := mem_quorum.1 hother
  rw [hmoves, List.mem_map]
  constructor
  · rintro ⟨⟨seat, m⟩, hmem, rfl⟩
    obtain ⟨-, -, rfl | ⟨rfl, hopen⟩ | ⟨rfl, -⟩⟩ := mem_movesFor_claim.1 hmem
    · exact .inl rfl
    · exact .inr (.inl ⟨rfl, hopen⟩)
    · exact .inr (.inr ⟨rfl, seat, hmem⟩)
  · rintro (rfl | ⟨rfl, hopen⟩ | ⟨rfl, seat, hmem⟩)
    · exact ⟨_, mem_movesFor_claim.2 ⟨hne, hlives, .inl rfl⟩, rfl⟩
    · exact ⟨_, mem_movesFor_claim.2 ⟨hne, hlives, .inr (.inl ⟨rfl, hopen⟩)⟩, rfl⟩
    · exact ⟨_, hmem, rfl⟩

/-- A claim that waits can be blocked, as its question says, if somebody can block it, or else if
its target is dead. -/
theorem AtRest.blockable_iff (h : g.AtRest) (hf : g.stack.frames = .claim c :: below) :
    c.blockable = true ↔ (∃ seat, (seat, Move.block) ∈ g.moves) ∨ g.HasDeadTarget c := by
  obtain ⟨hpending, hquorum⟩ := h.pending hf
  rw [moves_eq (h.isOver_eq_false hf nofun) hf]
  constructor
  · intro hblock
    by_cases hdead : g.HasDeadTarget c
    · exact .inr hdead
    · obtain ⟨seat, hne, hlives, hcan⟩ := hpending.exists_blocker hquorum hblock hdead
      exact .inl ⟨seat, block_mem_movesFor.2 ⟨hne, hlives, hblock, hcan⟩⟩
  · rintro (⟨seat, hmem⟩ | ⟨target, htarget, -⟩)
    · exact (block_mem_movesFor.1 hmem).2.2.1
    · exact hpending.blockable_of_target htarget

/-! ## The result -/

/-- What is offered against a claim. While a claim waits in a reachable game, the table was asked
last of all about it. The data of the buttons are those of the moves of all players, and that of a
block as well where the claim has a target who is dead: then nobody can block. The text asks for a
challenge or a block, and addresses the target, just where the button is there, and whoever can
block is the target, if there is one. -/
theorem Reachable.objections_offered (h : Reachable g)
    (hf : g.stack.frames = .claim c :: below) :
    ∃ prompt, g.venue.lastBroadcast? = some prompt ∧
      (∀ data, data ∈ prompt.offers ↔ data ∈ g.moves.map (·.2.data) ∨
        data = Move.block.data ∧ g.HasDeadTarget c) ∧
      (Move.block.data ∈ prompt.offers ↔
        (∃ seat, (seat, Move.block) ∈ g.moves) ∨ g.HasDeadTarget c) ∧
      prompt.text = c.message
        ++ (if Move.challenge.data ∈ prompt.offers then Wording.askChallenge else "")
        ++ (if Move.block.data ∈ prompt.offers then
            Wording.askBlock (decide (Move.challenge.data ∈ prompt.offers))
              (c.target.map g.nameOf) (g.isReformation && !g.isReunified)
              (g.cast.describe c.blockingClans)
          else "") ∧
      ∀ seat target, (seat, Move.block) ∈ g.moves → c.target = some target →
        seat = target ∧ g.isAlive target = true := by
  have hrest := h.atRest
  obtain ⟨before, hout⟩ := h.consulted c below hf
  have hoffers : ∀ data, data ∈ (g.claimPrompt c).offers ↔
      data = Move.accept.data ∨ (data = Move.challenge.data ∧ c.challengeable = true) ∨
        (data = Move.block.data ∧ c.blockable = true) := fun data => mem_claimButtons
  have hchallenge : Move.challenge.data ∈ (g.claimPrompt c).offers ↔ c.challengeable = true := by
    simp [hoffers, Move.data, Move.arg, Move.command]
  have hblock : Move.block.data ∈ (g.claimPrompt c).offers ↔ c.blockable = true := by
    simp [hoffers, Move.data, Move.arg, Move.command]
  refine ⟨g.claimPrompt c, ?_, fun data => ?_, ?_, ?_, fun seat target hmem htarget =>
    target_of_mem_moves hf hmem htarget⟩
  · rw [Venue.lastBroadcast?, hout]
    rfl
  · rw [hoffers, hrest.mem_moves_claim hf, hrest.blockable_iff hf, and_or_left, or_assoc, or_assoc]
  · rw [hblock, hrest.blockable_iff hf]
  · change g.claimText c = _
    simp only [hchallenge, hblock, Bool.decide_eq_true]
    rfl

/-- Ada steals from Bob, who may block. -/
theorem objections_offered_steal : ∃ g prompt,
    playOut ["Ada", "Bob", "Cid"]
        { seed := some 0, startPlayer := some 0, variant := some .classic }
        [.press 0 "steal:1"] = some g ∧
      g.venue.lastBroadcast? = some prompt ∧ (1, Move.block) ∈ g.moves ∧
      Move.block.data ∈ prompt.offers ∧
      ∀ data, data ∈ prompt.offers ↔ data ∈ g.moves.map (·.2.data) := by
  have hrun : (playOut ["Ada", "Bob", "Cid"]
      { seed := some 0, startPlayer := some 0, variant := some .classic }
      [.press 0 "steal:1"]).map (fun g =>
        (g.stack.frames, g.isAlive 1, decide ((1, Move.block) ∈ g.moves)))
      = some ([.claim { Claim.opening 0 (Wording.steal "Ada" "Bob") (.steal 1) with
          alarm := some 0 }, .turn], true, true) := by
    decide +kernel
  obtain ⟨g, hg, hrun⟩ := Option.map_eq_some_iff.1 hrun
  simp only [Prod.mk.injEq] at hrun
  obtain ⟨hf, hlives, hmem⟩ := hrun
  have hmem := of_decide_eq_true hmem
  obtain ⟨prompt, hprompt, hoffers, hblock, -⟩ := (reachable_of_playOut hg).objections_offered hf
  refine ⟨g, prompt, hg, hprompt, hmem, hblock.2 (.inl ⟨1, hmem⟩), fun data => ?_⟩
  rw [hoffers, or_iff_left]
  rintro ⟨-, target, htarget, hdead⟩
  cases htarget
  cases hlives.symm.trans hdead

/-- Cid steals from Bob, whose last card falls when his block is caught. The table is asked again,
and Bob whether he blocks, though he is dead and nobody can block. -/
theorem block_offered_to_dead : ∃ g prompt,
    playOut ["Ada", "Bob", "Cid"]
        { seed := some 1, startPlayer := some 1, variant := some .classic,
          cardOverrides := [.assassin, .assassin, .contessa, .contessa] }
        [.press 1 "tax", .press 0 "challenge", .press 1 "reveal:0", .press 2 "steal:1",
          .press 1 "block", .press 2 "challenge"] = some g ∧
      Reachable g ∧ g.claim? ≠ none ∧ g.isAlive 1 = false ∧
      g.venue.lastBroadcast? = some prompt ∧
      prompt.text = Wording.steal "Cid" "Bob" ++ Wording.askChallenge
        ++ Wording.askBlock true (some "Bob") false "the captain or the ambassador" ∧
      prompt.offers = ["challenge", "block", "accept"] ∧
      g.moves.map (·.2.data) = ["accept", "challenge"] := by
  have hrun : ((playOut ["Ada", "Bob", "Cid"]
      { seed := some 1, startPlayer := some 1, variant := some .classic,
        cardOverrides := [.assassin, .assassin, .contessa, .contessa] }
      [.press 1 "tax", .press 0 "challenge", .press 1 "reveal:0", .press 2 "steal:1",
        .press 1 "block", .press 2 "challenge"]).bind fun g =>
          g.venue.lastBroadcast?.map fun prompt =>
            (g.claim?.isSome, g.isAlive 1, prompt.text, prompt.offers, g.moves.map (·.2.data)))
      = some (true, false, Wording.steal "Cid" "Bob" ++ Wording.askChallenge
        ++ Wording.askBlock true (some "Bob") false "the captain or the ambassador",
        ["challenge", "block", "accept"], ["accept", "challenge"]) := by
    decide +kernel
  obtain ⟨g, hg, hrun⟩ := Option.bind_eq_some_iff.1 hrun
  obtain ⟨prompt, hprompt, hrun⟩ := Option.map_eq_some_iff.1 hrun
  simp only [Prod.mk.injEq] at hrun
  obtain ⟨hclaim, hdead, htext, hoffers, hmoves⟩ := hrun
  exact ⟨g, prompt, hg, reachable_of_playOut hg, Option.isSome_iff_ne_none.1 hclaim, hdead,
    hprompt, htext, hoffers, hmoves⟩

end Game

end CoupTable
