import CoupTable.Proofs.Runs

/-!
# What follows a loss

Once a loss is off the stack, frames go on by themselves until one needs somebody. The turn passes
on, or the table is asked about a claim again, or the claim goes through, since nobody is left who
could oppose it. In none of these ways another card is lost: an assassination whose target is alive
is not among the claims that nobody could oppose.
-/

namespace CoupTable

/-- Whether the frame takes no card and is not about a claim. -/
def Frame.isCalm : Frame → Bool
  | turn | exchange _ | interrogation _ => true
  | variantChoice | loss _ | claim _ | reveal _ => false

namespace Game

variable {g g' : Game} {c : Claim} {f : Frame} {below : List Frame}

/-- Whether a challenge waits for its answer, or somebody has to lose a card. -/
def isArbitrating (g : Game) : Bool :=
  match g.stack.top? with
  | some (.reveal _) | some (.loss _) => true
  | _ => false

/-- With a calm frame on top nobody has to answer and nobody has to lose a card. -/
theorem isArbitrating_of_isCalm (hf : g.stack.frames = f :: below) (hcalm : f.isCalm = true) :
    g.isArbitrating = false := by
  rw [isArbitrating, Stack.top?, hf, List.head?_cons]
  cases f <;> first | rfl | cases hcalm

/-! ## Calm frames -/

/-- What stays as it is while calm frames go on by themselves. -/
structure Calm (g g' : Game) : Prop where
  /-- Nobody's cards or coins change. -/
  players : g'.players = g.players
  /-- Nor does the treasury. -/
  treasury : g'.treasury = g.treasury
  /-- Nor does the draw pile. -/
  deck : g'.deck = g.deck
  /-- A calm frame is on top of the same frames. -/
  top : ∃ f, g'.stack.frames = f :: g.stack.frames.tail ∧ f.isCalm = true
  /-- If that was the turn, the stack stays. -/
  turn : ∀ below, g.stack.frames = .turn :: below → g'.stack.frames = g.stack.frames

/-- A calm frame that goes on leaves everything as it is, and nothing stirs after it. -/
theorem Step.calm (hstep : Step g .idle g') (hstill : g.stirred = false)
    (hf : g.stack.frames = f :: below) (hcalm : f.isCalm = true) :
    g.Calm g' ∧ g'.stirred = false := by
  have htop : ∀ {f' below'}, g.stack.frames = f' :: below' → f'.isCalm = true := by
    intro f' below' hf'
    rw [hf] at hf'
    cases hf'
    exact hcalm
  cases hstep with
  | pass hf' | finish hf' =>
    exact ⟨⟨rfl, rfl, rfl, ⟨_, by rw [hf']; rfl, rfl⟩, fun _ _ => rfl⟩, hstill⟩
  | showOnly hf' =>
    refine ⟨⟨rfl, rfl, rfl, ⟨_, by rw [hf']; rfl, rfl⟩, fun below hturn => ?_⟩, hstill⟩
    rw [hf'] at hturn
    cases hturn
  | askSomebody hf' =>
    exact ⟨⟨rfl, rfl, rfl, ⟨_, by rw [hf']; rfl, htop hf'⟩, fun _ _ => rfl⟩, hstill⟩
  | unopposed hf' | ask hf' | answerLast hf' | dropDead hf' | loseAll hf' => cases htop hf'

/-- A game with a calm frame on top settles without anything of note. -/
theorem Settles.calm (hsettles : Settles g g') (h : g.Sound) (hf : g.stack.frames = f :: below)
    (hcalm : f.isCalm = true) : g.Calm g' := by
  obtain ⟨-, rfl⟩ | ⟨-, g₁, hidled, -, hsettles⟩ := hsettles.split h
  · exact ⟨rfl, rfl, rfl, ⟨f, by rw [hf]; rfl, hcalm⟩, fun _ _ => rfl⟩
  · obtain ⟨hcalm', hstill⟩ := hidled.step.calm rfl hf hcalm
    cases hsettles.eq_of_still hstill
    exact { hcalm' with }

/-! ## Claims -/

/-- Nobody could oppose a claim that is accepted before anybody has said so. -/
theorem quorum_eq_nil (h : g.isAccepted { c with accepted := ∅ } = true) : g.quorum c = [] := by
  have hall : (g.quorum c).all (fun _ => false) = true := by
    simpa [isAccepted, quorum, canOppose, canBlock] using h
  rw [List.all_eq_true] at hall
  exact List.eq_nil_iff_forall_not_mem.2 fun seat hseat => Bool.false_ne_true (hall seat hseat)

/-- A game with a claim on top settles by asking the table again, or the claim goes through, since
nobody could oppose it. -/
theorem Settles.of_claim (hsettles : Settles g g') (h : g.Sound) (hstirred : g.stirred = true)
    (hf : g.stack.frames = .claim c :: below) :
    (∃ venue alarm, g' = { g with
      venue
      stack := ⟨.claim { c with accepted := ∅, alarm := some alarm } :: below⟩
      stirred := false }) ∨
    (g.quorum c = [] ∧ ∃ g₁,
      Grant (lifted { g with stirred := false } c below) c.actor c.effect g₁ ∧ g₁.Sound ∧
        Settles g₁ g') := by
  obtain ⟨hstill, -⟩ | ⟨-, g₁, hidled, hsound, hsettles⟩ := hsettles.split h
  · cases hstill.symm.trans hstirred
  · have hstep := hidled.step
    cases hstep with
    | unopposed hf' ha hgrant =>
      rw [hf] at hf'
      cases hf'
      -- The claim is accepted though nobody has said so: nobody could oppose it.
      exact .inr ⟨quorum_eq_nil (c := c) ha, g₁, hgrant, hsound, hsettles⟩
    | ask hf' =>
      rw [hf] at hf'
      cases hf'
      -- Once the table is asked, nothing stirs.
      cases hsettles.eq_of_still rfl
      exact .inl ⟨_, _, rfl⟩
    | askSomebody hf' _ hclaim =>
      rw [hf] at hf'
      cases hf'
      exact absurd rfl (hclaim c)
    | pass hf' | finish hf' | answerLast hf' | dropDead hf' | loseAll hf' | showOnly hf' =>
      rw [hf] at hf'
      cases hf'

/-- A claim that nobody could oppose takes no card when it goes through. -/
theorem Pending.calm_grant (h : g.Pending c below) (hquorum : g.quorum c = [])
    (hgrant : Grant (g.lifted c below) c.actor c.effect g') :
    ∃ f rest, g'.stack.frames = f :: rest ∧ f.isCalm = true := by
  generalize heffect : c.effect = effect at hgrant
  cases h with
  | own hc =>
    cases hgrant with
    | @assassinate p ms target hp ht =>
      -- the target could block
      have hvictim := hc.victim target (by rw [heffect]; rfl)
      have hmem : target ∈ g.quorum c := by
        have hblock : c.blockable = true := by rw [hc.fits.blockable, heffect]; rfl
        have htarget : c.target = some target := by rw [hc.fits.target, heffect]; rfl
        have hlives : g.isAlive target = true := ht
        simp [quorum, seats, canOppose, canBlock, hvictim, hlives, hblock, htarget]
      rw [hquorum] at hmem
      cases hmem
    | exchange | inspect => exact ⟨_, _, rfl, rfl⟩
    | block | blockKill => exact absurd heffect hc.ne_block
    | _ => exact ⟨_, _, rfl, rfl⟩
  | block hc halarm hb =>
    rw [hb.effect] at heffect
    subst heffect
    cases hgrant with
    | block hf | blockKill hf =>
      cases hf
      exact ⟨_, _, rfl, rfl⟩

end Game

end CoupTable
