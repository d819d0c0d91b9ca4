import CoupTable.Proofs.Runs

/-!
# Claims stay closed to challenges

A claim that can be challenged comes onto the stack by a press alone, and then lies on top of all
other frames. None of the claims that are there already is opened to challenges again: as long as
some claim lies on certain frames without a break, and could not be challenged at first, it cannot
be challenged later.
-/

namespace CoupTable

/-- Whether the frame is a claim that can be challenged. -/
def Frame.isOpen : Frame → Bool
  | claim c => c.challengeable
  | turn | variantChoice | loss _ | reveal _ | exchange _ | interrogation _ => false

namespace Game

variable {g g' : Game} {cause : Cause} {c : Claim} {r : Reveal} {choice seat : Nat}
  {effect : Effect} {i : Input} {inputs : List Input} {frames below : List Frame}

/-- What lies below each of the claims among some frames that can be challenged. -/
def openTails : List Frame → List (List Frame)
  | [] => []
  | f :: rest => if f.isOpen then rest :: openTails rest else openTails rest

/-- A frame on top adds what lies below it if it is a claim that can be challenged. -/
theorem mem_openTails_cons {f : Frame} : below ∈ openTails (f :: frames) ↔
    (f.isOpen = true ∧ below = frames) ∨ below ∈ openTails frames := by
  rw [openTails]
  cases f.isOpen <;> simp

/-- What lies below a claim lies below it under another frame, too. -/
theorem openTails_subset_cons (f : Frame) (frames : List Frame) :
    openTails frames ⊆ openTails (f :: frames) :=
  fun _ hmem => mem_openTails_cons.2 (.inr hmem)

/-- A claim that can be challenged lies among some frames on top of those below it. -/
theorem mem_openTails : below ∈ openTails frames ↔
    ∃ upper c, frames = upper ++ .claim c :: below ∧ c.challengeable = true := by
  induction frames with
  | nil => simp [openTails]
  | cons f rest ih =>
    rw [mem_openTails_cons, ih]
    constructor
    · rintro (⟨hopen, rfl⟩ | ⟨upper, c, rfl, hc⟩)
      · cases f with
        | claim c => exact ⟨[], c, rfl, hopen⟩
        | _ => cases hopen
      · exact ⟨f :: upper, c, rfl, hc⟩
    · rintro ⟨_ | ⟨f', upper⟩, c, hframes, hc⟩
      · cases hframes
        exact .inl ⟨hc, rfl⟩
      · cases hframes
        exact .inr ⟨upper, c, rfl, hc⟩

/-! ## Steps -/

/-- What goes through opens no claim. -/
theorem Grant.openTails_subset (h : Grant g seat effect g') :
    openTails g'.stack.frames ⊆ openTails g.stack.frames := by
  cases h with
  | assassinate | exchange | inspect => simp [openTails, Frame.isOpen]
  | block hf | blockKill hf =>
    rw [hf]
    exact openTails_subset_cons _ _
  | _ => exact List.Subset.refl _

/-- An answer to a challenge opens no claim. -/
theorem Answer.openTails_subset (h : Answer g r c below choice g')
    (hf : g.stack.frames = .reveal r :: .claim c :: below) :
    openTails g'.stack.frames ⊆ openTails g.stack.frames := by
  have hbelow : openTails below ⊆ openTails g.stack.frames := by
    rw [hf]
    exact List.Subset.trans (openTails_subset_cons _ _) (openTails_subset_cons _ _)
  cases h with
  | proven | shown | conceded => simpa [openTails, Frame.isOpen] using hbelow
  | caught => exact hbelow

/-- A step opens no claim, but for one that a press puts on top of all frames. -/
theorem Step.mem_openTails (h : g.Sound) (hstep : Step g cause g')
    (hmem : below ∈ openTails g'.stack.frames) : below ∈ openTails g.stack.frames ∨
      (g.stack.frames.length ≤ below.length ∧ ∃ seat m, cause = .press seat m) := by
  cases hstep with
  | @deal v ms rest seat index g' hf _ hdeal =>
    obtain ⟨built, ms', -, rfl⟩ := h.of_deal hf hdeal
    cases hmem
  | claim =>
    -- The claim is open on top of what was there, and the other tails were open before.
    obtain ⟨-, rfl⟩ | hmem := mem_openTails_cons.1 hmem
    · exact .inr ⟨Nat.le_refl _, _, _, rfl⟩
    · exact .inl hmem
  | acceptLast hf _ hgrant | unopposed hf _ hgrant | timeOut hf _ hgrant =>
    rw [hf]
    exact .inl (openTails_subset_cons _ _ (hgrant.openTails_subset hmem))
  | accept hf | ask hf | challenge hf =>
    rw [hf]
    exact .inl hmem
  | block hf =>
    rw [hf]
    obtain ⟨-, rfl⟩ | hmem := mem_openTails_cons.1 hmem
    · exact .inr ⟨Nat.le_refl _, _, _, rfl⟩
    · exact .inl hmem
  | answer hf hanswer | answerLast hf _ _ _ hanswer =>
    exact .inl (hanswer.openTails_subset hf hmem)
  | dropDead hf =>
    rw [hf]
    exact .inl (openTails_subset_cons _ _ (openTails_subset_cons _ _ hmem))
  | coup hf => exact .inl hmem
  | lose hf | loseAll hf | keepLast hf | allow hf | change hf =>
    rw [hf]
    exact .inl hmem
  | keep hf | showCard hf | showOnly hf =>
    rw [hf]
    exact .inl hmem
  | income | convert | askTarget | pass | finish | askSomebody => exact .inl hmem

/-! ## Runs -/

/-- Frames that go on by themselves open no claim. -/
theorem Settles.openTails_subset (hsettles : Settles g g') (h : g.Sound) :
    openTails g'.stack.frames ⊆ openTails g.stack.frames := by
  induction hsettles with
  | rest => exact List.Subset.refl _
  | @go g g₁ g' hstirred hidle _ ih =>
    obtain ⟨hidled, hsound⟩ := h.idled hstirred hidle
    intro below hmem
    obtain hmem | ⟨-, seat, m, hcause⟩ := hidled.step.mem_openTails h.hush (ih hsound hmem)
    · exact hmem
    · cases hcause

/-- An alarm opens no claim. -/
theorem expire_openTails_subset (h : g.AtRest) {id : AlarmId} (hexpire : g.expire id = .ok g') :
    openTails g'.stack.frames ⊆ openTails g.stack.frames := by
  obtain ⟨-, rfl⟩ | rfl | ⟨g₁, hstep, hsound, hsettles⟩ := expire_cases h hexpire
  · exact List.Subset.refl _
  · exact List.Subset.refl _
  · intro below hmem
    obtain hmem | ⟨-, seat, m, hcause⟩ :=
      hstep.mem_openTails h.toSound (hsettles.openTails_subset hsound hmem)
    · exact hmem
    · cases hcause

/-- The passing of time opens no claim. -/
theorem advanceIn_openTails_subset (h : g.AtRest) {fuel time : Nat}
    (hadvance : advanceIn fuel time g = .ok g') :
    openTails g'.stack.frames ⊆ openTails g.stack.frames :=
  advanceIn_induction (P := fun g' => openTails g'.stack.frames ⊆ openTails g.stack.frames)
    (fun _ _ _ _ hsubset _ => hsubset)
    (fun _ _ _ hrest hsubset hexpire =>
      List.Subset.trans (expire_openTails_subset hrest hexpire) hsubset)
    h (List.Subset.refl _) hadvance

/-- An input opens no claim, but for one that it puts on top of all frames. -/
theorem AtRest.mem_openTails_of_feed (h : g.AtRest) (hfeed : g.feed i = .ok g')
    (hmem : below ∈ openTails g'.stack.frames) :
    below ∈ openTails g.stack.frames ∨ g.stack.frames.length ≤ below.length := by
  cases i with
  | press seat data =>
    obtain ⟨rfl, -⟩ | ⟨m, g₁, -, -, -, hstep, hsound, hsettles⟩ := press_cases h hfeed
    · exact .inl hmem
    · obtain hmem | ⟨hle, -⟩ :=
        hstep.mem_openTails h.toSound (hsettles.openTails_subset hsound hmem)
      · exact .inl hmem
      · exact .inr hle
  | expire id => exact .inl (expire_openTails_subset h hfeed hmem)
  | advance time => exact .inl (advanceIn_openTails_subset h hfeed hmem)

/-- A claim lies on certain frames. -/
def HasClaimOn (below : List Frame) (g : Game) : Prop :=
  ∃ upper c, g.stack.frames = upper ++ .claim c :: below

/-- As long as a claim lies on certain frames without a break, and could not be challenged at first,
it cannot be challenged later. -/
theorem RunsThrough.closed (hrun : RunsThrough (HasClaimOn below) g inputs g') (h : g.AtRest)
    (hclosed : below ∉ openTails g.stack.frames) : below ∉ openTails g'.stack.frames := by
  induction hrun with
  | done => exact hclosed
  | next hclaim hfeed _ ih =>
    refine ih (h.feed hfeed) fun hmem => ?_
    obtain hmem | hle := h.mem_openTails_of_feed hfeed hmem
    · exact hclosed hmem
    · -- the claim lies higher than anything below it
      obtain ⟨upper, c, hframes⟩ := hclaim
      rw [hframes, List.length_append, List.length_cons] at hle
      omega

end Game

end CoupTable
