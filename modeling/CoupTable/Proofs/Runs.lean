import CoupTable.Proofs.Reaching

/-!
# Runs of inputs

What comes of one input in terms of steps: a press that is not ignored is a step after which frames
go on by themselves, and unless a claim waits for its alarm, the passing of time touches the venue
alone. `RunsThrough` is a run of inputs all of whose games have some property, up to the last one,
which need not.
-/

namespace CoupTable.Game

variable {g g' g₁ : Game} {P : Game → Prop} {cause : Cause} {i : Input} {inputs : List Input}
  {seat : Nat} {data : String} {id : AlarmId} {f : Frame} {below : List Frame}

/-! ## Settling, step by step -/

/-- A game settles by doing nothing, or by the frame on top going on first. -/
theorem Settles.split (hsettles : Settles g g') (h : g.Sound) :
    (g.stirred = false ∧ g' = g) ∨ (g.stirred = true ∧
      ∃ g₁, Idled { g with stirred := false } g₁ ∧ g₁.Sound ∧ Settles g₁ g') := by
  cases hsettles with
  | rest hstill => exact .inl ⟨hstill, rfl⟩
  | @go _ g₁ _ hstirred hidle hsettles =>
    obtain ⟨hidled, hsound⟩ := h.idled hstirred hidle
    exact .inr ⟨hstirred, g₁, hidled, hsound, hsettles⟩

/-- A game in which nothing stirs has settled. -/
theorem Settles.eq_of_still (hsettles : Settles g g') (hstill : g.stirred = false) : g' = g := by
  cases hsettles with
  | rest => rfl
  | go hstirred => cases hstill.symm.trans hstirred

/-- Settling ends with nothing stirring. -/
theorem Settles.still (hsettles : Settles g g') : g'.stirred = false := by
  induction hsettles with
  | rest hstill => exact hstill
  | go _ _ _ ih => exact ih

/-! ## Single inputs -/

/-- What an input leads to from rest is at rest. -/
theorem AtRest.feed (h : g.AtRest) (hfeed : g.feed i = .ok g') : g'.AtRest := by
  have hrests := feed_rests h i
  rw [hfeed] at hrests
  exact hrests

/-- The only fault that an input meets from rest is the end of the clock. -/
theorem AtRest.eq_clockOverflow {fault : Fault} (h : g.AtRest) (hfeed : g.feed i = .error fault) :
    fault = .clockOverflow := by
  have hrests := feed_rests h i
  rw [hfeed] at hrests
  exact hrests.1

/-- A step from rest leads to a sound game, which settles where its settling ends. -/
theorem Step.settles (h : g.AtRest) (hover : g.isOver = false) (hstep : Step g cause g₁)
    (hsettle : g₁.settle = .ok g') : g₁.Sound ∧ Settles g₁ g' := by
  have hrests := hstep.settle_rests h hover
  rw [hsettle] at hrests
  exact ⟨hstep.sound h.toSound h.still hover, hrests.2.2⟩

/-- What comes of a press: it is ignored, or the frame on top takes a step and the game settles. -/
theorem press_cases (h : g.AtRest) (hpress : g.press seat data = .ok g') :
    (g' = g ∧ ∀ m, Move.parse? data = some m → seat < g.players.length → g.isOver = false →
      g.dispatch seat m = .ok g) ∨
    ∃ m g₁, Move.parse? data = some m ∧ g.isOver = false ∧ g.dispatch seat m = .ok g₁ ∧
      Step g (.press seat m) g₁ ∧ g₁.Sound ∧ Settles g₁ g' := by
  obtain ⟨hstay, hignored⟩ | ⟨m, g₁, hparse, hover, hdispatch, hstep, hsettle⟩ :=
    press_outcome h seat data
  · cases hstay.symm.trans hpress
    exact .inl ⟨rfl, hignored⟩
  · have hsettles := hstep.settles h hover (hsettle.symm.trans hpress)
    exact .inr ⟨m, g₁, hparse, hover, hdispatch, hstep, hsettles⟩

/-- What comes of an alarm: the end is reported, or nothing happens, or the claim on top goes
through and the game settles. -/
theorem expire_cases (h : g.AtRest) (hexpire : g.expire id = .ok g') :
    (g.overAlarm = some id ∧ g' = { g with overAlarm := none, venue := g.venue.reportOver }) ∨
    g' = g ∨ ∃ g₁, Step g (.alarm id) g₁ ∧ g₁.Sound ∧ Settles g₁ g' := by
  obtain ⟨halarm, hreport⟩ | hstay | ⟨g₁, hover, hstep, hsettle⟩ := expire_outcome h id
  · exact .inl ⟨halarm, Except.ok.inj (hexpire.symm.trans hreport)⟩
  · exact .inr (.inl (Except.ok.inj (hexpire.symm.trans hstay)))
  · exact .inr (.inr ⟨g₁, hstep, hstep.settles h hover (hsettle.symm.trans hexpire)⟩)

section Due

variable {J : Game → List AlarmId → Prop}
  (hexpire : ∀ g g' id due, g.AtRest → J g (id :: due) → g.expire id = .ok g' → J g' due)
include hexpire

/-- What is known of a game and the alarms that are due, and is kept as the first of them goes off,
is known once all of them have. -/
theorem AtRest.expireAll_due {due : List AlarmId} (h : g.AtRest) (hg : J g due)
    (hall : due.foldlM (fun g id => g.expire id) g = .ok g') : g'.AtRest ∧ J g' [] := by
  induction due generalizing g with
  | nil =>
    cases hall
    exact ⟨h, hg⟩
  | cons id due ih =>
    rw [List.foldlM_cons] at hall
    obtain ⟨g₁, hid, hall⟩ := exists_ok_of_bind hall
    exact ih (h.feed (i := .expire id) hid) (hexpire g g₁ id due h hg hid) hall

variable (hvenue : ∀ g time due venue, J g [] → g.venue.advance time = .ok (due, venue) →
  J { g with venue } due)
include hvenue

/-- What is known of a game without alarms that are due, is kept as the clock moves on and hands
them out, and is kept as each goes off, outlasts the passing of time. -/
theorem AtRest.advanceIn_due {fuel time : Nat} (h : g.AtRest) (hg : J g [])
    (hadvance : advanceIn fuel time g = .ok g') : J g' [] := by
  induction fuel generalizing g time with
  | zero =>
    cases hadvance
    exact hg
  | succ fuel ih =>
    unfold advanceIn at hadvance
    obtain ⟨⟨due, venue⟩, hdue, hadvance⟩ := exists_ok_of_bind hadvance
    have hlater := hvenue g time due venue hg hdue
    dsimp only at hadvance
    split at hadvance
    next hnone =>
      cases hadvance
      rwa [List.isEmpty_iff.1 hnone] at hlater
    next =>
      -- The alarms that are due go off one by one, and what they have set may be due as well.
      obtain ⟨g₁, hall, hadvance⟩ := exists_ok_of_bind hadvance
      obtain ⟨hrest, hg₁⟩ := (h.of_venue venue).expireAll_due hexpire hlater hall
      exact ih hrest hg₁ hadvance

/-- What new games have, presses keep, and is kept as the clock hands out alarms and as each goes
off, all reachable games have. -/
theorem Reachable.due_induction
    (hstart : ∀ names s entropy g, start names s entropy = .ok g → J g [])
    (hpress : ∀ g g' seat data, g.AtRest → J g [] → g.press seat data = .ok g' → J g' [])
    (hspurious : ∀ g id, J g [] → J g [id]) (h : Reachable g) : J g [] := by
  induction h with
  | started h => exact hstart _ _ _ _ h
  | @fed g g' i hg hfeed ih =>
    have hrest := hg.atRest
    cases i with
    | press seat data => exact hpress g g' seat data hrest ih hfeed
    | expire id => exact hexpire g g' id [] hrest (hspurious g id ih) hfeed
    | advance time => exact hrest.advanceIn_due hexpire hvenue ih hfeed

end Due

section Passing

variable (hvenue : ∀ g time due venue, P g → g.venue.advance time = .ok (due, venue) →
    P { g with venue })
  (hexpire : ∀ g g' id, g.AtRest → P g → g.expire id = .ok g' → P g')
include hexpire

/-- What outlasts each alarm outlasts several of them. -/
theorem expireAll_induction {due : List AlarmId} (h : g.AtRest) (hg : P g)
    (hall : due.foldlM (fun g id => g.expire id) g = .ok g') : g'.AtRest ∧ P g' :=
  h.expireAll_due (J := fun g _ => P g) (fun g g' id _ => hexpire g g' id) hg hall

include hvenue

/-- What outlasts the clock moving on and each alarm outlasts the passing of time. -/
theorem advanceIn_induction {fuel time : Nat} (h : g.AtRest) (hg : P g)
    (hadvance : advanceIn fuel time g = .ok g') : P g' :=
  h.advanceIn_due (J := fun g _ => P g) (fun g g' id _ => hexpire g g' id) hvenue hg hadvance

end Passing

/-- The table waits for objections as long as before, whatever comes in. -/
theorem AtRest.waitTime_of_feed (h : g.AtRest) (hfeed : g.feed i = .ok g') :
    g'.waitTime = g.waitTime := by
  have hexpired : ∀ (x x' : Game) (id : AlarmId), x.AtRest → x.expire id = .ok x' →
      x'.waitTime = x.waitTime := by
    intro x x' id hx hexpire
    have hrests := expire_rests hx id
    rw [hexpire] at hrests
    exact hrests.2.waitTime
  cases i with
  | press seat data =>
    have hrests := press_rests h seat data
    rw [show g.press seat data = .ok g' from hfeed] at hrests
    exact hrests.2.waitTime
  | expire id => exact hexpired g g' id h hfeed
  | advance time =>
    refine advanceIn_induction (P := fun x => x.waitTime = g.waitTime) ?_ ?_ h rfl hfeed
    · exact fun _ _ _ _ hx _ => hx
    · exact fun x x' id hrest hx hexpire => (hexpired x x' id hrest hexpire).trans hx

/-- An alarm is ignored as long as no end is to be reported and no claim waits for it. -/
theorem expire_eq_of_top (h : g.AtRest) (hf : g.stack.frames = f :: below) (hne : f ≠ .turn)
    (hclaim : ∀ c, f ≠ .claim c) (id : AlarmId) : g.expire id = .ok g := by
  obtain ⟨halarm, -⟩ | hstay | ⟨g₁, -, hstep, -⟩ := expire_outcome h id
  · have hover := h.overAlarm (halarm ▸ nofun)
    cases (h.isOver_eq_false hf hne).symm.trans hover
  · exact hstay
  · cases hstep with
    | timeOut hf' => exact absurd (List.cons.inj (hf.symm.trans hf')).1 (hclaim _)

/-- What comes of an input while the frame on top is not the turn and not a claim: nothing but time
passes, and a press is ignored, or the frame takes in a press and the game settles. -/
theorem feed_cases (h : g.AtRest) (hf : g.stack.frames = f :: below) (hne : f ≠ .turn)
    (hclaim : ∀ c, f ≠ .claim c) (hfeed : g.feed i = .ok g') :
    ((∃ venue, g' = { g with venue }) ∧ ∀ seat data m, i = .press seat data →
      Move.parse? data = some m → seat < g.players.length → g.dispatch seat m = .ok g) ∨
    ∃ seat data m g₁, i = .press seat data ∧ Move.parse? data = some m ∧
      g.dispatch seat m = .ok g₁ ∧ Step g (.press seat m) g₁ ∧ g₁.Sound ∧ Settles g₁ g' := by
  have hover := h.isOver_eq_false hf hne
  cases i with
  | press seat data =>
    obtain ⟨hstay, hignored⟩ | ⟨m, g₁, hparse, -, hdispatch, hstep, hsound, hsettles⟩ :=
      press_cases h hfeed
    · subst hstay
      refine .inl ⟨⟨_, rfl⟩, fun seat' data' m hpress hparse hseat => ?_⟩
      cases hpress
      exact hignored m hparse hseat hover
    · exact .inr ⟨seat, data, m, g₁, rfl, hparse, hdispatch, hstep, hsound, hsettles⟩
  | expire id =>
    cases (expire_eq_of_top h hf hne hclaim id).symm.trans hfeed
    exact .inl ⟨⟨_, rfl⟩, nofun⟩
  | advance time =>
    refine .inl ⟨advanceIn_induction (P := fun g' => ∃ venue, g' = { g with venue }) ?_ ?_ h
      ⟨_, rfl⟩ hfeed, nofun⟩
    · rintro _ _ _ venue ⟨_, rfl⟩ -
      exact ⟨venue, rfl⟩
    · rintro _ g' id hrest ⟨venue, rfl⟩ hexpire
      cases (expire_eq_of_top hrest hf hne hclaim id).symm.trans hexpire
      exact ⟨venue, rfl⟩

/-! ## Runs -/

/-- The inputs lead from one game to another, and all games on the way have the property `P`. So has
the first one, unless there are no inputs, but the last one need not. -/
inductive RunsThrough (P : Game → Prop) : Game → List Input → Game → Prop where
  /-- Nothing comes in. -/
  | done {g : Game} : RunsThrough P g [] g
  /-- One input comes in before the others. -/
  | next {g g₁ g' : Game} {i : Input} {inputs : List Input} (hp : P g) (hfeed : g.feed i = .ok g₁)
      (h : RunsThrough P g₁ inputs g') : RunsThrough P g (i :: inputs) g'

namespace RunsThrough

/-- A run stops where the property fails. -/
theorem eq_of_not (h : RunsThrough P g inputs g') (hp : ¬ P g) : g' = g := by
  cases h with
  | done => rfl
  | next hp' => exact absurd hp' hp

/-- A run leads from rest to rest. -/
theorem atRest (hrun : RunsThrough P g inputs g') (h : g.AtRest) : g'.AtRest := by
  induction hrun with
  | done => exact h
  | next _ hfeed _ ih => exact ih (h.feed hfeed)

end RunsThrough

/-- Inputs that are met with no fault are a run. -/
theorem runsThrough_of_feedAll (hrun : g.feedAll inputs = .ok g') :
    RunsThrough (fun _ => True) g inputs g' := by
  induction inputs generalizing g with
  | nil =>
    cases hrun
    exact .done
  | cons i inputs ih =>
    rw [feedAll_cons] at hrun
    obtain ⟨g₁, hfeed, hrun⟩ := exists_ok_of_bind hrun
    exact .next trivial hfeed (ih hrun)

/-- The game that some inputs lead to from another, if all games on the way have a property. -/
def runThrough? (p : Game → Bool) (g : Game) : List Input → Option Game
  | [] => some g
  | i :: inputs =>
    if p g then
      match g.feed i with
      | .ok g₁ => g₁.runThrough? p inputs
      | .error _ => none
    else none

/-- A run that can be computed is a run. -/
theorem runsThrough_of_runThrough? {p : Game → Bool} (h : g.runThrough? p inputs = some g') :
    RunsThrough (p · = true) g inputs g' := by
  induction inputs generalizing g with
  | nil =>
    cases h
    exact .done
  | cons i inputs ih =>
    unfold runThrough? at h
    split at h
    next hp =>
      split at h
      next g₁ hfeed => exact .next hp hfeed (ih h)
      next => cases h
    next => cases h

/-- A run of one input that can be computed takes the input in. -/
theorem feed_of_runThrough? {p : Game → Bool} (h : g.runThrough? p [i] = some g') :
    g.feed i = .ok g' := by
  cases runsThrough_of_runThrough? h with
  | next _ hfeed hrest =>
    cases hrest
    exact hfeed

end CoupTable.Game
