import CoupTable.Proofs.Events
import CoupTable.Proofs.Quorum

/-!
# Which alarms are set

A game sets alarms for the claims that it puts to the table, and one for the report of its end. As
long as no alarm is reported that is still set, which would come before its time, at most one is set
between two inputs: that of the claim on top, or that of the end. An alarm that is set no longer is
ignored for good.
-/

namespace CoupTable.Game

variable {g g' x : Game} {cause : Cause} {c c' : Claim} {f : Frame} {r : Reveal}
  {below below' : List Frame} {i : Input} {seat choice : Nat} {effect : Effect} {id : AlarmId}

/-! ## The alarms that are set -/

/-- No alarm is set, and nothing waits for one. -/
structure Unset (g : Game) : Prop where
  /-- No alarm is set. -/
  pending : g.venue.alarms.pending = []
  /-- No end is to be reported. -/
  overAlarm : g.overAlarm = none
  /-- No frame has an alarm. -/
  frames : ∀ f ∈ g.stack.frames, f.alarm = none

/-- The alarms that are set are those that something waits for. -/
inductive Timed (g : Game) : Prop where
  /-- There are none. -/
  | unset (h : g.Unset)
  /-- The claim on top waits for one. -/
  | waiting {c : Claim} {below : List Frame} {id : AlarmId} {due : Nat}
      (hf : g.stack.frames = .claim c :: below) (hid : c.alarm = some id)
      (hpending : g.venue.alarms.pending = [(id, due)]) (hold : id < g.venue.alarms.next)
      (hover : g.overAlarm = none) (hbelow : ∀ f ∈ below, f.alarm = none)
  /-- The end is to be reported. -/
  | ended {id : AlarmId} {due : Nat} (hf : g.stack.frames = [.turn])
      (hid : g.overAlarm = some id) (hpending : g.venue.alarms.pending = [(id, due)])
      (hold : id < g.venue.alarms.next)

/-- Where no end is to be reported, and the frame on top has no alarm, none is set. -/
theorem Timed.unset_of_top (h : g.Timed) (hover : g.overAlarm = none)
    (hf : g.stack.frames = f :: below) (hnone : f.alarm = none) : g.Unset := by
  cases h with
  | unset h => exact h
  | waiting hf' hid =>
    cases hf.symm.trans hf'
    cases hnone.symm.trans hid
  | ended _ hid => cases hover.symm.trans hid

/-- Without the claim on top and its alarm none is set. -/
theorem Timed.lifted (h : g.Timed) (hover : g.overAlarm = none)
    (hf : g.stack.frames = .claim c :: below) : (g.lifted c below).Unset := by
  cases h with
  | unset h =>
    have hframes := h.frames
    rw [hf] at hframes
    exact ⟨Venue.pending_release_of_nil h.pending _, hover, (List.forall_mem_cons.1 hframes).2⟩
  | waiting hf' hid hpending _ _ hbelow =>
    cases hf.symm.trans hf'
    refine ⟨?_, hover, hbelow⟩
    simp [Game.lifted, hid, Venue.release, Venue.cancel, Alarms.cancel, hpending]
  | ended _ hid => cases hover.symm.trans hid

/-! ## Steps -/

/-- A claim that goes through leaves no alarm where none is set. -/
theorem Grant.unset (h : Grant g seat effect g') (hg : g.Unset) : g'.Unset := by
  obtain ⟨hpending, hover, hframes⟩ := hg
  cases h with
  | foreignAid | tax | embezzle | assassinateDead | steal | inspectDead =>
    exact ⟨hpending, hover, hframes⟩
  | assassinate | exchange | inspect =>
    exact ⟨hpending, hover, List.forall_mem_cons.2 ⟨rfl, hframes⟩⟩
  | block hf | blockKill hf =>
    rw [hf] at hframes
    exact ⟨Venue.pending_release_of_nil (v := g.venue.saying _) hpending _, hover,
      (List.forall_mem_cons.1 hframes).2⟩

/-- An answer leaves no alarm where none is set. -/
theorem Answer.unset (h : Answer g r c below choice g') (hg : g.Unset)
    (hf : g.stack.frames = .reveal r :: .claim c :: below) : g'.Unset := by
  obtain ⟨hpending, hover, hframes⟩ := hg
  simp only [hf, List.forall_mem_cons] at hframes
  obtain ⟨-, hnone, hbelow⟩ := hframes
  cases h with
  | proven | shown =>
    exact ⟨hpending, hover, List.forall_mem_cons.2 ⟨rfl, List.forall_mem_cons.2 ⟨hnone, hbelow⟩⟩⟩
  | caught =>
    exact ⟨Venue.pending_release_of_nil (v := g.venue.saying _) hpending _, hover, hbelow⟩
  | conceded =>
    exact ⟨Venue.pending_release_of_nil (v := g.venue.saying _) hpending _, hover,
      List.forall_mem_cons.2 ⟨rfl, hbelow⟩⟩

/-- A step for a press, or of a frame that goes on by itself, keeps the alarms those that something
waits for. -/
theorem Step.timed (h : g.Sound) (hover : g.isOver = false) (hstep : Step g cause g')
    (hcause : ∀ id, cause ≠ .alarm id) (hg : g.Timed) : g'.Timed := by
  have hnone : g.overAlarm = none := by
    by_contra hsome
    cases hover.symm.trans (h.overAlarm hsome)
  -- Where the frame on top has no alarm none is set.
  have hunset : ∀ {f below}, g.stack.frames = f :: below → f.alarm = none → g.Unset :=
    fun hf halarm => hg.unset_of_top hnone hf halarm
  have hbelow : ∀ {f below}, g.stack.frames = f :: below → f.alarm = none →
      ∀ f ∈ below, f.alarm = none := by
    intro f below hf halarm
    have hframes := (hunset hf halarm).frames
    rw [hf] at hframes
    exact (List.forall_mem_cons.1 hframes).2
  cases hstep with
  | timeOut => exact absurd rfl (hcause _)
  | deal hf _ hdeal =>
    obtain ⟨built, ms', -, rfl⟩ := h.of_deal hf hdeal
    have hg := hunset hf rfl
    exact .unset ⟨hg.pending, hnone, List.forall_mem_cons.2 ⟨rfl, List.forall_mem_nil _⟩⟩
  | income hf | convert hf | askTarget hf | pass hf =>
    have hg := hunset hf rfl
    exact .unset ⟨hg.pending, hnone, hg.frames⟩
  | coup hf | claim hf =>
    have hg := hunset hf rfl
    exact .unset ⟨hg.pending, hnone, List.forall_mem_cons.2 ⟨rfl, hg.frames⟩⟩
  | finish hf =>
    have hpending := (hunset hf rfl).pending
    have hframes : g.stack.frames = [.turn] := by
      cases h.shape_of hf with
      | turn => exact hf
    exact .ended hframes rfl (Venue.pending_arming_of_nil hpending 0) (Nat.lt_succ_self _)
  | accept hf =>
    cases hg with
    | unset hg =>
      have hframes := hg.frames
      rw [hf] at hframes
      obtain ⟨halarm, hbelow⟩ := List.forall_mem_cons.1 hframes
      exact .unset ⟨hg.pending, hnone, List.forall_mem_cons.2 ⟨halarm, hbelow⟩⟩
    | waiting hf' hid hpending hold _ hbelow =>
      cases hf.symm.trans hf'
      exact .waiting rfl hid hpending hold hnone hbelow
    | ended hf' => cases hf.symm.trans hf'
  | acceptLast hf _ hgrant | unopposed hf _ hgrant =>
    exact .unset (hgrant.unset (hg.lifted hnone hf))
  | @ask c below ms hf =>
    obtain ⟨hpending, -, hbelow⟩ := hg.lifted hnone hf
    have hset := Venue.pending_arming_of_nil hpending g.waitTime
    rw [lifted, Venue.next_release] at hset
    refine .waiting rfl rfl hset ?_ hnone hbelow
    have hnext : g.venue.alarms.next < (g.venue.release c.alarm).alarms.next + 1 := by
      rw [Venue.next_release]
      exact Nat.lt_succ_self _
    exact hnext
  | challenge hf | block hf =>
    obtain ⟨hpending, -, hbelow⟩ := hg.lifted hnone hf
    exact .unset ⟨hpending, hnone,
      List.forall_mem_cons.2 ⟨rfl, List.forall_mem_cons.2 ⟨rfl, hbelow⟩⟩⟩
  | answer hf hanswer | answerLast hf _ _ _ hanswer =>
    exact .unset (hanswer.unset (hunset hf rfl) hf)
  | dropDead hf =>
    have hclaimed := hbelow hf rfl
    exact .unset ⟨Venue.pending_release_of_nil (hunset hf rfl).pending _, hnone,
      (List.forall_mem_cons.1 hclaimed).2⟩
  | lose hf | loseAll hf | keepLast hf | allow hf | change hf =>
    exact .unset ⟨(hunset hf rfl).pending, hnone, hbelow hf rfl⟩
  | keep hf | showCard hf | showOnly hf =>
    exact .unset ⟨(hunset hf rfl).pending, hnone, List.forall_mem_cons.2 ⟨rfl, hbelow hf rfl⟩⟩
  | @askSomebody f _ _ hf _ hclaim =>
    have halarm : f.alarm = none := by
      cases f with
      | claim c => exact absurd rfl (hclaim c)
      | _ => rfl
    have hg := hunset hf halarm
    exact .unset ⟨hg.pending, hnone, hg.frames⟩

/-- Frames that go on by themselves keep the alarms those that something waits for. -/
theorem Settles.timed (hsettles : Settles g g') (h : g.Sound) (hg : g.Timed) : g'.Timed := by
  induction hsettles with
  | rest => exact hg
  | @go g x g' hstirred hidle hsettles ih =>
    obtain ⟨hidled, hsound⟩ := h.idled hstirred hidle
    have hhushed : Timed { g with stirred := false } := by
      cases hg with
      | unset hg => exact .unset { hg with }
      | waiting hf hid hpending hold hover hbelow =>
        exact .waiting hf hid hpending hold hover hbelow
      | ended hf hid hpending hold => exact .ended hf hid hpending hold
    have hover := h.isOver_of_stirred hstirred
    exact ih hsound (hidled.step.timed h.hush hover (fun _ => nofun) hhushed)

/-! ## Inputs -/

/-- A press keeps the alarms those that something waits for. -/
theorem AtRest.press_timed {data : String} (h : g.AtRest) (hg : g.Timed)
    (hpress : g.press seat data = .ok g') : g'.Timed := by
  rcases press_cases h hpress with ⟨rfl, -⟩ | ⟨m, x, -, hover, -, hstep, hsound, hsettles⟩
  · exact hg
  · exact hsettles.timed hsound (hstep.timed h.toSound hover (fun _ => nofun) hg)

/-- What is waited for is set. -/
theorem Timed.isPending (hg : g.Timed) :
    (g.overAlarm = some id → g.venue.alarms.isPending id = true) ∧
      (∀ c below, g.stack.frames = .claim c :: below → c.alarm = some id →
        g.venue.alarms.isPending id = true) := by
  have hset : ∀ {due}, g.venue.alarms.pending = [(id, due)] →
      g.venue.alarms.isPending id = true := fun hpending => by simp [Alarms.isPending, hpending]
  cases hg with
  | unset h =>
    refine ⟨fun hid => ?_, fun c below hf hid => ?_⟩
    · cases h.overAlarm.symm.trans hid
    · have hframes := h.frames
      rw [hf] at hframes
      cases (List.forall_mem_cons.1 hframes).1.symm.trans hid
  | waiting hf hid hpending _ hover =>
    refine ⟨fun hid' => ?_, fun c below hf' hid' => ?_⟩
    · cases hover.symm.trans hid'
    · cases hf.symm.trans hf'
      cases hid.symm.trans hid'
      exact hset hpending
  | ended hf hid hpending =>
    refine ⟨fun hid' => ?_, fun c below hf' _ => ?_⟩
    · cases hid.symm.trans hid'
      exact hset hpending
    · cases hf.symm.trans hf'

/-- An alarm that is not set is ignored. -/
theorem Timed.expire_eq (hg : g.Timed) (hid : g.venue.alarms.isPending id = false) :
    g.expire id = .ok g := by
  obtain ⟨hover, hclaim⟩ := @Timed.isPending g id hg
  unfold expire
  rw [if_neg fun halarm => Bool.false_ne_true (hid.symm.trans (hover halarm))]
  split
  next c htop =>
    obtain ⟨below, hf⟩ := List.head?_eq_some_iff.1 htop
    rw [if_neg fun halarm => Bool.false_ne_true (hid.symm.trans (hclaim c below hf halarm))]
  next => rfl

/-- The alarm of the claim on top has the claim go through. -/
theorem AtRest.expire_step (h : g.AtRest) (hf : g.stack.frames = .claim c :: below)
    (hid : c.alarm = some id) : ∃ x, Step g (.alarm id) x ∧ g.expire id = x.settle := by
  obtain ⟨x, hresolve, hgrant⟩ := h.resolve_eq hf { c with alarm := none } rfl rfl
  refine ⟨x, .timeOut hf hid hgrant, ?_⟩
  rw [h.expire_alarm hf hid, hresolve, ok_bind]

/-- The alarm that was set, and has gone off, leaves the alarms those that something waits for. -/
theorem Timed.expire_due {due : Nat} {venue : Venue} (hg : g.Timed) (h : g.AtRest)
    (hset : g.venue.alarms.pending = [(id, due)]) (hoff : venue.alarms.pending = [])
    (hexpire : expire { g with venue } id = .ok g') : g'.Timed := by
  cases hg with
  | unset hg => cases hg.pending.symm.trans hset
  | waiting hf hid hpending _ hover hbelow =>
    cases hpending.symm.trans hset
    have hrest := h.of_venue venue
    obtain ⟨x, hstep, hsettle⟩ := hrest.expire_step hf hid
    obtain ⟨hsound, hsettles⟩ :=
      hstep.settles hrest (h.isOver_eq_false hf nofun) (hsettle.symm.trans hexpire)
    refine hsettles.timed hsound ?_
    cases hstep with
    | timeOut hf' _ hgrant =>
      cases hf.symm.trans hf'
      exact .unset (hgrant.unset ⟨hoff, hover, hbelow⟩)
  | ended hf hid hpending =>
    cases hpending.symm.trans hset
    have hreport : expire { g with venue } _ = .ok { g with
        overAlarm := none, venue := venue.reportOver } := if_pos hid
    cases hreport.symm.trans hexpire
    refine .unset ⟨hoff, rfl, ?_⟩
    rw [hf]
    exact List.forall_mem_cons.2 ⟨rfl, List.forall_mem_nil _⟩

/-- As long as the same alarms are set it does not matter what else happens to the venue. -/
theorem Timed.of_venue {venue : Venue} (hg : g.Timed)
    (hset : venue.alarms.pending = g.venue.alarms.pending)
    (hnext : venue.alarms.next = g.venue.alarms.next) : Timed { g with venue } := by
  cases hg with
  | unset hg => exact .unset ⟨hset.trans hg.pending, hg.overAlarm, hg.frames⟩
  | waiting hf hid hpending hold hover hbelow =>
    exact .waiting hf hid (hset.trans hpending) (hnext ▸ hold) hover hbelow
  | ended hf hid hpending hold => exact .ended hf hid (hset.trans hpending) (hnext ▸ hold)

/-- At most one alarm is set. -/
theorem Timed.pending_eq (hg : g.Timed) : g.venue.alarms.pending = [] ∨
    ∃ id due, g.venue.alarms.pending = [(id, due)] ∧ id < g.venue.alarms.next := by
  cases hg with
  | unset hg => exact .inl hg.pending
  | waiting _ _ hpending hold | ended _ _ hpending hold => exact .inr ⟨_, _, hpending, hold⟩

/-- The passing of time keeps the alarms those that something waits for. -/
theorem advanceIn_timed {fuel time : Nat} (h : g.AtRest) (hg : g.Timed)
    (hadvance : advanceIn fuel time g = .ok g') : g'.Timed := by
  induction fuel generalizing g time with
  | zero =>
    cases hadvance
    exact hg
  | succ fuel ih =>
    unfold advanceIn at hadvance
    obtain ⟨⟨due, venue⟩, hdue, hadvance⟩ := exists_ok_of_bind hadvance
    obtain ⟨now, -, rfl, hperm⟩ := Venue.of_advance hdue
    dsimp only at hadvance
    rcases hg.pending_eq with hset | ⟨id, time, hset, -⟩
    · rw [hset, List.filter_nil, List.map_nil, List.perm_nil] at hperm
      subst hperm
      cases hadvance
      exact hg.of_venue (by rw [hset, List.filter_nil]) rfl
    · by_cases htime : time ≤ now
      · -- The one alarm goes off, and time goes on from what comes of that.
        simp only [hset, List.filter_cons, htime, decide_true, if_true, List.filter_nil,
          List.map_cons, List.map_nil, List.perm_singleton] at hperm
        subst hperm
        obtain ⟨g₁, hexpire, hadvance⟩ := exists_ok_of_bind hadvance
        rw [List.foldlM_cons] at hexpire
        obtain ⟨g₂, hexpire, hall⟩ := exists_ok_of_bind hexpire
        cases hall
        have hrest := (h.of_venue _).feed (i := .expire id) hexpire
        exact ih hrest (hg.expire_due h hset (by simp [hset, htime]) hexpire) hadvance
      · simp only [hset, List.filter_cons, htime, decide_false, Bool.false_eq_true, if_false,
          List.filter_nil, List.map_nil, List.perm_nil] at hperm
        subst hperm
        cases hadvance
        exact hg.of_venue (by simp [hset, htime]) rfl

/-! ## Runs in which no alarm is reported before its time -/

/-- Some inputs lead from one game to another, and no alarm is reported that is still set. -/
inductive OnTime : Game → Game → Prop where
  /-- Nothing comes in. -/
  | refl (g : Game) : OnTime g g
  /-- One more input comes in. -/
  | fed {g g' g'' : Game} {i : Input} (h : OnTime g g')
      (htime : ∀ id, i = .expire id → g'.venue.alarms.isPending id = false)
      (hfeed : g'.feed i = .ok g'') : OnTime g g''

/-- A game that some table can come to without an alarm that is reported before its time. -/
def Punctual (g : Game) : Prop :=
  ∃ names s entropy g₀, start names s entropy = .ok g₀ ∧ OnTime g₀ g

/-- An input on time keeps the alarms those that something waits for. -/
theorem AtRest.feed_timed (h : g.AtRest) (hg : g.Timed)
    (htime : ∀ id, i = .expire id → g.venue.alarms.isPending id = false)
    (hfeed : g.feed i = .ok g') : g'.Timed := by
  cases i with
  | press seat data => exact h.press_timed hg hfeed
  | expire id =>
    cases (hg.expire_eq (htime id rfl)).symm.trans hfeed
    exact hg
  | advance time => exact advanceIn_timed h hg hfeed

/-- No input gives a number out twice. -/
theorem AtRest.feed_follows (h : g.AtRest) (hfeed : g.feed i = .ok g') :
    g.venue.alarms.Follows g'.venue.alarms := by
  refine h.feed_induction (P := fun x => g.venue.alarms.Follows x.venue.alarms)
    (fun x x' hx hfollows hevent => hfollows.trans ?_) (.refl _) hfeed
  cases hevent with
  | clock hdue => exact Venue.follows_advance hdue
  | report => exact .refl _
  | step hstep _ _ hsound hsettles =>
    exact (hstep.follows hx.toSound).trans (hsettles.follows hsound)

namespace OnTime

/-- What a reachable game comes to on time is reachable. -/
theorem reachable (h : OnTime g g') (hg : Reachable g) : Reachable g' := by
  induction h with
  | refl => exact hg
  | fed _ _ hfeed ih => exact ih.fed hfeed

/-- Some inputs come in on time after others. -/
theorem trans (h : OnTime g x) (h' : OnTime x g') : OnTime g g' := by
  induction h' with
  | refl => exact h
  | fed _ htime hfeed ih => exact ih.fed htime hfeed

/-- Inputs are on time if no alarm is reported at all. -/
theorem of_feedAll {inputs : List Input} (hinputs : ∀ i ∈ inputs, ∀ id, i ≠ .expire id)
    (hfeed : g.feedAll inputs = .ok g') : OnTime g g' := by
  induction inputs generalizing g with
  | nil =>
    cases hfeed
    exact .refl _
  | cons i inputs ih =>
    rw [feedAll_cons] at hfeed
    obtain ⟨g₁, hi, hfeed⟩ := exists_ok_of_bind hfeed
    obtain ⟨hi', hinputs⟩ := List.forall_mem_cons.1 hinputs
    exact ((OnTime.refl g).fed (fun id heq => absurd heq (hi' id)) hi).trans (ih hinputs hfeed)

/-- Inputs on time keep the alarms those that something waits for. -/
theorem timed (h : OnTime g g') (hrest : Reachable g) (hg : g.Timed) : g'.Timed := by
  induction h with
  | refl => exact hg
  | fed h htime hfeed ih => exact (h.reachable hrest).atRest.feed_timed ih htime hfeed

/-- No number is given out twice. -/
theorem follows (h : OnTime g g') (hrest : Reachable g) :
    g.venue.alarms.Follows g'.venue.alarms := by
  induction h with
  | refl => exact .refl _
  | fed h _ hfeed ih => exact ih.trans ((h.reachable hrest).atRest.feed_follows hfeed)

end OnTime

namespace Punctual

/-- Such a game is reachable. -/
theorem reachable (h : g.Punctual) : Reachable g := by
  obtain ⟨names, s, entropy, g₀, hstart, hrun⟩ := h
  exact hrun.reachable (.started hstart)

/-- What such a game comes to on time is such a game. -/
theorem later (h : g.Punctual) (hrun : OnTime g g') : g'.Punctual := by
  obtain ⟨names, s, entropy, g₀, hstart, hpast⟩ := h
  exact ⟨names, s, entropy, g₀, hstart, hpast.trans hrun⟩

/-- The alarms that are set are those that something waits for. -/
theorem timed (h : g.Punctual) : g.Timed := by
  obtain ⟨names, s, entropy, g₀, hstart, hrun⟩ := h
  refine hrun.timed (.started hstart) (.unset ?_)
  obtain ⟨-, hbegun⟩ := begun_of_start hstart
  cases hbegun with
  | asking => exact ⟨rfl, rfl, List.forall_mem_cons.2 ⟨rfl, List.forall_mem_cons.2
      ⟨rfl, List.forall_mem_nil _⟩⟩⟩
  | dealt => exact ⟨rfl, rfl, List.forall_mem_cons.2 ⟨rfl, List.forall_mem_nil _⟩⟩

end Punctual

/-- What a new game is played out to without alarms that are reported is such a game. -/
theorem punctual_of_playOut {names : List String} {s : Settings} {inputs : List Input}
    (hinputs : ∀ i ∈ inputs, ∀ id, i ≠ .expire id) (h : playOut names s inputs = some g) :
    g.Punctual := by
  unfold playOut at h
  split at h
  next g₀ hstart => exact ⟨names, s, _, g₀, hstart, .of_feedAll hinputs (eq_ok_of_toOption h)⟩
  next => cases h

/-! ## When an alarm rings -/

/-- The game `g₀` is where everybody was last asked about the claim `c`, which waits on top of the
frames `below` in the game `g`: they were asked by the last message of a press, and nothing was sent
since then. -/
structure Prompted (g : Game) (c : Claim) (below : List Frame) (g₀ : Game) : Prop where
  /-- Everybody was asked after a press. -/
  press : ∃ (x : Game) (seat : Nat) (data : String), x.Punctual ∧ x.press seat data = .ok g₀ ∧
    Asks x { c with accepted := ∅ } g₀
  /-- The claim was on top. -/
  frames : g₀.stack.frames = .claim { c with accepted := ∅ } :: below
  /-- Other inputs have come in since. -/
  since : OnTime g₀ g
  /-- Nothing was sent. -/
  outbox : g.venue.outbox = g₀.venue.outbox

/-- A claim that waits has an alarm, which is the only one that is set. -/
theorem Timed.of_claim (hg : g.Timed) (h : g.AtRest) (hf : g.stack.frames = .claim c :: below) :
    ∃ id due, c.alarm = some id ∧ g.venue.alarms.pending = [(id, due)] ∧
      id < g.venue.alarms.next := by
  cases hg with
  | unset hg =>
    have hframes := hg.frames
    rw [hf] at hframes
    exact absurd (List.forall_mem_cons.1 hframes).1 (h.waiting _ _ hf).1
  | waiting hf' hid hpending hold =>
    cases hf.symm.trans hf'
    exact ⟨_, _, hid, hpending, hold⟩
  | ended hf' => cases hf.symm.trans hf'

/-- The alarm of a claim that waits rings when the time to wait is over, counted from when everybody
was asked the last time. -/
theorem Punctual.prompted (h : g.Punctual) (hf : g.stack.frames = .claim c :: below) :
    ∃ id g₀, c.alarm = some id ∧ g.Prompted c below g₀ ∧
      g.venue.alarms.pending = [(id, g₀.venue.alarms.now + g₀.waitTime)] := by
  obtain ⟨names, s, entropy, g₁, hstart, hrun⟩ := h
  induction hrun generalizing c below with
  | refl =>
    rcases (rests_of_start hstart).2 with hf₀ | hf₀
    · cases hf₀.symm.trans hf
    · cases hf₀.symm.trans hf
  | @fed g g' i hrun htime hfeed ih =>
    have hpast : g.Punctual := ⟨names, s, entropy, g₁, hstart, hrun⟩
    have hrest := hpast.reachable.atRest
    have hnext : g'.Punctual := hpast.later ((OnTime.refl g).fed htime hfeed)
    obtain ⟨id, due, hid, hset, -⟩ := hnext.timed.of_claim hnext.reachable.atRest hf
    cases hrest.feed_keeps hf (fun _ _ _ => hpast.reachable.now_lt) hfeed with
    | asks hposts hpress =>
      -- The alarm was set just now.
      obtain ⟨seat, data, rfl⟩ := hpress
      obtain ⟨id', hid', -, hset'⟩ := hposts.alarm
      have hself : { c with accepted := ∅ } = c := by rw [← hposts.nobody]
      refine ⟨id, g', hid, ⟨⟨g, seat, data, hpast, hfeed, ?_⟩, ?_, .refl _, rfl⟩, ?_⟩
      · rw [hself]
        exact hposts.toAsks
      · rw [hself, hf]
      · cases hid.symm.trans hid'
        rw [hset, List.mem_singleton] at hset'
        rw [hset, ← hset']
    | @waits c₀ hf₀ hc hseats houtbox hnow =>
      -- The alarm was set before, and nobody has touched it since.
      obtain ⟨id₀, g₀, hid₀, hprompted, hset₀⟩ := ih hf₀
      obtain ⟨id', due', hid', hset', hold⟩ := hpast.timed.of_claim hrest hf₀
      subst hc
      cases hid.symm.trans hid₀
      cases hid.symm.trans hid'
      refine ⟨id, g₀, hid, ⟨hprompted.press, hprompted.frames, ?_, ?_⟩, ?_⟩
      · exact hprompted.since.fed htime hfeed
      · exact houtbox.trans hprompted.outbox
      · have hkept := (hrest.feed_follows hfeed).kept (id, due)
          (by rw [hset]; exact List.mem_singleton_self _) hold
        rw [hset₀, List.mem_singleton] at hkept
        rw [hset, hkept]

/-- An alarm that was set for a claim is never waited for by another. -/
theorem OnTime.same_claim (h : OnTime g g') (hg : g.Punctual) (hold : id < g.venue.alarms.next)
    (hf' : g'.stack.frames = .claim c :: below) (hid : c.alarm = some id) :
    ∃ c₀, g.stack.frames = .claim c₀ :: below ∧
      { c₀ with accepted := ∅ } = { c with accepted := ∅ } := by
  induction h generalizing c below with
  | refl => exact ⟨c, hf', rfl⟩
  | @fed x g' i hrun htime hfeed ih =>
    have hx := hg.later hrun
    cases hx.reachable.atRest.feed_keeps hf' (fun _ _ _ => hx.reachable.now_lt) hfeed with
    | asks hposts =>
      -- The alarm would have to be a new one.
      obtain ⟨id', hid', hnew, -⟩ := hposts.alarm
      cases hid.symm.trans hid'
      have hle := (hrun.follows hg.reachable).next_le
      exact absurd hold (Nat.not_lt.2 (Nat.le_trans hle hnew))
    | waits hf₀ hc =>
      subst hc
      obtain ⟨c₀, hf, hsame⟩ := ih hf₀ hid
      exact ⟨c₀, hf, hsame⟩

/-! ## The result -/

/-- As long as no alarm is reported before its time, the alarms that are set are accounted for. If a
claim is on top it is that of the claim, which rings when the time to wait is over, counted from
when everybody was asked the last time; if the end is to be reported it is that of the end;
otherwise none is set. There is never more than one, and no frame below the top has any. So an alarm
that is not set is ignored, and will always be once its number was given out: whatever claim an
alarm belongs to later, it has belonged to it all along. -/
theorem Punctual.alarms_accounted (h : g.Punctual) :
    (∀ c below, g.stack.frames = .claim c :: below →
      ∃ id g₀, c.alarm = some id ∧ g.Prompted c below g₀ ∧
        g.venue.alarms.pending = [(id, g₀.venue.alarms.now + g₀.waitTime)]) ∧
    (∀ id, g.overAlarm = some id → ∃ due, g.venue.alarms.pending = [(id, due)]) ∧
    ((∀ c below, g.stack.frames ≠ .claim c :: below) → g.overAlarm = none →
      g.venue.alarms.pending = []) ∧
    g.venue.alarms.pending.length ≤ 1 ∧
    (∀ f ∈ g.stack.frames.tail, f.alarm = none) ∧
    (∀ id, g.venue.alarms.isPending id = false → g.expire id = .ok g) ∧
    (∀ id g', id < g.venue.alarms.next → OnTime g g' →
      (g.venue.alarms.isPending id = false →
        g'.venue.alarms.isPending id = false ∧ g'.expire id = .ok g') ∧
      (∀ c below, g'.stack.frames = .claim c :: below → c.alarm = some id →
        ∃ c₀, g.stack.frames = .claim c₀ :: below ∧
          { c₀ with accepted := ∅ } = { c with accepted := ∅ })) := by
  have htimed := h.timed
  refine ⟨fun c below hf => h.prompted hf, ?_, ?_, ?_, ?_, fun id hid => htimed.expire_eq hid, ?_⟩
  · -- Only the game that is over has an alarm to report it, and it is the one that is set.
    intro id hid
    cases htimed with
    | unset hg => cases hg.overAlarm.symm.trans hid
    | waiting _ _ _ _ hover => cases hover.symm.trans hid
    | ended _ hid' hpending =>
      cases hid.symm.trans hid'
      exact ⟨_, hpending⟩
  · -- Without a claim on top and without an end to report the game is one with no alarm.
    intro hclaim hover
    cases htimed with
    | unset hg => exact hg.pending
    | waiting hf => exact absurd hf (hclaim _ _)
    | ended _ hid => cases hover.symm.trans hid
  · rcases htimed.pending_eq with hset | ⟨id, due, hset, -⟩
    · simp [hset]
    · simp [hset]
  · -- The frame on top is the only one that may have an alarm, whatever the alarm is for.
    cases htimed with
    | unset hg => exact fun f hf => hg.frames f (List.mem_of_mem_tail hf)
    | waiting hf _ _ _ _ hbelow =>
      rw [hf]
      exact hbelow
    | ended hf =>
      rw [hf]
      exact List.forall_mem_nil _
  · intro id g' hold hrun
    have hlater := h.later hrun
    refine ⟨fun hid => ?_, fun c below hf hid => hrun.same_claim h hold hf hid⟩
    -- Numbers are not given out twice: what is set later under an old number was set all along.
    have hid' : g'.venue.alarms.isPending id = false := by
      by_contra hset
      rw [Bool.not_eq_false, Alarms.isPending, List.any_eq_true] at hset
      obtain ⟨e, he, heq⟩ := hset
      have hkept := (hrun.follows h.reachable).kept e he (by rwa [beq_iff_eq.1 heq])
      have hset : g.venue.alarms.isPending id = true := List.any_eq_true.2 ⟨e, hkept, heq⟩
      cases hid.symm.trans hset
    exact ⟨hid', hlater.timed.expire_eq hid'⟩

/-- Ada's foreign aid is blocked after a second. The first alarm was taken back then, and is
ignored. Another second later the alarm of the block is the only one that is set, for a minute after
it. -/
theorem alarms_accounted_block : ∃ g g₀ below,
    playOut ["Ada", "Bob"] { seed := some 0, startPlayer := some 0, variant := some .classic }
        [.press 0 "foreign_aid", .advance second, .press 1 "block", .advance second] = some g ∧
      g.Prompted { Claim.counter 1 (Wording.block "Bob" "the duke") { taxCollectors := true } with
        alarm := some 1 } below g₀ ∧
      g.venue.alarms.pending = [(1, g₀.venue.alarms.now + g₀.waitTime)] ∧
      g₀.venue.alarms.now + g₀.waitTime = 61 * second ∧ g.expire 0 = .ok g := by
  have hrun : (playOut ["Ada", "Bob"]
      { seed := some 0, startPlayer := some 0, variant := some .classic }
      [.press 0 "foreign_aid", .advance second, .press 1 "block", .advance second]).map (fun g =>
        (g.stack.top?, g.venue.alarms.pending))
      = some (some (.claim { Claim.counter 1 (Wording.block "Bob" "the duke")
          { taxCollectors := true } with alarm := some 1 }), [(1, 61 * second)]) := by
    decide +kernel
  obtain ⟨g, hg, hrun⟩ := Option.map_eq_some_iff.1 hrun
  obtain ⟨htop, hpending⟩ := Prod.mk.inj hrun
  obtain ⟨below, hf⟩ := List.head?_eq_some_iff.1 htop
  obtain ⟨hclaim, -, -, -, -, hignored, -⟩ := (punctual_of_playOut (by simp) hg).alarms_accounted
  obtain ⟨id, g₀, hid, hprompted, hset⟩ := hclaim _ _ hf
  cases hid
  have hgone : g.venue.alarms.isPending 0 = false := by
    rw [Alarms.isPending, hpending]
    rfl
  refine ⟨g, g₀, below, hg, hprompted, hset, ?_, hignored 0 hgone⟩
  rw [hpending] at hset
  simpa using hset.symm

end CoupTable.Game
