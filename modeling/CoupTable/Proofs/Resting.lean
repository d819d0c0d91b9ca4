import CoupTable.Proofs.Deadlines
import CoupTable.Proofs.Outcomes

/-!
# How an input comes to rest

An input has the frame on top take in a press or an alarm, and after that frames go on by
themselves. At most four of them do: a challenge is answered with the last card, the challenger
loses the last card over it, the claim goes through, since nobody is left who could oppose it, and
the turn passes on. `stamina` is how many are left at most, by the frames on top, and each frame
that goes on and stirs uses up some of it (`Step.stamina_lt`).

What is on top in the end `Needs` somebody: whoever is asked has a choice, and the alarm of a claim
that waits is set (`Armed`).
-/

namespace CoupTable.Game

/-- Whether it is the frame on top that goes on by itself. -/
def Cause.isIdle : Cause → Bool
  | idle => true
  | press .. | alarm _ => false

/-- Whether the call is one of a frame that goes on by itself. -/
def Call.isIdle (k : Call) : Bool := k.cause.isIdle

/-- How many frames go on by themselves at most, one after the other, by the frames of a stack in
which something stirs. -/
def stamina : List Frame → Nat
  | .reveal _ :: _ => 4
  | .loss _ :: .claim _ :: _ => 3
  | .loss _ :: _ => 2
  | .claim _ :: _ => 2
  | _ => 1

variable {P : Game → Prop} {g g' x y : Game} {cause : Cause} {c : Claim} {f : Frame} {r : Reveal}
  {frames below : List Frame} {i : Input} {seat choice fuel fuel' : Nat} {id : AlarmId}
  {due : List AlarmId} {k : Call} {ks : List Call} {p : Player}

/-! ## Frames that go on by themselves -/

/-- The frame on top goes on at least once. -/
theorem stamina_pos (frames : List Frame) : 0 < stamina frames := by
  unfold stamina
  split <;> decide

/-- No more than four frames go on by themselves. -/
theorem stamina_le (frames : List Frame) : stamina frames ≤ 4 := by
  unfold stamina
  split <;> decide

/-- A calm frame goes on once. -/
theorem stamina_of_isCalm (hcalm : f.isCalm = true) : stamina (f :: below) = 1 := by
  cases f with
  | turn | exchange _ | interrogation _ => rfl
  | _ => cases hcalm

/-- Below a pending claim lies the turn or another claim. -/
theorem Pending.stamina_below (h : g.Pending c below) :
    stamina below ≤ 2 ∧ ∀ seat, stamina (.loss seat :: below) ≤ 3 := by
  cases h with
  | own => exact ⟨Nat.le_succ 1, fun _ => Nat.le_succ 2⟩
  | block => exact ⟨Nat.le_refl 2, fun _ => Nat.le_refl 3⟩

/-- An answer to a challenge is followed by a loss at most, before the claim goes on. -/
theorem Answer.stamina_lt (h : Answer g r c below choice g')
    (hf : g.stack.frames = .reveal r :: .claim c :: below) (hpending : g.Pending c below) :
    stamina g'.stack.frames < stamina g.stack.frames := by
  have hfour : stamina g.stack.frames = 4 := by rw [hf]; rfl
  obtain ⟨hbelow, hloss⟩ := hpending.stamina_below
  rw [hfour]
  cases h with
  | proven | shown => exact Nat.lt_succ_self 3
  | caught => exact Nat.lt_of_le_of_lt hbelow (by decide)
  | conceded => exact Nat.lt_succ_of_le (hloss _)

/-- A frame that goes on by itself, and after which something stirs, leaves less to go on. -/
theorem Step.stamina_lt (h : g.Sound) (hstill : g.stirred = false) (hstep : Step g .idle g')
    (hstirred : g'.stirred = true) : stamina g'.stack.frames < stamina g.stack.frames := by
  cases hstep with
  | pass | finish | ask | showOnly | askSomebody => cases hstill.symm.trans hstirred
  | unopposed hf ha hgrant =>
    -- Nobody could oppose the claim, so that no loss comes of it.
    have htwo : stamina g.stack.frames = 2 := by rw [hf]; rfl
    cases h.shape_of hf with
    | asked hpending =>
      obtain ⟨f, rest, hf', hcalm⟩ := hpending.calm_grant (quorum_eq_nil ha) hgrant
      rw [htwo, hf', stamina_of_isCalm hcalm]
      exact Nat.lt_succ_self 1
  | answerLast hf _ _ _ hanswer => exact hanswer.stamina_lt hf (h.shape_of hf).of_reveal.1
  | dropDead hf hdead => cases (h.shape_of hf).isAlive_challenged.symm.trans hdead
  | loseAll hf =>
    -- Below the loss lies the turn, or the claim that was challenged in vain.
    rw [hf]
    cases h.shape_of hf with
    | loss => exact Nat.lt_succ_self 1
    | upheld => exact Nat.lt_succ_self 2

/-- Where nothing stirs no frame goes on. -/
theorem settleInCalls_of_still (hstill : g.stirred = false) (fuel : Nat) :
    settleInCalls fuel g = [] := by
  cases fuel with
  | zero => rfl
  | succ fuel => rw [settleInCalls, hstill, if_neg Bool.false_ne_true]

/-- As many frames go on by themselves as there is stamina for at most. -/
theorem length_settleInCalls_le (h : g.Sound) (fuel : Nat) :
    (settleInCalls fuel g).length ≤ stamina g.stack.frames := by
  induction fuel generalizing g with
  | zero => exact Nat.zero_le _
  | succ fuel ih =>
    unfold settleInCalls
    split
    next hstirred =>
      split
      next g₁ hidle =>
        obtain ⟨hidled, hsound⟩ := h.idled hstirred hidle
        have hpos := stamina_pos g.stack.frames
        rw [List.length_cons]
        cases hstirred₁ : g₁.stirred with
        | false =>
          rw [settleInCalls_of_still hstirred₁]
          exact hpos
        | true =>
          have hless := hidled.step.stamina_lt h.hush rfl hstirred₁
          exact Nat.lt_of_le_of_lt (ih hsound) hless
      next => exact Nat.zero_le _
    next => exact Nat.zero_le _

/-- It does not matter how often the frames may go on, as long as it is as often as there is stamina
for. -/
theorem settleIn_eq_settleIn (h : g.Sound)
    (hfuel : g.stirred = true → stamina g.stack.frames ≤ fuel)
    (hfuel' : g.stirred = true → stamina g.stack.frames ≤ fuel') :
    settleIn fuel g = settleIn fuel' g := by
  induction fuel generalizing g fuel' with
  | zero =>
    cases hstirred : g.stirred with
    | false => rw [settleIn_of_still hstirred, settleIn_of_still hstirred]
    | true => exact absurd (stamina_pos _) (Nat.not_lt.2 (hfuel hstirred))
  | succ fuel ih =>
    cases hstirred : g.stirred with
    | false => rw [settleIn_of_still hstirred, settleIn_of_still hstirred]
    | true =>
      have hless := hfuel hstirred
      have hless' := hfuel' hstirred
      have hpos := stamina_pos g.stack.frames
      obtain ⟨fuel'', rfl⟩ : ∃ fuel'', fuel' = fuel'' + 1 := ⟨fuel' - 1, by omega⟩
      unfold settleIn
      rw [hstirred, if_pos rfl, if_pos rfl]
      cases hidle : idle { g with stirred := false } with
      | error cause => rfl
      | ok g₁ =>
        obtain ⟨hidled, hsound⟩ := h.idled hstirred hidle
        have hspent := hidled.step.stamina_lt h.hush rfl
        dsimp only at hspent
        rw [ok_bind, ok_bind]
        refine ih hsound (fun hstirred₁ => ?_) (fun hstirred₁ => ?_)
        · exact Nat.le_of_lt_succ (Nat.lt_of_lt_of_le (hspent hstirred₁) hless)
        · exact Nat.le_of_lt_succ (Nat.lt_of_lt_of_le (hspent hstirred₁) hless')

/-- The frames may go on as often as there is stamina for. -/
theorem Shape.stamina_le_depth (h : g.Shape frames) : stamina frames ≤ 2 * frames.length + 1 := by
  cases h with
  | turn | variantChoice | loss | exchange | interrogation => exact Nat.le_add_left ..
  | asked | challenged | upheld =>
    simp only [stamina, List.length_cons]
    omega

/-! ## Inputs -/

/-- The calls of an input: there are none, or a game at rest takes in a press or an alarm, and then
frames go on by themselves. -/
inductive Single : List Call → Prop where
  /-- Nothing is called. -/
  | none : Single []
  /-- A press or an alarm is taken in. -/
  | event {x y : Game} {cause : Cause} (hrest : x.AtRest) (hcause : cause.isIdle = false)
    (hsound : y.Sound) : Single (⟨x, cause, y⟩ :: y.settleCalls)

/-- Only frames that go on by themselves are called when a game settles. -/
theorem isIdle_of_mem_settleInCalls (hk : k ∈ settleInCalls fuel g) : k.isIdle = true := by
  induction fuel generalizing g with
  | zero => cases hk
  | succ fuel ih =>
    unfold settleInCalls at hk
    split at hk
    next =>
      split at hk
      next =>
        rcases List.mem_cons.1 hk with rfl | hk
        · rfl
        · exact ih hk
      next => cases hk
    next => cases hk

/-- A press is called at most once. -/
theorem AtRest.pressCalls_single (h : g.AtRest) (seat : Nat) (data : String) :
    Single (g.pressCalls seat data) := by
  unfold pressCalls
  split
  next hopen =>
    simp only [Bool.and_eq_true, Bool.not_eq_true'] at hopen
    split
    next m hparse =>
      obtain ⟨g', hdispatch, ⟨rfl, -⟩ | hstep⟩ := dispatch_yields h seat m
      · rw [hdispatch]
        exact .event h rfl h.toSound
      · rw [hdispatch]
        exact .event h rfl (hstep.sound h.toSound h.still hopen.2)
    next => exact .none
  next => exact .none

/-- A game without a claim stays so while frames go on by themselves. -/
theorem Settles.unclaimed (hsettles : Settles g g') (h : g.Sound) (hv : g.variant ≠ none)
    (hclaim : g.claim? = none) : g'.claim? = none := by
  induction hsettles with
  | rest => exact hclaim
  | go hstirred hidle _ ih =>
    obtain ⟨hidled, hsound⟩ := h.idled hstirred hidle
    have hv' := hidled.step.variant_ne_none h.hush hv
    exact ih hsound hv' (hidled.step.unclaimed h.hush hv nofun hclaim).1

/-- What is known of the alarms that go off one after the other from the game `g`, with their calls
and what they lead to: once one of them is called no claim is left that another could be of. -/
structure Brief (g : Game) (ks : List Call) (result : Except Fault Game) : Prop where
  /-- One alarm is called at most. -/
  single : Single ks
  /-- None is called without a claim. -/
  unclaimed : g.claim? = none → ks = []
  /-- After a call there is no claim. -/
  after : ∀ g', result = .ok g' → g'.AtRest ∧ (g.claim? = none ∨ ks ≠ [] → g'.claim? = none)

namespace Brief

/-- Nothing happens. -/
theorem refl (h : g.AtRest) : Brief g [] (.ok g) where
  single := .none
  unclaimed _ := rfl
  after g' hg' := by
    cases hg'
    exact ⟨h, fun hnone => hnone.resolve_right fun hne => hne rfl⟩

/-- It does not matter what the clock shows. -/
theorem of_venue {result : Except Fault Game} (venue : Venue)
    (h : Brief { g with venue } ks result) : Brief g ks result :=
  { h with }

/-- Some alarms go off after others, as long as those meet no fault. -/
theorem append {result : Except Fault Game} {later : List Call} {next : Game → Except Fault Game}
    (h : Brief g ks result) (hok : ∀ g', result = .ok g' → Brief g' later (next g'))
    (herror : ∀ cause, result = .error cause → later = []) :
    Brief g (ks ++ later) (result >>= next) := by
  cases result with
  | error cause =>
    rw [herror cause rfl, List.append_nil]
    exact ⟨h.single, h.unclaimed, nofun⟩
  | ok g₁ =>
    obtain ⟨-, hclaim⟩ := h.after g₁ rfl
    obtain ⟨hsingle, hunclaimed, hafter⟩ := hok g₁ rfl
    by_cases hks : ks = []
    · subst hks
      refine ⟨hsingle, fun hnone => hunclaimed (hclaim (.inl hnone)), fun g' hg' => ?_⟩
      refine ⟨(hafter g' hg').1, fun hnone => (hafter g' hg').2 ?_⟩
      exact hnone.imp_left fun hnone => hclaim (.inl hnone)
    · -- After a call the later alarms are ignored.
      have hnone := hclaim (.inr hks)
      rw [hunclaimed hnone, List.append_nil]
      refine ⟨h.single, h.unclaimed, fun g' hg' => ?_⟩
      exact ⟨(hafter g' hg').1, fun _ => (hafter g' hg').2 (.inl hnone)⟩

end Brief

/-- An alarm is called at most once, and only if a claim waits for it. -/
theorem AtRest.expire_brief (h : g.AtRest) (id : AlarmId) :
    Brief g (g.expireCalls id) (g.expire id) := by
  by_cases hcalled : ∃ c below, g.stack.frames = .claim c :: below ∧ c.alarm = some id
  · obtain ⟨c, below, hf, hid⟩ := hcalled
    have hover := h.isOver_eq_false hf nofun
    have hnone : g.overAlarm ≠ some id := fun halarm =>
      Bool.false_ne_true (hover.symm.trans (h.overAlarm (halarm ▸ nofun)))
    obtain ⟨x, hresolve, hgrant⟩ := h.resolve_eq hf { c with alarm := none } rfl rfl
    have hstep : Step g (.alarm id) x := .timeOut hf hid hgrant
    have hcalls : g.expireCalls id = ⟨g, .alarm id, x⟩ :: x.settleCalls := by
      unfold expireCalls Stack.top?
      rw [if_neg hnone, hf, List.head?_cons]
      dsimp only
      rw [if_pos hid, hresolve]
      rfl
    have hsound := hstep.sound h.toSound h.still hover
    rw [hcalls]
    refine ⟨.event h rfl hsound, fun hclaim => absurd hf (h.top_ne_claim hclaim), fun g' hg' => ?_⟩
    rw [h.expire_alarm hf hid, hresolve, ok_bind] at hg'
    obtain ⟨-, hsettles⟩ := hstep.settles h hover hg'
    have hv := hstep.variant_ne_none h.toSound (h.variant_ne_none hf nofun)
    have hrests := hstep.settle_rests h hover
    rw [hg'] at hrests
    exact ⟨hrests.1, fun _ => hsettles.unclaimed hsound hv (h.claim?_of_timeOut hf hstep)⟩
  · -- The alarm is that of the end, or is ignored.
    have hcalls : g.expireCalls id = [] := by
      unfold expireCalls
      split
      next => rfl
      next =>
        split
        next c htop =>
          obtain ⟨below, hf⟩ := List.head?_eq_some_iff.1 htop
          exact if_neg fun hid => hcalled ⟨c, below, hf, hid⟩
        next => rfl
    rw [hcalls]
    refine ⟨.none, fun _ => rfl, fun g' hg' => ⟨h.feed (i := .expire id) hg', fun hnone => ?_⟩⟩
    have hclaim := hnone.resolve_right fun hne => hne rfl
    rw [claim?, h.frames_of_expire (fun c below => h.top_ne_claim hclaim) hg']
    exact hclaim

/-- Of several alarms at most one is called. -/
theorem AtRest.expireAll_brief (h : g.AtRest) (due : List AlarmId) :
    Brief g (g.expireAllCalls due) (due.foldlM (fun g id => g.expire id) g) := by
  induction due generalizing g with
  | nil => exact .refl h
  | cons id due ih =>
    rw [List.foldlM_cons, expireAllCalls]
    refine (h.expire_brief id).append (fun g' hg' => ?_) fun cause hcause => by rw [hcause]
    rw [hg']
    exact ih (h.feed (i := .expire id) hg')

/-- While time passes at most one alarm is called. -/
theorem AtRest.advanceIn_brief (h : g.AtRest) (fuel time : Nat) :
    Brief g (advanceInCalls fuel time g) (advanceIn fuel time g) := by
  induction fuel generalizing g time with
  | zero => exact .refl h
  | succ fuel ih =>
    unfold advanceInCalls advanceIn
    cases hdue : g.venue.advance time with
    | error cause => exact ⟨.none, fun _ => rfl, fun _ hx => by cases hx⟩
    | ok advanced =>
      obtain ⟨due, venue⟩ := advanced
      have hlater := h.of_venue venue
      rw [ok_bind]
      dsimp only
      split
      next => exact .of_venue venue (.refl hlater)
      next =>
        have hall := hlater.expireAll_brief due
        refine .of_venue venue (hall.append (fun g' hg' => ?_) fun cause hcause => by rw [hcause])
        rw [hg']
        exact ih (hall.after g' hg').1 0

/-- Every input has at most one press or alarm called. -/
theorem AtRest.feedCalls_single (h : g.AtRest) (i : Input) : Single (g.feedCalls i) := by
  cases i with
  | press seat data => exact h.pressCalls_single seat data
  | expire id => exact (h.expire_brief id).single
  | advance time => exact (h.advanceIn_brief _ time).single

namespace Single

/-- After a press or an alarm no more than four frames go on by themselves. -/
theorem countP_isIdle_le (h : Single ks) : ks.countP (·.isIdle) ≤ 4 := by
  cases h with
  | none => exact Nat.zero_le 4
  | @event x y cause hrest hcause hsound =>
    have hcalled : ¬ (⟨x, cause, y⟩ : Call).isIdle = true := by
      rw [Call.isIdle, hcause]
      exact Bool.false_ne_true
    rw [List.countP_cons_of_neg hcalled]
    calc y.settleCalls.countP (·.isIdle) ≤ y.settleCalls.length := List.countP_le_length
      _ ≤ stamina y.stack.frames := length_settleInCalls_le hsound _
      _ ≤ 4 := stamina_le _

/-- After a press or an alarm nothing stirs any more once frames have gone on four times. -/
theorem settle_eq_settleIn (h : Single ks) (hk : k ∈ ks) (hcalled : k.isIdle = false)
    (hfuel : 4 ≤ fuel) : k.after.settle = settleIn fuel k.after := by
  cases h with
  | none => cases hk
  | @event x y cause hrest hcause hsound =>
    rcases List.mem_cons.1 hk with rfl | hk
    · have hdepth := hsound.shape.stamina_le_depth
      have hfour := stamina_le y.stack.frames
      exact settleIn_eq_settleIn hsound (fun _ => hdepth) fun _ => Nat.le_trans hfour hfuel
    · cases (isIdle_of_mem_settleInCalls hk).symm.trans hcalled

end Single

/-! ## Alarms of claims that wait -/

/-- The alarm of the claim on top is set, or among those that are due. -/
def Armed (g : Game) (due : List AlarmId) : Prop :=
  ∀ c below id, g.stack.frames = .claim c :: below → c.alarm = some id →
    g.venue.alarms.isPending id = true ∨ id ∈ due

/-- A claim on top has a new alarm after an input, unless it has only been accepted by somebody. -/
theorem Step.armed (h : g.AtRest) (hg : g.Armed due) (hstep : Step g cause x)
    (hcause : cause.isIdle = false) (hsound : x.Sound) (hsettles : Settles x g') :
    g'.Armed due := by
  intro c below id hf' hid
  rcases hsettles.posts hsound hf' with rfl | hposts
  · have hne : cause ≠ .idle := by
      rintro rfl
      cases hcause
    obtain ⟨v, ms, _, hf, hdeal⟩ | ⟨ms, _, -, -, rfl⟩ | ⟨c', _, seat, hf, -, rfl⟩ :=
      hstep.of_still hne hsettles.still
    · obtain ⟨built, ms', -, rfl⟩ := h.of_deal hf hdeal
      cases hf'
    · exact hg c below id hf' hid
    · cases hf'
      exact hg _ _ id hf hid
  · obtain ⟨id', hid', -, hset⟩ := hposts.alarm
    cases hid.symm.trans hid'
    exact .inl (List.any_eq_true.2 ⟨_, hset, beq_self_eq_true id⟩)

/-- Once an alarm has gone off it is not that of the claim on top. -/
theorem AtRest.expire_armed (h : g.AtRest) (hg : g.Armed (id :: due))
    (hexpire : g.expire id = .ok g') : g'.Armed due := by
  by_cases hcalled : ∃ c below, g.stack.frames = .claim c :: below ∧ c.alarm = some id
  · obtain ⟨c, below, hf, hid⟩ := hcalled
    obtain ⟨x, hstep, hsettle⟩ := h.expire_step hf hid
    obtain ⟨hsound, hsettles⟩ :=
      hstep.settles h (h.isOver_eq_false hf nofun) (hsettle.symm.trans hexpire)
    have hv := hstep.variant_ne_none h.toSound (h.variant_ne_none hf nofun)
    have hnone := hsettles.unclaimed hsound hv (h.claim?_of_timeOut hf hstep)
    have hrest' : g'.AtRest := h.feed (i := .expire id) hexpire
    exact fun c' below' id' hf' => absurd hf' (hrest'.top_ne_claim hnone)
  · rcases expire_cases h hexpire with ⟨halarm, rfl⟩ | rfl | ⟨x, hstep, -⟩
    · intro c below id' hf
      cases (h.isOver_eq_false hf nofun).symm.trans (h.overAlarm (halarm ▸ nofun))
    · intro c below id' hf hid'
      refine (hg c below id' hf hid').imp_right fun hdue => ?_
      exact (List.mem_cons.1 hdue).resolve_left fun heq => hcalled ⟨c, below, hf, heq ▸ hid'⟩
    · cases hstep with
      | timeOut hf hid => exact absurd ⟨_, _, hf, hid⟩ hcalled

/-- When the clock moves on, the alarm of the claim on top stays set, or it is due. -/
theorem Armed.of_advance {time : Nat} {venue : Venue} (hg : g.Armed [])
    (hdue : g.venue.advance time = .ok (due, venue)) : Armed { g with venue } due := by
  intro c below id hf hid
  have hset := (hg c below id hf hid).resolve_right List.not_mem_nil
  obtain ⟨⟨id', time'⟩, hmem, heq⟩ := List.any_eq_true.1 hset
  cases beq_iff_eq.1 heq
  refine (Venue.due_or_kept hdue hmem).symm.imp_left fun hkept => ?_
  exact List.any_eq_true.2 ⟨_, hkept.1, heq⟩

/-- In a reachable game the alarm of a claim that waits is set. -/
theorem Reachable.armed (h : Reachable g) : g.Armed [] := by
  refine h.due_induction (fun _ _ _ _ hrest hg hexpire => hrest.expire_armed hg hexpire)
    (fun _ _ _ _ hg hdue => hg.of_advance hdue)
    (fun names s entropy g hstart c below id hf => ?_)
    (fun g g' seat data hrest hg hpress => ?_) fun g id hg c below id' hf hid => ?_
  · rcases (rests_of_start hstart).2 with hf₀ | hf₀
    · cases hf₀.symm.trans hf
    · cases hf₀.symm.trans hf
  · rcases press_cases hrest hpress with ⟨rfl, -⟩ | ⟨m, x, -, -, -, hstep, hsound, hsettles⟩
    · exact hg
    · exact hstep.armed hrest hg rfl hsound hsettles
  · exact (hg c below id' hf hid).imp_right fun hdue => absurd hdue List.not_mem_nil

/-! ## Whom a game waits for -/

/-- The frame `f`, being on top, needs somebody: it has a question with more than one answer. -/
def Needs (g : Game) : Frame → Prop
  | .turn => g.isAlive g.current = true
  | .variantChoice => g.variant = none
  | .loss seat => g.livingCards seat = 2
  | .claim c => (∃ id, c.alarm = some id ∧ g.venue.alarms.isPending id = true) ∧
      g.isAccepted c = false
  | .reveal r => g.isAlive r.challenged = true ∧
      (r.inverted = false → g.livingCards r.challenged = 2)
  | .interrogation i => i.shown = none → g.livingCards i.target = 2
  | .exchange e => e.hand.length < handSize

/-- A living player with a choice has two living cards. -/
theorem Sound.livingCards_eq (h : g.Sound) (hv : g.variant ≠ none)
    (hlives : g.isAlive seat = true) (hchoice : g.HasChoice seat) : g.livingCards seat = 2 := by
  obtain ⟨p, hp⟩ := exists_player (lt_of_isAlive hlives)
  have hcount : g.livingCards seat = p.livingCount := by
    rw [livingCards, hp]
    rfl
  have hpos : 0 < p.livingCount := by
    rw [← Player.isAlive_iff_livingCount, ← isAlive_eq hp]
    exact hlives
  have hone := hchoice p hp
  have hsum := p.livingCount_add_deadCount
  rw [h.length_hand hv hp, handSize] at hsum
  omega

/-- A game at rest needs somebody, as long as the alarm of a claim that waits is set. -/
theorem AtRest.needs (h : g.AtRest) (harmed : g.Armed []) :
    ∃ f below, g.stack.frames = f :: below ∧ g.Needs f := by
  obtain ⟨frames, hf⟩ : ∃ frames, g.stack.frames = frames := ⟨_, rfl⟩
  rw [hf]
  cases h.shape_of hf with
  | turn => exact ⟨_, _, rfl, h.waiting _ _ hf⟩
  | variantChoice hv => exact ⟨_, _, rfl, hv⟩
  | loss hlives | upheld _ _ _ _ hlives =>
    have hv := h.variant_ne_none hf nofun
    exact ⟨_, _, rfl, h.livingCards_eq hv hlives (h.waiting _ _ hf)⟩
  | exchange _ hhand => exact ⟨_, _, rfl, hhand⟩
  | interrogation _ _ hlives =>
    have hv := h.variant_ne_none hf nofun
    exact ⟨_, _, rfl, fun hshown => h.livingCards_eq hv hlives (h.waiting _ _ hf hshown)⟩
  | asked =>
    obtain ⟨halarm, hopen⟩ := h.waiting _ _ hf
    obtain ⟨id, hid⟩ := Option.ne_none_iff_exists'.1 halarm
    have hset := (harmed _ _ id hf hid).resolve_right List.not_mem_nil
    exact ⟨_, _, rfl, ⟨id, hid, hset⟩, hopen⟩
  | challenged =>
    have hv := h.variant_ne_none hf nofun
    have hlives := (h.shape_of hf).isAlive_challenged
    exact ⟨_, _, rfl, hlives, fun hplain => h.livingCards_eq hv hlives (h.waiting _ _ hf hplain)⟩

/-! ## The result -/

/-- Whatever comes into a reachable game, no more than four frames go on by themselves: it makes no
difference if more were allowed to after the press or the alarm that is called. Then nothing stirs
any more and the frame on top needs somebody, unless an alarm would have to be set beyond the end of
the clock. -/
theorem Reachable.comes_to_rest (h : Reachable g) (i : Input) :
    (g.feedCalls i).countP (·.isIdle) ≤ 4 ∧
    (∀ k ∈ g.feedCalls i, k.isIdle = false →
      ∀ fuel, 4 ≤ fuel → k.after.settle = settleIn fuel k.after) ∧
    ((∃ g', g.feed i = .ok g' ∧ g'.stirred = false ∧
        ∃ f below, g'.stack.frames = f :: below ∧ g'.Needs f) ∨
      g.feed i = .error .clockOverflow ∧
        clockEnd ≤ g.venue.alarms.now + i.duration + g.waitTime) := by
  have hsingle := h.atRest.feedCalls_single i
  refine ⟨hsingle.countP_isIdle_le, fun k hk hcalled fuel => hsingle.settle_eq_settleIn hk hcalled,
    ?_⟩
  have hrests := feed_rests h.atRest i
  cases hfeed : g.feed i with
  | ok g' =>
    rw [hfeed] at hrests
    have hrest : g'.AtRest := hrests
    exact .inl ⟨g', rfl, hrest.still, hrest.needs (h.fed hfeed).armed⟩
  | error cause =>
    rw [hfeed] at hrests
    obtain ⟨rfl, hclock⟩ := hrests
    exact .inr ⟨rfl, hclock⟩

/-- Ada and Bob have one card each, and Bob challenges the theft of a proven captain. Ada's captain
is revealed without asking, Bob loses the last card, Ada takes the coins, and the last turn passes
on. -/
theorem comes_to_rest_stolen : ∃ g g',
    playOut ["Ada", "Bob"]
        { seed := some 0, startPlayer := some 0, variant := some .classic,
          cardOverrides := [.contessa, .captain, .contessa, .contessa] }
        [.press 0 "tax", .press 1 "challenge", .press 0 "reveal:0", .press 1 "tax",
          .press 0 "challenge", .press 1 "reveal:0", .press 0 "steal:1"] = some g ∧
      (g.feedCalls (.press 1 "challenge")).countP (·.isIdle) = 4 ∧
      g.feed (.press 1 "challenge") = .ok g' ∧ g'.stirred = false ∧
      ∃ f below, g'.stack.frames = f :: below ∧ g'.Needs f := by
  have hrun : ((playOut ["Ada", "Bob"]
      { seed := some 0, startPlayer := some 0, variant := some .classic,
        cardOverrides := [.contessa, .captain, .contessa, .contessa] }
      [.press 0 "tax", .press 1 "challenge", .press 0 "reveal:0", .press 1 "tax",
        .press 0 "challenge", .press 1 "reveal:0", .press 0 "steal:1"]).bind fun g =>
          (g.feed (.press 1 "challenge")).toOption.map fun _ =>
            (g.feedCalls (.press 1 "challenge")).countP (·.isIdle)) = some 4 := by
    decide +kernel
  obtain ⟨g, g', hg, hfeed, hfour⟩ := exists_of_playOut hrun
  obtain ⟨-, -, hrest⟩ := (reachable_of_playOut hg).comes_to_rest (.press 1 "challenge")
  rcases hrest with ⟨x, hx, hstill, hneeds⟩ | ⟨hlate, -⟩
  · cases hfeed.symm.trans hx
    exact ⟨g, g', hg, hfour, hfeed, hstill, hneeds⟩
  · cases hfeed.symm.trans hlate

end CoupTable.Game
