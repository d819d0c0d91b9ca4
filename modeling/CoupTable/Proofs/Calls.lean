import CoupTable.Proofs.Runs

/-!
# What the frames of a game are called for

An input calls the frame on top, and then the frames that go on by themselves are called one after
the other until the game is at rest. `Game.calls` lists these calls for a run of inputs, each with
the game before and after it, so that one can ask how often something happened on the way, and when.

`Chain` is what is known of such a list: every call takes a step or is ignored, and between two
calls nothing happens but that messages are sent, alarms are set, and time passes.
`RunsThrough.chain` has it for every run, and everything that is said about the calls of a run is an
induction on it.
-/

namespace CoupTable.Game

/-! ## The calls of a run -/

/-- One call of the frame on top of a stack. -/
structure Call where
  /-- The game before the call. -/
  before : Game
  /-- What the frame is called for. -/
  cause : Cause
  /-- The game after the call. -/
  after : Game

/-- The calls of frames that go on by themselves, as in `settleIn`. -/
def settleInCalls : Nat → Game → List Call
  | 0, _ => []
  | fuel + 1, g =>
    if g.stirred then
      match { g with stirred := false }.idle with
      | .ok g' => ⟨{ g with stirred := false }, .idle, g'⟩ :: settleInCalls fuel g'
      | .error _ => []
    else []

/-- The calls of frames that go on by themselves until nothing stirs. -/
def settleCalls (g : Game) : List Call := settleInCalls (2 * g.stack.depth + 1) g

/-- The call of a frame that comes to a result, and those that follow it until nothing stirs. -/
def callsFrom (g : Game) (cause : Cause) : Except Fault Game → List Call
  | .ok g' => ⟨g, cause, g'⟩ :: g'.settleCalls
  | .error _ => []

/-- The calls that a press leads to. -/
def pressCalls (g : Game) (seat : Nat) (data : String) : List Call :=
  if seat < g.players.length && !g.isOver then
    match Move.parse? data with
    | some m => g.callsFrom (.press seat m) (g.dispatch seat m)
    | none => []
  else []

/-- The calls that an alarm leads to. -/
def expireCalls (g : Game) (id : AlarmId) : List Call :=
  if g.overAlarm = some id then []
  else
    match g.stack.top? with
    | some (.claim c) =>
      if c.alarm = some id then
        let c := { c with alarm := none }
        g.callsFrom (.alarm id) ((g.setTop (.claim c)).resolve c)
      else []
    | _ => []

/-- The calls that several alarms lead to, one after the other. -/
def expireAllCalls (g : Game) : List AlarmId → List Call
  | [] => []
  | id :: due =>
    g.expireCalls id ++
      match g.expire id with
      | .ok g' => g'.expireAllCalls due
      | .error _ => []

/-- The calls that the passing of time leads to, as in `advanceIn`. -/
def advanceInCalls : Nat → Nat → Game → List Call
  | 0, _, _ => []
  | fuel + 1, time, g =>
    match g.venue.advance time with
    | .ok (due, venue) =>
      if due.isEmpty then []
      else
        expireAllCalls { g with venue } due ++
          match due.foldlM (fun g id => g.expire id) { g with venue } with
          | .ok g' => advanceInCalls fuel 0 g'
          | .error _ => []
    | .error _ => []

/-- The calls that an input leads to. -/
def feedCalls (g : Game) : Input → List Call
  | .press seat data => g.pressCalls seat data
  | .expire id => g.expireCalls id
  | .advance time => advanceInCalls (2 * g.stack.depth + 3) time g

/-- The calls that some inputs lead to, one after the other. -/
def calls (g : Game) : List Input → List Call
  | [] => []
  | i :: inputs =>
    g.feedCalls i ++
      match g.feed i with
      | .ok g' => g'.calls inputs
      | .error _ => []

/-- A call is among those of a run if it is among those of its first input. -/
theorem calls_cons {g g' : Game} {i : Input} {inputs : List Input} (h : g.feed i = .ok g') :
    g.calls (i :: inputs) = g.feedCalls i ++ g'.calls inputs := by
  rw [calls, h]

/-- The games before and after some calls. -/
def stages (ks : List Call) : List Game := ks.flatMap fun k => [k.before, k.after]

/-- The first call is before the others. -/
theorem stages_cons (k : Call) (ks : List Call) :
    stages (k :: ks) = k.before :: k.after :: stages ks := rfl

/-! ## Chains of calls -/

/-- Two games differ at most in the venue and in what is about to happen. -/
def Lull (g g' : Game) : Prop :=
  ∃ venue stirred overAlarm, g' = { g with venue, stirred, overAlarm }

/-- What is known of a call in a run in which only games with the property `P` take in presses. -/
structure Regular (P : Game → Prop) (k : Call) : Prop where
  /-- It is a sound game whose frame is called. -/
  sound : k.before.Sound
  /-- What happened before is taken note of. -/
  still : k.before.stirred = false
  /-- The game goes on. -/
  goesOn : k.before.isOver = false
  /-- The call is ignored, or it is a step. -/
  step : k.after = k.before ∨ Step k.before k.cause k.after
  /-- Games with the property take in presses. -/
  press : ∀ seat m, k.cause = .press seat m → P k.before

/-- The calls lead from one game to another. -/
inductive Chain (P : Game → Prop) : Game → List Call → Game → Prop where
  /-- Nothing is called. -/
  | done {g g' : Game} (h : g.Lull g') : Chain P g [] g'
  /-- One call comes before the others. -/
  | next {g g' : Game} {k : Call} {calls : List Call} (hlull : g.Lull k.before)
      (hcall : Regular P k) (h : Chain P k.after calls g') : Chain P g (k :: calls) g'

variable {P J : Game → Prop} {g g' g₁ : Game} {cause : Cause} {ks ks' : List Call} {i : Input}
  {inputs : List Input} {seat : Nat} {data : String} {id : AlarmId}

namespace Lull

/-- Nothing happens. -/
theorem refl (g : Game) : g.Lull g := ⟨g.venue, g.stirred, g.overAlarm, rfl⟩

/-- Nothing happens, and still nothing. -/
theorem trans (h : g.Lull g₁) (h' : g₁.Lull g') : g.Lull g' := by
  obtain ⟨_, _, _, rfl⟩ := h
  obtain ⟨venue, stirred, overAlarm, rfl⟩ := h'
  exact ⟨venue, stirred, overAlarm, rfl⟩

end Lull

namespace Chain

/-- A chain may begin with a lull. -/
theorem of_lull (hlull : g.Lull g₁) (h : Chain P g₁ ks g') : Chain P g ks g' := by
  cases h with
  | done h => exact .done (hlull.trans h)
  | next h hcall hrest => exact .next (hlull.trans h) hcall hrest

/-- One chain after another is a chain. -/
theorem append (h : Chain P g ks g₁) (h' : Chain P g₁ ks' g') : Chain P g (ks ++ ks') g' := by
  induction h with
  | done hlull => exact h'.of_lull hlull
  | next hlull hcall _ ih => exact .next hlull hcall (ih h')

/-- All calls of a chain are regular. -/
theorem regular (h : Chain P g ks g') {k : Call} (hk : k ∈ ks) : Regular P k := by
  induction h with
  | done => cases hk
  | next _ hcall _ ih =>
    rcases List.mem_cons.1 hk with rfl | hk
    · exact hcall
    · exact ih hk

/-- What every call and every lull keeps is kept all along a chain. -/
theorem invariant (hchain : Chain P g ks g') (hlull : ∀ {g g'}, Lull g g' → J g → J g')
    (hcall : ∀ {k}, Regular P k → J k.before → J k.after) (hg : J g) :
    ∀ x ∈ g' :: stages ks, J x := by
  induction hchain with
  | done h => exact List.forall_mem_singleton.2 (hlull h hg)
  | @next g g' k ks h hregular _ ih =>
    have hbefore := hlull h hg
    have hafter := hcall hregular hbefore
    obtain ⟨hend, hrest⟩ := List.forall_mem_cons.1 (ih hafter)
    rw [stages_cons]
    simp only [List.forall_mem_cons]
    exact ⟨hend, hbefore, hafter, hrest⟩

end Chain

/-! ## Runs are chains -/

/-- Frames that go on by themselves make a chain. -/
theorem settleIn_chain (h : g.Sound) {fuel : Nat} (hsettle : settleIn fuel g = .ok g') :
    Chain P g (settleInCalls fuel g) g' := by
  induction fuel generalizing g with
  | zero =>
    cases hsettle
    exact .done (.refl _)
  | succ fuel ih =>
    unfold settleIn at hsettle
    unfold settleInCalls
    cases hstirred : g.stirred with
    | false =>
      rw [hstirred, if_neg Bool.false_ne_true] at hsettle
      cases hsettle
      rw [if_neg Bool.false_ne_true]
      exact .done (.refl _)
    | true =>
      have hover := h.isOver_of_stirred hstirred
      rw [hstirred, if_pos rfl] at hsettle
      rw [if_pos rfl]
      obtain ⟨g₁, hidle, hsettle⟩ := exists_ok_of_bind hsettle
      obtain ⟨hidled, hsound⟩ := h.idled hstirred hidle
      have hcall : Regular P ⟨{ g with stirred := false }, .idle, g₁⟩ :=
        ⟨h.hush, rfl, hover, .inr hidled.step, fun _ _ hpress => Cause.noConfusion hpress⟩
      rw [hidle]
      exact .next ⟨g.venue, false, g.overAlarm, rfl⟩ hcall (ih hsound hsettle)

/-- A game that settles makes a chain. -/
theorem settle_chain (h : g.Sound) (hsettle : g.settle = .ok g') : Chain P g g.settleCalls g' :=
  settleIn_chain h hsettle

/-- A press makes a chain, if the game has the property that games with presses have. -/
theorem press_chain (h : g.AtRest) (hp : P g) (hpress : g.press seat data = .ok g') :
    Chain P g (g.pressCalls seat data) g' := by
  unfold press at hpress
  unfold pressCalls
  split
  next hopen =>
    rw [if_pos hopen] at hpress
    simp only [Bool.and_eq_true, Bool.not_eq_true'] at hopen
    split
    next m hparse =>
      obtain ⟨g₁, hdispatch, hstep⟩ := dispatch_yields h seat m
      simp only [hparse, hdispatch, ok_bind] at hpress
      rw [hdispatch, callsFrom]
      have hsound : g₁.Sound := by
        rcases hstep with ⟨rfl, -⟩ | hstep
        · exact h.toSound
        · exact hstep.sound h.toSound h.still hopen.2
      -- The press is the first call, and those of the frames that go on by themselves follow.
      have hcall : Regular P ⟨g, .press seat m, g₁⟩ :=
        ⟨h.toSound, h.still, hopen.2, hstep.imp_left (·.1), fun _ _ _ => hp⟩
      exact .next (.refl g) hcall (settle_chain hsound hpress)
    next hparse =>
      rw [hparse] at hpress
      cases hpress
      exact .done (.refl _)
  next hclosed =>
    rw [if_neg hclosed] at hpress
    cases hpress
    exact .done (.refl _)

/-- An alarm makes a chain. -/
theorem expire_chain (h : g.AtRest) (hexpire : g.expire id = .ok g') :
    Chain P g (g.expireCalls id) g' := by
  unfold expire at hexpire
  unfold expireCalls
  split
  next halarm =>
    rw [if_pos halarm] at hexpire
    cases hexpire
    exact .done ⟨_, _, _, rfl⟩
  next halarm =>
    rw [if_neg halarm] at hexpire
    unfold Stack.top? at hexpire ⊢
    cases hf : g.stack.frames with
    | nil =>
      rw [hf] at hexpire
      cases hexpire
      exact .done (.refl _)
    | cons f below =>
      rw [hf] at hexpire
      cases f with
      | claim c =>
        simp only [List.head?_cons] at hexpire ⊢
        split
        next hid =>
          rw [if_pos hid] at hexpire
          -- The alarm is that of the claim on top, which goes through.
          have hover := h.isOver_eq_false hf nofun
          obtain ⟨g₁, hresolve, hgrant⟩ := h.resolve_eq hf { c with alarm := none } rfl rfl
          have hstep : Step g (.alarm id) g₁ := .timeOut hf hid hgrant
          rw [hresolve, ok_bind] at hexpire
          rw [hresolve, callsFrom]
          have hcall : Regular P ⟨g, .alarm id, g₁⟩ :=
            ⟨h.toSound, h.still, hover, .inr hstep, nofun⟩
          refine .next (.refl g) hcall ?_
          exact settle_chain (hstep.sound h.toSound h.still hover) hexpire
        next hid =>
          rw [if_neg hid] at hexpire
          cases hexpire
          exact .done (.refl _)
      | _ =>
        cases hexpire
        exact .done (.refl _)

/-- Several alarms make a chain, and lead from rest to rest. -/
theorem expireAll_chain {due : List AlarmId} (h : g.AtRest)
    (hall : due.foldlM (fun g id => g.expire id) g = .ok g') :
    Chain P g (g.expireAllCalls due) g' ∧ g'.AtRest := by
  induction due generalizing g with
  | nil =>
    cases hall
    exact ⟨.done (.refl _), h⟩
  | cons id due ih =>
    rw [List.foldlM_cons] at hall
    obtain ⟨g₁, hid, hall⟩ := exists_ok_of_bind hall
    obtain ⟨hchain, hrest⟩ := ih (h.feed (i := .expire id) hid) hall
    rw [expireAllCalls, hid]
    exact ⟨(expire_chain h hid).append hchain, hrest⟩

/-- The passing of time makes a chain. -/
theorem advanceIn_chain {fuel time : Nat} (h : g.AtRest)
    (hadvance : advanceIn fuel time g = .ok g') : Chain P g (advanceInCalls fuel time g) g' := by
  induction fuel generalizing g time with
  | zero =>
    cases hadvance
    exact .done (.refl _)
  | succ fuel ih =>
    unfold advanceIn at hadvance
    unfold advanceInCalls
    obtain ⟨⟨due, venue⟩, hdue, hadvance⟩ := exists_ok_of_bind hadvance
    have hlater : g.Lull { g with venue } := ⟨venue, g.stirred, g.overAlarm, rfl⟩
    rw [hdue]
    dsimp only at hadvance ⊢
    split
    next hnone =>
      rw [if_pos hnone] at hadvance
      cases hadvance
      exact .done hlater
    next hsome =>
      rw [if_neg hsome] at hadvance
      obtain ⟨g₁, hall, hadvance⟩ := exists_ok_of_bind hadvance
      obtain ⟨hchain, hrest⟩ := expireAll_chain (h.of_venue venue) hall
      rw [hall]
      exact (hchain.of_lull hlater).append (ih hrest hadvance)

/-- Every input makes a chain, if the game has the property that games with presses have. -/
theorem feed_chain (h : g.AtRest) (hp : P g) (hfeed : g.feed i = .ok g') :
    Chain P g (g.feedCalls i) g' := by
  cases i with
  | press seat data => exact press_chain h hp hfeed
  | expire id => exact expire_chain h hfeed
  | advance time => exact advanceIn_chain h hfeed

/-- The calls of a run are a chain. -/
theorem RunsThrough.chain (hrun : RunsThrough P g inputs g') (h : g.AtRest) :
    Chain P g (g.calls inputs) g' := by
  induction hrun with
  | done => exact .done (.refl _)
  | next hp hfeed _ ih =>
    rw [calls_cons hfeed]
    exact (feed_chain h hp hfeed).append (ih (h.feed hfeed))

end CoupTable.Game
