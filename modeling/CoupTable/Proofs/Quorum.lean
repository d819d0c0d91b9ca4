import CoupTable.Proofs.Acceptances
import CoupTable.Proofs.Alarms
import CoupTable.Proofs.Continuing

/-!
# Who has to accept a claim

A claim that waits was put to the table by the last message of some input, when nobody had accepted
it. As long as it waits after that nothing is sent, and only presses that accept it change it, so
that those have accepted it who did so since everybody was asked the last time.

`Reachable.carried_out_by_quorum` adds what comes of further acceptances: the claim goes through
with the first one that makes them complete.
-/

namespace CoupTable.Game

variable {g g' g₀ x : Game} {cause : Cause} {c : Claim} {f : Frame} {below : List Frame} {i : Input}
  {inputs inputs' past : List Input} {seat : Nat} {data : String} {id : AlarmId}

/-! ## Asking the table -/

/-- The game `g'` comes from `g` with messages of which the last one asks everybody about the claim
`c`, which nobody has accepted yet. -/
structure Asks (g : Game) (c : Claim) (g' : Game) : Prop where
  /-- Nobody has accepted. -/
  nobody : c.accepted = ∅
  /-- Everybody is asked last. -/
  prompt : ∃ ms, g'.venue.outbox
    = ⟨.everyone, g'.claimText c, claimButtons c⟩ :: ms ++ g.venue.outbox
  /-- The clock has not ended. -/
  clock : g'.venue.alarms.now < clockEnd

/-- Everybody is asked about the claim `c`, and a new alarm is set for it. -/
structure Posts (g : Game) (c : Claim) (g' : Game) : Prop extends Asks g c g' where
  /-- The alarm rings once the time to wait is over, counted from now. -/
  alarm : ∃ id, c.alarm = some id ∧ g.venue.alarms.next ≤ id ∧
    (id, g'.venue.alarms.now + g'.waitTime) ∈ g'.venue.alarms.pending

/-- Whatever step comes before it, everybody is asked and a new alarm set. -/
theorem Posts.after (h : Posts x c g') (hstep : Step g cause x) (hg : g.Sound) :
    Posts g c g' := by
  obtain ⟨⟨hnobody, ⟨ms, hms⟩, hclock⟩, id, hid, hnew, hset⟩ := h
  obtain ⟨ms', hms'⟩ := hstep.tells hg
  refine ⟨⟨hnobody, ⟨ms ++ ms', ?_⟩, hclock⟩, id, hid, ?_, hset⟩
  · rw [hms, hms', List.cons_append, List.cons_append, List.append_assoc]
  · exact Nat.le_trans (hstep.follows hg).next_le hnew

/-- A frame that goes on by itself and leaves a claim waiting asks the table about it. -/
theorem Sound.posts_of_idle (h : g.Sound) (hstill : g.stirred = false) (hover : g.isOver = false)
    (hidle : g.idle = .ok g') (hstill' : g'.stirred = false)
    (hf' : g'.stack.frames = .claim c :: below) : Posts g c g' := by
  have hidled := idle_idled h hstill hover
  rw [hidle] at hidled
  have hstep : Step g .idle g' := Idled.step hidled
  cases hstep with
  | pass hf | finish hf => cases hf.symm.trans hf'
  | askSomebody hf _ hclaim => exact absurd (List.cons.inj (hf.symm.trans hf')).1 (hclaim c)
  | unopposed _ _ hgrant => cases (hgrant.stirred_eq rfl).symm.trans hstill'
  | answerLast _ _ _ _ hanswer => cases hanswer.stirred_eq.symm.trans hstill'
  | dropDead | loseAll => cases hstill'
  | showOnly => cases hf'
  | @ask c₀ below₀ ms hf ha =>
    cases hf'
    -- The claim is put to the table, and the last message is the one that asks everybody.
    have hask : g.idle = g.claimIdle c₀ := by
      unfold Game.idle Stack.top?
      rw [hf]
      rfl
    by_cases hclock : g.venue.alarms.now + g.waitTime < clockEnd
    · rw [hask, claimIdle_eq hf ha hclock] at hidle
      have hsent := congrArg (·.venue.outbox) (Except.ok.inj hidle)
      refine ⟨⟨rfl, ⟨[], hsent.symm.trans ?_⟩, ?_⟩, _, rfl, Nat.le_refl _, ?_⟩
      · exact congrArg (_ :: ·) (outbox_release _)
      · have hnow : (g.venue.release c₀.alarm).alarms.now < clockEnd := by
          rw [Venue.now_release]
          exact Nat.lt_of_le_of_lt (Nat.le_add_right ..) hclock
        exact hnow
      · refine List.mem_append_right _ (List.mem_singleton.2 ?_)
        rw [Venue.next_release]
        rfl
    · rw [hask, claimIdle_eq_error hf ha (Nat.not_lt.1 hclock)] at hidle
      cases hidle

/-- A game that settles with a claim waiting had settled already, or everybody is asked about the
claim. -/
theorem Settles.posts (hsettles : Settles g g') (h : g.Sound)
    (hf' : g'.stack.frames = .claim c :: below) : g' = g ∨ Posts g c g' := by
  induction hsettles with
  | rest => exact .inl rfl
  | @go g x g' hstirred hidle hsettles ih =>
    right
    have hover := h.isOver_of_stirred hstirred
    obtain ⟨hidled, hsound⟩ := h.idled hstirred hidle
    rcases ih hsound hf' with rfl | hposts
    · exact { h.hush.posts_of_idle rfl hover hidle hsettles.still hf' with }
    · exact { hposts.after hidled.step h.hush with }

/-! ## Inputs while a claim waits -/

/-- Without a claim on top an alarm leaves the frames as they are. -/
theorem AtRest.frames_of_expire (h : g.AtRest)
    (hclaim : ∀ c below, g.stack.frames ≠ .claim c :: below) (hexpire : g.expire id = .ok g') :
    g'.stack.frames = g.stack.frames := by
  rcases expire_cases h hexpire with ⟨-, rfl⟩ | rfl | ⟨x, hstep, -⟩
  · rfl
  · rfl
  · cases hstep with
    | timeOut hf => exact absurd hf (hclaim _ _)

/-- While a claim waits an alarm is ignored, or the claim goes through and there is none any more.
-/
theorem AtRest.expire_claimed (h : g.AtRest) (hf : g.stack.frames = .claim c :: below)
    (hclock : g.venue.alarms.now < clockEnd) (hexpire : g.expire id = .ok g') :
    g' = g ∨ g'.claim? = none := by
  rcases expire_cases h hexpire with ⟨halarm, -⟩ | rfl | ⟨x, hstep, -⟩
  · cases (h.isOver_eq_false hf nofun).symm.trans (h.overAlarm (halarm ▸ nofun))
  · exact .inl rfl
  · right
    cases hstep with
    | timeOut hf' hid =>
      cases hf.symm.trans hf'
      obtain ⟨y, -, -, hclaim, hall⟩ := h.resolve_settles hf hclock
      obtain ⟨y', hy', halike⟩ := hall g.venue.alarms rfl hclock
      rw [h.expire_alarm hf hid] at hexpire
      cases hy'.symm.trans hexpire
      cases halike
      exact hclaim

/-- The passing of time leaves a claim that still waits as it is, and tells nobody anything. -/
theorem AtRest.advance_claimed {time : Nat} (h : g.AtRest)
    (hclock : ∀ c below, g.stack.frames = .claim c :: below → g.venue.alarms.now < clockEnd)
    (hadvance : g.advance time = .ok g') (hf' : g'.stack.frames = .claim c :: below) :
    ∃ a, g' = g.withAlarms a ∧ a.now < clockEnd := by
  -- Either only the clock and the alarms have changed so far, or no claim is on top, in which case
  -- no alarm can bring one up.
  let P (x : Game) : Prop := (∃ a, x = g.withAlarms a ∧ a.now < clockEnd) ∨
    ∀ c below, x.stack.frames ≠ .claim c :: below
  have hg : P g := by
    by_cases hclaim : ∃ c below, g.stack.frames = .claim c :: below
    · obtain ⟨c, below, hf⟩ := hclaim
      exact .inl ⟨g.venue.alarms, rfl, hclock c below hf⟩
    · exact .inr fun c below hf => hclaim ⟨c, below, hf⟩
  have hvenue : ∀ x time due venue, P x → x.venue.advance time = .ok (due, venue) →
      P { x with venue } := by
    intro x time due venue hx hdue
    rcases hx with ⟨a, rfl, hnow⟩ | hclaim
    · obtain ⟨b, rfl, hnow'⟩ := Venue.eq_of_advance hdue
      exact .inl ⟨b, rfl, hnow'⟩
    · exact .inr hclaim
  have hexpire : ∀ x x' id, x.AtRest → P x → x.expire id = .ok x' → P x' := by
    intro x x' id hrest hx hexpire
    by_cases hclaim : ∃ c below, x.stack.frames = .claim c :: below
    · obtain ⟨c, below, hf⟩ := hclaim
      rcases hx with ⟨a, rfl, hnow⟩ | hno
      · rcases hrest.expire_claimed hf hnow hexpire with rfl | hnone
        · exact .inl ⟨a, rfl, hnow⟩
        · have hrest' : x'.AtRest := hrest.feed (i := .expire id) hexpire
          exact .inr fun c below => hrest'.toSound.top_ne_claim hnone
      · exact absurd hf (hno c below)
    · have hclaim : ∀ c below, x.stack.frames ≠ .claim c :: below := fun c below hf =>
        hclaim ⟨c, below, hf⟩
      exact .inr fun c below => (hrest.frames_of_expire hclaim hexpire) ▸ hclaim c below
  rcases advanceIn_induction hvenue hexpire h hg hadvance with hsame | hno
  · exact hsame
  · exact absurd hf' (hno c below)

/-- What an input does that leaves a claim waiting: everybody is asked about the claim after a
press, or it had been waiting before, and nothing happened to it but that somebody may have accepted
it. -/
inductive Keeps (g : Game) (i : Input) (c : Claim) (below : List Frame) (g' : Game) : Prop where
  /-- Everybody is asked. -/
  | asks (h : Posts g c g') (hpress : ∃ seat data, i = .press seat data) : Keeps g i c below g'
  /-- The claim had been waiting. -/
  | waits {c₀ : Claim} (hf : g.stack.frames = .claim c₀ :: below)
      (hc : c = c₀.acceptedBy (g.acceptors [i])) (hseats : g'.players.length = g.players.length)
      (houtbox : g'.venue.outbox = g.venue.outbox) (hnow : g'.venue.alarms.now < clockEnd) :
    Keeps g i c below g'

/-- An input by which nobody accepts keeps a claim that it leaves as it was. -/
theorem Keeps.same (hf : g.stack.frames = .claim c :: below) (hi : g.acceptors [i] = [])
    (hnow : g.venue.alarms.now < clockEnd) : Keeps g i c below g :=
  .waits hf (by rw [hi]; rfl) rfl rfl hnow

section Waiting

variable (h : g.AtRest) (hf' : g'.stack.frames = .claim c :: below)
  (hclock : ∀ c below, g.stack.frames = .claim c :: below → g.venue.alarms.now < clockEnd)
include h hf'

/-- A press that is a step, and after which a claim waits, asks everybody about the claim, unless it
is an acceptance. -/
theorem Step.posts {m : Move} (hstep : Step g (.press seat m) x) (hover : g.isOver = false)
    (haccept : m ≠ .accept) (hsettles : Settles x g') : Posts g c g' := by
  have hsound := hstep.sound h.toSound h.still hover
  rcases hsettles.posts hsound hf' with rfl | hposts
  · -- Nothing stirs after the step, which is so only where somebody is asked for a target.
    obtain ⟨v, ms, _, hf, hdeal⟩ | ⟨ms, _, hf, -, rfl⟩ | ⟨_, _, _, -, hcause, -⟩ :=
      hstep.of_still nofun hsettles.still
    · obtain ⟨built, ms', -, rfl⟩ := h.of_deal hf hdeal
      cases hf'
    · cases hf.symm.trans hf'
    · injection hcause with _ hm
      exact absurd hm haccept
  · exact hposts.after hstep h.toSound

include hclock

/-- A press that leaves a claim waiting keeps it. -/
theorem AtRest.press_keeps (hpress : g.press seat data = .ok g') :
    Keeps g (.press seat data) c below g' := by
  have hsame : g' = g → g.acceptors [.press seat data] = [] →
      Keeps g (.press seat data) c below g' := by
    rintro rfl hnone
    exact .same hf' hnone (hclock c below hf')
  -- An acceptance adds a seat or carries the claim out. Any other press that leaves a claim on top
  -- has the table asked.
  by_cases haccept : Move.parse? data = some .accept ∧ seat < g.players.length
  · obtain ⟨hdata, hseat⟩ := haccept
    by_cases hclaim : ∃ c₀ below₀, g.stack.frames = .claim c₀ :: below₀
    · obtain ⟨c₀, below₀, hf⟩ := hclaim
      have hnow := hclock c₀ below₀ hf
      rw [h.press_accept hf hdata hseat] at hpress
      split at hpress
      · -- The claim goes through, and there is none any more.
        obtain ⟨y, hy, hrest, hnone, -⟩ := h.resolve_settles hf hnow
        cases hy.symm.trans hpress
        exact absurd hf' (hrest.toSound.top_ne_claim hnone)
      · cases hpress
        cases hf'
        exact .waits hf (by rw [acceptors_press hdata hseat]) rfl rfl hnow
    · have hclaim : ∀ {c below}, g.stack.frames ≠ .claim c :: below := fun {c below} hf =>
        hclaim ⟨c, below, hf⟩
      rcases press_cases h hpress with ⟨rfl, -⟩ | ⟨m, x, hparse, -, -, hstep, -⟩
      · exact absurd hf' hclaim
      · cases hdata.symm.trans hparse
        cases hstep with
        | accept hf | acceptLast hf => exact absurd hf hclaim
        | claim _ _ _ hm => cases hm
        | askTarget _ hm => cases hm
  · have hnone := acceptors_press_of_not haccept
    rcases press_cases h hpress with ⟨heq, -⟩ | ⟨m, x, hparse, hover, -, hstep, -, hsettles⟩
    · exact hsame heq hnone
    · by_cases hseat : seat < g.players.length
      · refine .asks (hstep.posts h hf' hover (fun hm => ?_) hsettles) ⟨seat, data, rfl⟩
        exact haccept ⟨hm ▸ hparse, hseat⟩
      · have heq := (press_eq_of_le (Nat.not_lt.1 hseat) data).symm.trans hpress
        exact hsame (Except.ok.inj heq).symm hnone

/-- An input that leaves a claim waiting keeps it. -/
theorem AtRest.feed_keeps (hfeed : g.feed i = .ok g') : Keeps g i c below g' := by
  cases i with
  | press seat data => exact h.press_keeps hf' hclock hfeed
  | expire id =>
    have hrest : g'.AtRest := h.feed (i := .expire id) hfeed
    by_cases hclaim : ∃ c₀ below₀, g.stack.frames = .claim c₀ :: below₀
    · obtain ⟨c₀, below₀, hf⟩ := hclaim
      rcases h.expire_claimed hf (hclock c₀ below₀ hf) hfeed with rfl | hnone
      · exact .same hf' rfl (hclock c below hf')
      · exact absurd hf' (hrest.toSound.top_ne_claim hnone)
    · have hframes := h.frames_of_expire (fun c₀ below₀ hf => hclaim ⟨c₀, below₀, hf⟩) hfeed
      exact absurd ⟨c, below, hframes.symm.trans hf'⟩ hclaim
  | advance time =>
    obtain ⟨a, rfl, hnow⟩ := h.advance_claimed hclock hfeed hf'
    exact .waits hf' rfl rfl rfl hnow

end Waiting

/-! ## Since the table was asked -/

/-- The claim `c` lies on top of the frames `below`, and the last thing that happened in a reachable
game was that everybody was asked about it, when nobody had accepted. -/
structure JustAsked (g : Game) (c : Claim) (below : List Frame) : Prop where
  /-- The claim is on top. -/
  frames : g.stack.frames = .claim c :: below
  /-- Everybody is asked. -/
  asks : ∃ g₀ i, Reachable g₀ ∧ g₀.feed i = .ok g ∧ Asks g₀ c g

/-- The acceptances of a claim are those since everybody was asked the last time. -/
theorem Reachable.since_asked (h : Reachable g) (hf : g.stack.frames = .claim c :: below) :
    g.venue.alarms.now < clockEnd ∧
    ∃ (g₀ : Game) (past : List Input), g₀.JustAsked { c with accepted := ∅ } below ∧
      g₀.feedAll past = .ok g ∧
      g.venue.outbox = g₀.venue.outbox ∧
      c = Claim.acceptedBy { c with accepted := ∅ } (g.acceptors past) := by
  induction h generalizing c below with
  | started hstart =>
    rcases (rests_of_start hstart).2 with hf₀ | hf₀
    · cases hf₀.symm.trans hf
    · cases hf₀.symm.trans hf
  | @fed g g' i hg hfeed ih =>
    cases hg.atRest.feed_keeps hf (fun c below hf => (ih hf).1) hfeed with
    | asks hposts =>
      -- The table has just been asked, and nobody has accepted since then.
      have hasks := hposts.toAsks
      have hself : { c with accepted := ∅ } = c := by rw [← hasks.nobody]
      refine ⟨hasks.clock, g', [], ?_, rfl, rfl, hself.symm⟩
      rw [hself]
      exact ⟨hf, g, i, hg, hfeed, hasks⟩
    | @waits c₀ hf₀ hc hseats houtbox hnow =>
      -- The table was asked before, and who accepts by this input comes after the others.
      obtain ⟨-, g₀, past, hasked, hpast, houtbox₀, hc₀⟩ := ih hf₀
      subst hc
      refine ⟨hnow, g₀, past ++ [i], hasked, ?_, houtbox.trans houtbox₀, ?_⟩
      · rw [feedAll_append, hpast, ok_bind, feedAll_cons, hfeed]
        rfl
      · have hacceptors : g'.acceptors (past ++ [i]) = g.acceptors past ++ g.acceptors [i] := by
          rw [← acceptors_append, acceptors, hseats, ← acceptors]
        rw [hacceptors, acceptedBy_append]
        exact congrArg (·.acceptedBy (g.acceptors [i])) hc₀

/-! ## The quorum -/

/-- A claim that waits in a reachable game was put to the table last in the game `g₀`. Whatever
players accept it after the inputs `past` that came in since then, it waits, with nothing changed
but who has accepted, until everybody has accepted since the table was asked who could oppose it.
Then it goes through, and the game is `y` whoever else accepts. So the order of acceptances does not
matter, and the alarm of the claim leads to the same game, up to the clock and the alarms that are
set. -/
theorem Reachable.carried_out_by_quorum (h : Reachable g)
    (hf : g.stack.frames = .claim c :: below) :
    ∃ (g₀ : Game) (past : List Input) (y : Game),
      g₀.JustAsked { c with accepted := ∅ } below ∧ g₀.feedAll past = .ok g ∧
      g.venue.outbox = g₀.venue.outbox ∧
      (g.resolve c >>= settle) = .ok y ∧ (∀ c', y.stack.top? ≠ some (.claim c')) ∧
      (∀ inputs : List Input, (∀ i ∈ inputs, i.acceptor? ≠ none) → g.feedAll inputs = .ok (
        if ∀ seat ∈ g.quorum c, seat ∈ g.acceptors (past ++ inputs) then y
        else { g with stack := ⟨.claim (c.acceptedBy (g.acceptors inputs)) :: below⟩ })) ∧
      (∀ inputs inputs' : List Input, (∀ i ∈ inputs, i.acceptor? ≠ none) → inputs.Perm inputs' →
        g.feedAll inputs' = g.feedAll inputs) ∧
      ∃ id, c.alarm = some id ∧ ∀ now pending, now < clockEnd → ∃ alarms,
        (g.withAlarms { g.venue.alarms with now, pending }).expire id
          = .ok (y.withAlarms alarms) := by
  have hrest := h.atRest
  obtain ⟨hnow, g₀, past, hasked, hpast, houtbox, hc⟩ := h.since_asked hf
  obtain ⟨y, hy, hy', hnone, hall⟩ := hrest.resolve_settles hf hnow
  have hfeed := fun (inputs : List Input) (hinputs : ∀ i ∈ inputs, i.acceptor? ≠ none) =>
    hrest.feedAll_eq hf hy hy' hnone hinputs
  -- Those who have accepted already are those who did so since the table was asked.
  have hcontains : ∀ seat, c.accepted.contains seat = true ↔ seat ∈ g.acceptors past := by
    intro seat
    have haccepted : c.accepted = (g.acceptors past).foldl SeatSet.insert ∅ :=
      congrArg Claim.accepted hc
    rw [haccepted, SeatSet.contains_foldl_insert, SeatSet.contains_empty]
    simp
  have hcomplete : ∀ inputs, g.isAccepted (c.acceptedBy (g.acceptors inputs)) = true ↔
      ∀ seat ∈ g.quorum c, seat ∈ g.acceptors (past ++ inputs) := by
    intro inputs
    rw [isAccepted_acceptedBy]
    refine forall₂_congr fun seat _ => ?_
    rw [hcontains, acceptors_append, List.mem_append]
  refine ⟨g₀, past, y, hasked, hpast, houtbox, hy, ?_, ?_, ?_, ?_⟩
  · intro c' htop
    obtain ⟨rest, hf'⟩ := List.head?_eq_some_iff.1 htop
    exact hy'.toSound.top_ne_claim hnone hf'
  · intro inputs hinputs
    rw [hfeed inputs hinputs]
    exact congrArg Except.ok (if_congr (hcomplete inputs) rfl rfl)
  · intro inputs inputs' hinputs hperm
    have hinputs' : ∀ i ∈ inputs', i.acceptor? ≠ none := fun i hi =>
      hinputs i (hperm.mem_iff.2 hi)
    rw [hfeed inputs hinputs, hfeed inputs' hinputs', acceptedBy_perm hperm]
  · obtain ⟨id, hid⟩ := Option.ne_none_iff_exists'.1 (hrest.waiting _ _ hf).1
    refine ⟨id, hid, fun now pending hend => ?_⟩
    obtain ⟨y₁, hy₁, @⟨_, @⟨a, -, -, -⟩⟩⟩ := hall { g.venue.alarms with now, pending } rfl hend
    have hrest' : (g.withAlarms { g.venue.alarms with now, pending }).AtRest := hrest.of_venue _
    exact ⟨a, (hrest'.expire_alarm hf hid).trans hy₁⟩

/-- Ada's tax waits for Bob and Cid, and Bob has accepted. Ada takes her coins once Cid accepts,
whether Bob accepts again or not, and as well if the alarm goes off after a while instead. -/
theorem carried_out_by_quorum_tax : ∃ g y,
    playOut ["Ada", "Bob", "Cid"]
        { seed := some 0, startPlayer := some 0, variant := some .classic }
        [.press 0 "tax", .press 1 "accept"] = some g ∧
      g.feedAll [.press 1 "accept", .press 2 "accept"] = .ok y ∧
      g.feedAll [.press 2 "accept", .press 1 "accept"] = .ok y ∧ y.coinsOf 0 = g.coinsOf 0 + 3 ∧
      ∃ alarms, (g.withAlarms { g.venue.alarms with now := second, pending := [] }).expire 0
        = .ok (y.withAlarms alarms) := by
  have hrun : ((playOut ["Ada", "Bob", "Cid"]
      { seed := some 0, startPlayer := some 0, variant := some .classic }
      [.press 0 "tax", .press 1 "accept"]).bind fun g =>
        (g.feedAll [.press 1 "accept", .press 2 "accept"]).toOption.map fun y =>
          (g.stack.frames, g.coinsOf 0, y.coinsOf 0))
      = some ([.claim { Claim.opening 0 (Wording.tax "Ada") .tax with
          accepted := ⟨2⟩, alarm := some 0 }, .turn], 2, 5) := by
    decide +kernel
  obtain ⟨g, y, hg, hy, hrun⟩ := exists_of_playOut hrun
  simp only [Prod.mk.injEq] at hrun
  obtain ⟨hf, hcoins, hcoins'⟩ := hrun
  obtain ⟨-, past, y₀, -, -, -, -, -, hfeed, hperm, id, hid, halarm⟩ :=
    (reachable_of_playOut hg).carried_out_by_quorum hf
  have hinputs : ∀ i ∈ [Input.press 1 "accept", .press 2 "accept"], i.acceptor? ≠ none := by decide
  have hgranted := hfeed _ hinputs
  rw [hy] at hgranted
  split at hgranted
  · -- The coins have been taken.
    cases hgranted
    cases hid
    obtain ⟨alarms, hexpire⟩ := halarm second [] (by decide)
    refine ⟨g, y, hg, hy, ?_, by rw [hcoins, hcoins'], alarms, hexpire⟩
    exact (hperm _ _ hinputs (List.Perm.swap ..)).trans hy
  · cases hgranted
    cases hcoins.symm.trans hcoins'

end CoupTable.Game
