import CoupTable.Proofs.Faultless
import CoupTable.Proofs.Resting

/-!
# How the end of a game is reported

The last status of a game sets an alarm without delay, and when it goes off the end is reported.
Whoever sets it ends the game, so that reports and alarms that wait for one add up: to one if the
game is over, and to none before (`Tallied`). The alarm is due at once (`ReportsSoon`), and so it
goes off as soon as any time passes, be it none at all, even if the game ends while time passes.

After its end a game is `Frozen`: only the clock moves on, and the end is reported.
-/

namespace CoupTable

namespace Game

/-- The end of a game that is over is to be reported now; one that goes on has nothing to report. -/
def Rings (g : Game) : Prop :=
  (g.isOver = false ∧ g.overAlarm = none) ∨
    g.isOver = true ∧ ∃ id, g.overAlarm = some id ∧
      (id, g.venue.alarms.now) ∈ g.venue.alarms.pending

/-- The reports of the end, made or still to be made, are one if the game is over, and else none. -/
def Tallied (g : Game) : Prop :=
  g.venue.gameOvers + g.overAlarm.isSome.toNat = g.isOver.toNat

/-- If the end is to be reported, the alarm for it is set and due, or among those that go off. -/
def ReportsSoon (g : Game) (due : List AlarmId) : Prop :=
  ∀ id, g.overAlarm = some id →
    (∃ time ≤ g.venue.alarms.now, (id, time) ∈ g.venue.alarms.pending) ∨ id ∈ due

/-- The game is over, and the alarm that reports it, if it is still set, is among those that go
off. -/
def Closing (g : Game) (due : List AlarmId) : Prop :=
  g.isOver = true ∧ ∀ id, g.overAlarm = some id → id ∈ due

/-- The game `g'` is the game `g` but for the clock and its alarms and the report of the end. -/
def Frozen (g g' : Game) : Prop :=
  ∃ alarms gameOvers overAlarm, (overAlarm = g.overAlarm ∨ overAlarm = none) ∧
    g' = { g with venue := { g.venue with alarms, gameOvers }, overAlarm }

variable {g g' x : Game} {cause : Cause} {c : Claim} {r : Reveal} {effect : Effect}
  {below : List Frame} {i : Input} {inputs : List Input} {seat choice fuel time : Nat}
  {data : String} {id : AlarmId} {due : List AlarmId}

/-! ## Steps -/

/-- Taking back an alarm reports nothing. -/
theorem gameOvers_release {v : Venue} (id : Option AlarmId) :
    (v.release id).gameOvers = v.gameOvers := by
  cases id <;> rfl

/-- A claim that goes through reports nothing. -/
theorem Grant.gameOvers_eq (h : Grant g seat effect g') :
    g'.venue.gameOvers = g.venue.gameOvers := by
  cases h with
  | block | blockKill => exact gameOvers_release _
  | _ => rfl

/-- An answer reports nothing. -/
theorem Answer.gameOvers_eq (h : Answer g r c below choice g') :
    g'.venue.gameOvers = g.venue.gameOvers := by
  cases h with
  | caught | conceded => exact gameOvers_release _
  | proven | shown => rfl

/-- No step reports the end. -/
theorem Step.gameOvers_eq (h : g.Sound) (hstep : Step g cause g') :
    g'.venue.gameOvers = g.venue.gameOvers := by
  cases hstep with
  | deal hf _ hdeal =>
    obtain ⟨built, ms', -, rfl⟩ := h.of_deal hf hdeal
    rfl
  | acceptLast _ _ hgrant | unopposed _ _ hgrant =>
    exact hgrant.gameOvers_eq.trans (gameOvers_release _)
  | timeOut _ _ hgrant => exact hgrant.gameOvers_eq
  | answer _ hanswer | answerLast _ _ _ _ hanswer => exact hanswer.gameOvers_eq
  | ask | challenge | block | dropDead => exact gameOvers_release _
  | _ => rfl

/-- A game that goes on has nothing to report. -/
theorem Sound.rings (h : g.Sound) (hover : g.isOver = false) : g.Rings := by
  refine .inl ⟨hover, ?_⟩
  by_contra halarm
  cases hover.symm.trans (h.overAlarm halarm)

/-- The step that ends a game sets the alarm that reports the end. -/
theorem Step.rings (h : g.Sound) (hover : g.isOver = false) (hstep : Step g cause g') :
    g'.Rings := by
  have hnone : g.overAlarm = none := (h.rings hover).elim (·.2) fun hended => by
    cases hover.symm.trans hended.1
  rcases hstep.sameEnd_or_finish h with ⟨hsame, halarm⟩ | ⟨-, -, rfl⟩
  · exact .inl ⟨hsame.trans hover, halarm.trans hnone⟩
  · refine .inr ⟨rfl, _, rfl, ?_⟩
    exact List.mem_append_right _ (List.mem_singleton.2 rfl)

/-- What a game settles to comes up while frames go on by themselves. -/
theorem Settles.idles (hsettles : Settles g g') : Idles g g' := by
  induction hsettles with
  | rest => exact .here
  | go hstirred hidle _ ih => exact .on hstirred hidle ih

/-- Frames that go on by themselves report nothing, and if they end the game they set the alarm that
does. -/
theorem Idles.rings (hidles : Idles g x) (h : g.Sound) (hg : g.Rings) :
    x.Rings ∧ x.venue.gameOvers = g.venue.gameOvers := by
  induction hidles with
  | here => exact ⟨hg, rfl⟩
  | @on g g₁ x hstirred hidle _ ih =>
    obtain ⟨hidled, hsound⟩ := h.idled hstirred hidle
    obtain ⟨hx, hcount⟩ := ih hsound (hidled.step.rings h.hush (h.isOver_of_stirred hstirred))
    have hsame := hidled.step.gameOvers_eq h.hush
    exact ⟨hx, hcount.trans hsame⟩

/-- Before the end of a game nothing was reported. -/
theorem Tallied.gameOvers_eq_zero (hg : g.Tallied) (hover : g.isOver = false) :
    g.venue.gameOvers = 0 := by
  rw [Tallied, hover] at hg
  exact (Nat.add_eq_zero_iff.1 hg).1

/-- Where nothing was reported the tally is that of the alarm. -/
theorem Rings.tallied (hg : g.Rings) (hnone : g.venue.gameOvers = 0) : g.Tallied := by
  rcases hg with ⟨hover, halarm⟩ | ⟨hover, id, halarm, -⟩
  · rw [Tallied, hnone, hover, halarm]
    rfl
  · rw [Tallied, hnone, hover, halarm]
    rfl

/-- A step and the frames that go on after it keep the tally. -/
theorem Step.tallied (h : g.Sound) (hg : g.Tallied) (hover : g.isOver = false)
    (hstep : Step g cause g') (hsound : g'.Sound) (hidles : Idles g' x) : x.Tallied := by
  obtain ⟨hx, hcount⟩ := hidles.rings hsound (hstep.rings h hover)
  refine hx.tallied ?_
  rw [hcount, hstep.gameOvers_eq h, hg.gameOvers_eq_zero hover]

/-! ## Inputs -/

/-- Every event keeps the tally. -/
theorem Happening.tallied (h : g.AtRest) (hg : g.Tallied) (hevent : Happening g g') :
    g'.Tallied := by
  cases hevent with
  | clock hdue =>
    obtain ⟨a, rfl, -⟩ := Venue.eq_of_advance hdue
    exact hg
  | report halarm =>
    rw [Tallied, halarm] at hg
    exact hg
  | step hstep _ hover hsound hsettles =>
    exact hstep.tallied h.toSound hg hover hsound hsettles.idles

/-- In a reachable game the end was reported or is to be reported once if it is over, and else
not. -/
theorem Reachable.tallied (h : Reachable g) : g.Tallied := by
  refine h.induction (P := Tallied) (fun g g' hrest hg hevent => hevent.tallied hrest hg)
    fun names s entropy g _ hbegun => ?_
  cases hbegun <;> rfl

/-- The tally is right, too, while an input is taken in. -/
theorem Visits.tallied (hvisits : Visits g i x) (h : g.AtRest) (hg : g.Tallied) : x.Tallied := by
  have hevent : ∀ g g', g.AtRest → g.Tallied → Happening g g' → g'.Tallied :=
    fun g g' hrest hg hevent => hevent.tallied hrest hg
  have hall : ∀ {g g₁ : Game} {ids : List AlarmId} {venue : Venue}, g.AtRest →
      Tallied { g with venue } → ids.foldlM (fun g id => g.expire id) { g with venue } = .ok g₁ →
      g₁.AtRest ∧ g₁.Tallied :=
    fun hrest hg hids => expireAll_induction (P := Tallied)
      (fun _ _ _ hrest hg hexpire => hrest.expire_induction hevent hg hexpire)
      (hrest.of_venue _) hg hids
  -- The induction is on the way to the visited game. Alarms that go off before it leave a tallied
  -- game, from which the way goes on.
  induction hvisits with
  | here => exact hg
  | @press g g₁ x seat data m hover _ hdispatch hidles =>
    obtain ⟨g', hyields, ⟨rfl, -⟩ | hstep⟩ := dispatch_yields h seat m
    · cases hdispatch.symm.trans hyields
      obtain ⟨hx, hcount⟩ := hidles.rings h.toSound (h.rings hover)
      exact hx.tallied (hcount.trans (hg.gameOvers_eq_zero hover))
    · cases hdispatch.symm.trans hyields
      exact hstep.tallied h.toSound hg hover (hstep.sound h.toSound h.still hover) hidles
  | @expire g g₁ x id c below hf hid hresolve hidles =>
    obtain ⟨g', hgranted, hgrant⟩ := h.resolve_eq hf { c with alarm := none } rfl rfl
    cases hresolve.symm.trans hgranted
    have hover := h.isOver_eq_false hf nofun
    have hstep : Step g (.alarm id) g₁ := .timeOut hf hid hgrant
    exact hstep.tallied h.toSound hg hover (hstep.sound h.toSound h.still hover) hidles
  | @due g g₁ x time ids later id venue hadvance hids _ ih =>
    obtain ⟨hrest, hg₁⟩ := hall h (hevent _ _ h hg (.clock hadvance)) hids
    exact ih hrest hg₁
  | @round g g₁ x time ids venue hadvance hids _ ih =>
    obtain ⟨hrest, hg₁⟩ := hall h (hevent _ _ h hg (.clock hadvance)) hids
    exact ih hrest hg₁

/-! ## When the alarm goes off -/

/-- An end that is to be reported now is reported soon. -/
theorem Rings.reportsSoon (hg : g.Rings) : g.ReportsSoon due := by
  intro id halarm
  rcases hg with ⟨-, hnone⟩ | ⟨-, id', halarm', hset⟩
  · cases hnone.symm.trans halarm
  · cases halarm'.symm.trans halarm
    exact .inl ⟨_, Nat.le_refl _, hset⟩

/-- Once an alarm has gone off it is not the one that reports the end. -/
theorem AtRest.expire_reportsSoon (h : g.AtRest) (hg : g.ReportsSoon (id :: due))
    (hexpire : g.expire id = .ok g') : g'.ReportsSoon due := by
  by_cases halarm : g.overAlarm = some id
  · cases (if_pos halarm).symm.trans hexpire
    exact nofun
  · rcases expire_cases h hexpire with ⟨halarm', -⟩ | rfl | ⟨x, hstep, hsound, hsettles⟩
    · exact absurd halarm' halarm
    · intro id' halarm'
      refine (hg id' halarm').imp_right fun hdue => ?_
      exact (List.mem_cons.1 hdue).resolve_left fun heq => halarm (heq ▸ halarm')
    · have hrings := hstep.rings h.toSound (hstep.isOver_of_alarm h.toSound)
      exact (hsettles.idles.rings hsound hrings).1.reportsSoon

/-- When the clock moves on, the alarm that reports the end is due. -/
theorem ReportsSoon.of_advance {venue : Venue} (hg : g.ReportsSoon [])
    (hdue : g.venue.advance time = .ok (due, venue)) : ∀ id, g.overAlarm = some id → id ∈ due := by
  intro id halarm
  obtain ⟨rings, hpast, hset⟩ := (hg id halarm).resolve_right List.not_mem_nil
  exact (Venue.due_or_kept hdue hset).resolve_right fun hkept => Nat.not_le.2 hkept.2 hpast

/-- In a reachable game the alarm that reports the end is set and due. -/
theorem Reachable.reportsSoon (h : Reachable g) : g.ReportsSoon [] := by
  refine h.due_induction (J := ReportsSoon)
    (fun _ _ _ _ hrest hg hexpire => hrest.expire_reportsSoon hg hexpire)
    (fun _ _ _ _ hg hdue id halarm => .inr (hg.of_advance hdue id halarm))
    (fun names s entropy g hstart => ?_) (fun g g' seat data hrest hg hpress => ?_)
    fun g id hg id' halarm => (hg id' halarm).imp_right fun hdue => absurd hdue List.not_mem_nil
  · obtain ⟨-, hbegun⟩ := begun_of_start hstart
    cases hbegun <;> exact nofun
  · rcases press_cases hrest hpress with ⟨rfl, -⟩ | ⟨m, x, -, hover, -, hstep, hsound, hsettles⟩
    · exact hg
    · exact (hsettles.idles.rings hsound (hstep.rings hrest.toSound hover)).1.reportsSoon

/-! ## Games that are over -/

namespace Frozen

/-- A game is frozen as long as nothing happens. -/
theorem refl (g : Game) : g.Frozen g := ⟨_, _, _, .inl rfl, rfl⟩

/-- What is frozen stays so. -/
theorem trans (h : g.Frozen x) (h' : x.Frozen g') : g.Frozen g' := by
  obtain ⟨_, _, _, halarm, rfl⟩ := h
  obtain ⟨_, _, _, halarm', rfl⟩ := h'
  exact ⟨_, _, _, halarm'.elim (fun heq => halarm.imp heq.trans heq.trans) .inr, rfl⟩

/-- The game stays over. -/
theorem isOver_eq (h : g.Frozen g') : g'.isOver = g.isOver := by
  obtain ⟨_, _, _, -, rfl⟩ := h
  rfl

/-- What was reported is not reported again. -/
theorem overAlarm_eq_none (h : g.Frozen g') (hnone : g.overAlarm = none) :
    g'.overAlarm = none := by
  obtain ⟨_, _, _, halarm, rfl⟩ := h
  exact halarm.elim (·.trans hnone) fun hnone' => hnone'

end Frozen

/-- Whatever happens after the end of a game leaves it frozen. -/
theorem Happening.frozen (hover : g.isOver = true) (hevent : Happening g g') : g.Frozen g' := by
  cases hevent with
  | clock hdue =>
    obtain ⟨a, rfl, -⟩ := Venue.eq_of_advance hdue
    exact ⟨_, _, _, .inl rfl, rfl⟩
  | report => exact ⟨_, _, _, .inr rfl, rfl⟩
  | step _ _ hgoes => cases hgoes.symm.trans hover

/-- Events after the end of a game leave it frozen, one after the other. -/
theorem Frozen.event (hover : g.isOver = true) (hg : g.Frozen x) (hevent : Happening x g') :
    g.Frozen g' :=
  hg.trans (hevent.frozen (hg.isOver_eq.trans hover))

/-- An input after the end of a game leaves it frozen. -/
theorem AtRest.feed_frozen (h : g.AtRest) (hover : g.isOver = true) (hfeed : g.feed i = .ok g') :
    g.Frozen g' :=
  h.feed_induction (fun _ _ _ hg hevent => hg.event hover hevent) (.refl g) hfeed

/-- Time that passes leaves a game that is over frozen, in any number of rounds. -/
theorem AtRest.advanceIn_frozen (h : g.AtRest) (hover : g.isOver = true)
    (hadvance : advanceIn fuel time g = .ok g') : g.Frozen g' := by
  refine advanceIn_induction (fun _ _ _ _ hg hdue => hg.event hover (.clock hdue)) ?_ h (.refl g)
    hadvance
  exact fun x x' id hrest hg hexpire =>
    hrest.expire_induction (fun _ _ _ hg hevent => hg.event hover hevent) hg hexpire

/-- Once an alarm has gone off after the end of a game, it is not the one that reports the end. -/
theorem AtRest.expire_closing (h : g.AtRest) (hg : g.Closing (id :: due))
    (hexpire : g.expire id = .ok g') : g'.Closing due := by
  obtain ⟨hover, hdue⟩ := hg
  by_cases halarm : g.overAlarm = some id
  · cases (if_pos halarm).symm.trans hexpire
    exact ⟨hover, nofun⟩
  · rcases expire_cases h hexpire with ⟨halarm', -⟩ | rfl | ⟨x, hstep, -⟩
    · exact absurd halarm' halarm
    · refine ⟨hover, fun id' halarm' => ?_⟩
      exact (List.mem_cons.1 (hdue id' halarm')).resolve_left fun heq => halarm (heq ▸ halarm')
    · cases (hstep.isOver_of_alarm h.toSound).symm.trans hover

/-- With no alarm that is due and would report it, the end was reported. -/
theorem Closing.overAlarm_eq_none (hg : g.Closing []) : g.overAlarm = none :=
  Option.eq_none_iff_forall_ne_some.2 fun id halarm => List.not_mem_nil (hg.2 id halarm)

/-- When time passes after the end of a game, the end is reported. -/
theorem AtRest.advanceIn_reports (h : g.AtRest) (hover : g.isOver = true) (hg : g.ReportsSoon [])
    (hadvance : advanceIn (fuel + 1) time g = .ok g') : g'.overAlarm = none := by
  unfold advanceIn at hadvance
  obtain ⟨⟨due, venue⟩, hdue, hadvance⟩ := exists_ok_of_bind hadvance
  have hclosing : Closing { g with venue } due := ⟨hover, hg.of_advance hdue⟩
  dsimp only at hadvance
  split at hadvance
  next hnone =>
    cases hadvance
    rw [List.isEmpty_iff.1 hnone] at hclosing
    exact hclosing.overAlarm_eq_none
  next =>
    obtain ⟨g₁, hall, hadvance⟩ := exists_ok_of_bind hadvance
    obtain ⟨hrest, hclosing₁⟩ := (h.of_venue venue).expireAll_due (J := Closing)
      (fun _ _ _ _ hrest hg hexpire => hrest.expire_closing hg hexpire) hclosing hall
    have hfrozen := hrest.advanceIn_frozen hclosing₁.1 hadvance
    exact hfrozen.overAlarm_eq_none hclosing₁.overAlarm_eq_none

/-! ## Games that end while time passes -/

/-- Without a claim an alarm reports the end, or it is ignored. -/
theorem AtRest.expire_unclaimed (h : g.AtRest) (hclaim : g.claim? = none)
    (hexpire : g.expire id = .ok g') :
    g'.claim? = none ∧ g'.isOver = g.isOver ∧ g'.venue.alarms = g.venue.alarms := by
  rcases expire_cases h hexpire with ⟨-, rfl⟩ | rfl | ⟨x, hstep, -⟩
  · exact ⟨hclaim, rfl, rfl⟩
  · exact ⟨hclaim, rfl, rfl⟩
  · cases hstep with
    | timeOut hf => exact absurd hf (h.top_ne_claim hclaim)

/-- Of the alarms that go off in a game that goes on, all are ignored, or the claim that one of them
is of goes through. -/
theorem AtRest.expireAll_cases (h : g.AtRest) (hover : g.isOver = false)
    (hall : due.foldlM (fun g id => g.expire id) g = .ok g') : g' = g ∨ g'.claim? = none := by
  induction due generalizing g with
  | nil =>
    cases hall
    exact .inl rfl
  | cons id due ih =>
    rw [List.foldlM_cons] at hall
    obtain ⟨g₁, hexpire, hlater⟩ := exists_ok_of_bind hall
    rcases expire_cases h hexpire with ⟨halarm, -⟩ | rfl | ⟨x, hstep, hsound, hsettles⟩
    · cases hover.symm.trans (h.overAlarm (halarm ▸ nofun))
    · exact ih h hover hlater
    · right
      have hnone : g₁.claim? = none := by
        cases hstep with
        | timeOut hf hid hgrant =>
          have hstep : Step g (.alarm id) x := .timeOut hf hid hgrant
          have hv := hstep.variant_ne_none h.toSound (h.variant_ne_none hf nofun)
          exact hsettles.unclaimed hsound hv (h.claim?_of_timeOut hf hstep)
      exact (expireAll_induction (P := (·.claim? = none))
        (fun y y' id hrest hclaim hexpire => (hrest.expire_unclaimed hclaim hexpire).1)
        (h.feed (i := .expire id) hexpire) hnone hlater).2

/-- Without a claim no time that passes ends a game. -/
theorem AtRest.advanceIn_goesOn (h : g.AtRest) (hover : g.isOver = false) (hclaim : g.claim? = none)
    (hadvance : advanceIn fuel time g = .ok g') : g'.isOver = false := by
  have hgoes : g'.isOver = false ∧ g'.claim? = none := by
    refine advanceIn_induction (P := fun x => x.isOver = false ∧ x.claim? = none)
      (fun _ _ _ _ hx _ => hx) (fun x x' id hrest hx hexpire => ?_) h ⟨hover, hclaim⟩ hadvance
    obtain ⟨hclaim, hover, -⟩ := hrest.expire_unclaimed hx.2 hexpire
    exact ⟨hover.trans hx.1, hclaim⟩
  exact hgoes.1

/-- When a game ends while time passes, the end is reported. -/
theorem AtRest.advanceIn_ends (h : g.AtRest) (hover : g.isOver = false)
    (hadvance : advanceIn (fuel + 2) time g = .ok g') (hover' : g'.isOver = true) :
    g'.overAlarm = none := by
  unfold advanceIn at hadvance
  obtain ⟨⟨due, venue⟩, hdue, hadvance⟩ := exists_ok_of_bind hadvance
  have hrest := h.of_venue venue
  dsimp only at hadvance
  split at hadvance
  next =>
    cases hadvance
    cases hover.symm.trans hover'
  next =>
    obtain ⟨g₁, hall, hadvance⟩ := exists_ok_of_bind hadvance
    have hsoon : ReportsSoon { g with venue } due := (hrest.rings hover).reportsSoon
    obtain ⟨hrest₁, hsoon₁⟩ := hrest.expireAll_due (J := ReportsSoon)
      (fun _ _ _ _ hrest hg hexpire => hrest.expire_reportsSoon hg hexpire) hsoon hall
    cases hover₁ : g₁.isOver with
    | true => exact hrest₁.advanceIn_reports hover₁ hsoon₁ hadvance
    | false =>
      rcases hrest.expireAll_cases hover hall with rfl | hclaim
      · -- All alarms were ignored, and in the next round none is due.
        unfold advanceIn at hadvance
        obtain ⟨⟨due', venue'⟩, hdue', hadvance⟩ := exists_ok_of_bind hadvance
        obtain rfl := Venue.due_eq_nil hdue rfl hdue'
        cases hadvance
        cases hover.symm.trans hover'
      · cases (hrest₁.advanceIn_goesOn hover₁ hclaim hadvance).symm.trans hover'

/-! ## The result -/

/-- A game that is over as time has passed had its end reported. -/
theorem Reachable.gameOvers_of_advance (h : Reachable g)
    (hadvance : g.feed (.advance time) = .ok g') (hover' : g'.isOver = true) :
    g'.overAlarm = none ∧ g'.venue.gameOvers = 1 := by
  have hnone : g'.overAlarm = none := by
    cases hover : g.isOver with
    | true => exact h.atRest.advanceIn_reports hover h.reportsSoon hadvance
    | false => exact h.atRest.advanceIn_ends hover hadvance hover'
  have htally := (h.fed hadvance).tallied
  rw [Tallied, hnone, hover'] at htally
  exact ⟨hnone, htally⟩

/-- Inputs after the end of a game leave it frozen. -/
theorem Reachable.feedAll_frozen (h : Reachable g) (hover : g.isOver = true)
    (hrun : g.feedAll inputs = .ok g') : g.Frozen g' := by
  induction inputs generalizing g with
  | nil =>
    cases hrun
    exact .refl _
  | cons i inputs ih =>
    rw [feedAll_cons] at hrun
    obtain ⟨g₁, hfeed, hrun⟩ := exists_ok_of_bind hrun
    have hfrozen := h.atRest.feed_frozen hover hfeed
    exact hfrozen.trans (ih (h.fed hfeed) (hfrozen.isOver_eq.trans hover) hrun)

/-- The end of a game is reported once, and what is over stays as it is. Whatever comes in, the end
is not reported before the game is over, nor a second time; when time passes it is, if the game is
over then. After the end every input is met with no fault, unless the clock ends, and any number of
inputs leave everything but the clock, its alarms and the report as they are: nobody's cards or
coins change, and nothing is sent. If time passes with one of them the end was reported. -/
theorem Reachable.end_reported_once (h : Reachable g) :
    (∀ i x, Visits g i x → x.venue.gameOvers ≤ 1 ∧ (x.isOver = false → x.venue.gameOvers = 0)) ∧
    (∀ time g', g.feed (.advance time) = .ok g' → g'.isOver = true → g'.venue.gameOvers = 1) ∧
    (g.isOver = true →
      (∀ i, (∃ g', g.feed i = .ok g') ∨ g.feed i = .error .clockOverflow ∧
        clockEnd ≤ g.venue.alarms.now + i.duration + g.waitTime) ∧
      ∀ inputs g', g.feedAll inputs = .ok g' → g'.isOver = true ∧ g.Frozen g' ∧
        ((∃ time, .advance time ∈ inputs) → g'.venue.gameOvers = 1)) := by
  refine ⟨fun i x hvisits => ?_, fun time g' hadvance hover' =>
    (h.gameOvers_of_advance hadvance hover').2, fun hover => ⟨fun i => ?_, ?_⟩⟩
  · have htally := hvisits.tallied h.atRest h.tallied
    refine ⟨?_, htally.gameOvers_eq_zero⟩
    calc x.venue.gameOvers ≤ x.venue.gameOvers + x.overAlarm.isSome.toNat := Nat.le_add_right ..
      _ = x.isOver.toNat := htally
      _ ≤ 1 := Bool.toNat_le _
  · have hrests := feed_rests h.atRest i
    cases hfeed : g.feed i with
    | ok g' => exact .inl ⟨g', rfl⟩
    | error cause =>
      rw [hfeed] at hrests
      obtain ⟨rfl, hlate⟩ := hrests
      exact .inr ⟨rfl, hlate⟩
  · intro inputs g' hrun
    have hfrozen := h.feedAll_frozen hover hrun
    refine ⟨hfrozen.isOver_eq.trans hover, hfrozen, ?_⟩
    rintro ⟨time, hmem⟩
    -- The end was reported when time passed, and has not been since.
    obtain ⟨earlier, later, rfl⟩ := List.append_of_mem hmem
    rw [feedAll_append] at hrun
    obtain ⟨g₁, hearlier, hrun⟩ := exists_ok_of_bind hrun
    rw [feedAll_cons] at hrun
    obtain ⟨g₂, hadvance, hlater⟩ := exists_ok_of_bind hrun
    have hreach := h.feedAll hearlier
    have hover₁ := (h.feedAll_frozen hover hearlier).isOver_eq.trans hover
    have hover₂ := (hreach.atRest.feed_frozen hover₁ hadvance).isOver_eq.trans hover₁
    obtain ⟨hnone, -⟩ := hreach.gameOvers_of_advance hadvance hover₂
    have hfrozen' := (hreach.fed hadvance).feedAll_frozen hover₂ hlater
    have htally := ((hreach.fed hadvance).feedAll hlater).tallied
    rw [Tallied, hfrozen'.overAlarm_eq_none hnone, hfrozen'.isOver_eq.trans hover₂] at htally
    exact htally

/-- Bob loses the last card, and the game is over. The alarm that reports the end is claimed to have
gone off twice before it is due, and then it does: the end is reported once, and nothing else
changes. -/
theorem end_reported_once_stolen : ∃ g g',
    playOut ["Ada", "Bob"]
        { seed := some 0, startPlayer := some 0, variant := some .classic,
          cardOverrides := [.contessa, .captain, .contessa, .contessa] }
        [.press 0 "tax", .press 1 "challenge", .press 0 "reveal:0", .press 1 "tax",
          .press 0 "challenge", .press 1 "reveal:0", .press 0 "steal:1",
          .press 1 "challenge"] = some g ∧
      g.isOver = true ∧ g.venue.gameOvers = 0 ∧
      g.feedAll [.press 0 "income", .expire 3, .expire 3, .advance 0, .advance second] = .ok g' ∧
      g.Frozen g' ∧ g'.venue.gameOvers = 1 := by
  have hrun : ((playOut ["Ada", "Bob"]
      { seed := some 0, startPlayer := some 0, variant := some .classic,
        cardOverrides := [.contessa, .captain, .contessa, .contessa] }
      [.press 0 "tax", .press 1 "challenge", .press 0 "reveal:0", .press 1 "tax",
        .press 0 "challenge", .press 1 "reveal:0", .press 0 "steal:1",
        .press 1 "challenge"]).bind fun g =>
          (g.feedAll [.press 0 "income", .expire 3, .expire 3, .advance 0,
            .advance second]).toOption.map fun _ => (g.isOver, g.venue.gameOvers))
      = some (true, 0) := by
    decide +kernel
  obtain ⟨g, g', hg, hfed, hrun⟩ := exists_of_playOut hrun
  obtain ⟨hover, hnone⟩ := Prod.mk.inj hrun
  obtain ⟨-, -, hafter⟩ := (reachable_of_playOut hg).end_reported_once
  obtain ⟨-, hfrozen, hreported⟩ := (hafter hover).2 _ _ hfed
  exact ⟨g, g', hg, hover, hnone, hfed, hfrozen, hreported ⟨0, by simp⟩⟩

end Game

end CoupTable
