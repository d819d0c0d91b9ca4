import CoupTable.Proofs.Claiming
import CoupTable.Proofs.Elsewhere

/-!
# The clock and the course of a game

What a claim does when it goes through, and how frames go on after it, does not depend on what the
clock shows and which alarms are set: games that are alike but for these stay so (`Alike`), as the
venues are tied until the clock ends.

A claim that is put to the table is another matter, as its alarm may ring after the end of the
clock. Since there is no claim on the stack any more once one went through, this does not come up:
the game settles without a fault, and games that are alike settle in games that are.
-/

namespace CoupTable

/-- Two venues are the same but for what their clocks show, neither of which has ended, and which
alarms are set. -/
inductive Venue.Retimed (v : Venue) : Venue → Prop where
  /-- The next alarm gets the same number. -/
  | intro {a : Alarms} (hnext : a.next = v.alarms.next) (hclock : v.alarms.now < clockEnd)
      (hnow : a.now < clockEnd) : v.Retimed { v with alarms := a }

/-- On two clocks that have not ended an alarm is set without delay, and gets the same number. -/
instance Venue.tie_retimed : Tie Venue.Retimed where
  send := by
    rintro v _ ⟨hnext, hclock, hnow⟩ m
    exact .intro hnext hclock hnow
  cancel := by
    rintro v _ ⟨hnext, hclock, hnow⟩ id
    exact .intro hnext hclock hnow
  arm := by
    rintro v _ ⟨hnext, hclock, hnow⟩
    rw [arm_eq (v := v) hclock, arm_eq (v := { v with alarms := _ }) hnow, hnext]
    exact .ok (.intro _ (.intro (congrArg (· + 1) hnext) hclock hnow))

namespace Game

variable {g g₁ x : Game} {c : Claim} {below : List Frame} {a : Alarms}

/-- The game with other alarms on another clock. -/
def withAlarms (g : Game) (a : Alarms) : Game := { g with venue := { g.venue with alarms := a } }

/-- Two games are the same but for what the clock shows, which has not ended, and which alarms are
set. -/
abbrev Alike : Game → Game → Prop := Elsewhere Venue.Retimed

/-- On another clock a game is alike. -/
theorem alike_withAlarms (hnext : a.next = g.venue.alarms.next)
    (hclock : g.venue.alarms.now < clockEnd) (hnow : a.now < clockEnd) :
    Alike g (g.withAlarms a) :=
  .intro (.intro hnext hclock hnow)

/-! ## Settling -/

/-- Where nothing stirs there is nothing to settle. -/
theorem settleIn_of_still (hstill : g.stirred = false) (fuel : Nat) : settleIn fuel g = .ok g := by
  cases fuel with
  | zero => rfl
  | succ fuel =>
    unfold settleIn
    rw [hstill, if_neg Bool.false_ne_true]
    rfl

/-- Where something stirs the frame on top goes on before the others. -/
theorem settleIn_of_stirred (hstirred : g.stirred = true)
    (hidle : Game.idle { g with stirred := false } = .ok x) (fuel : Nat) :
    settleIn (fuel + 1) g = settleIn fuel x := by
  unfold settleIn
  rw [hstirred, if_pos rfl, hidle, ok_bind]
  cases fuel <;> rfl

/-- With no claim on the stack a game settles, unless its clock has ended, and there is no claim
after it either. Games that are alike settle in games that are. -/
theorem settleIn_of_unclaimed (h : g.Sound) (hv : g.variant ≠ none) (hclaim : g.claim? = none)
    (hclock : g.venue.alarms.now < clockEnd) (fuel : Nat) :
    ∃ g₁, settleIn fuel g = .ok g₁ ∧ g₁.claim? = none ∧
      ∀ g', Alike g g' → ∃ g₁', settleIn fuel g' = .ok g₁' ∧ Alike g₁ g₁' := by
  induction fuel generalizing g with
  | zero => exact ⟨g, rfl, hclaim, fun g' halike => ⟨g', rfl, halike⟩⟩
  | succ fuel ih =>
    cases hstirred : g.stirred with
    | false =>
      refine ⟨g, settleIn_of_still hstirred _, hclaim, ?_⟩
      rintro _ (@⟨v, hretimed⟩)
      exact ⟨_, settleIn_of_still (g := g.movedTo v) hstirred _, .intro hretimed⟩
    | true =>
      cases hidle : Game.idle { g with stirred := false } with
      | error cause =>
        -- No frame but a claim fails before the clock has ended.
        have hlate := idle_idled_of_ne_claim h.hush rfl (h.isOver_of_stirred hstirred)
          fun c below => h.top_ne_claim hclaim
        rw [hidle] at hlate
        exact absurd hclock (Nat.not_lt.2 hlate.2)
      | ok x =>
        obtain ⟨hidled, hsound⟩ := h.idled hstirred hidle
        have hstep := hidled.step
        have hnow := (hstep.sameTable h.hush).now
        obtain ⟨g₁, hsettle, hclaim₁, halike₁⟩ := ih hsound (hstep.variant_ne_none h.hush hv)
          (hstep.unclaimed h.hush hv nofun hclaim).1 (hnow.symm ▸ hclock)
        refine ⟨g₁, (settleIn_of_stirred hstirred hidle fuel).trans hsettle, hclaim₁, ?_⟩
        rintro _ (@⟨v, hretimed⟩)
        -- The frame goes on alike in the other game, and so do those after it.
        have hboth := both_idle (g := { g with stirred := false }) hretimed fun c htop => by
          obtain ⟨below, hf⟩ := List.head?_eq_some_iff.1 htop
          exact absurd hf (h.top_ne_claim hclaim)
        rw [hidle] at hboth
        obtain ⟨x', hidle', halike'⟩ := hboth.exists_ok
        obtain ⟨g₁', hsettle', halike''⟩ := halike₁ x' halike'
        have hgo := settleIn_of_stirred (g := g.movedTo v) hstirred hidle' fuel
        exact ⟨g₁', hgo.trans hsettle', halike''⟩

/-- With no claim on the stack a game settles, and alike with games that are alike. -/
theorem settle_of_unclaimed (h : g.Sound) (hv : g.variant ≠ none) (hclaim : g.claim? = none)
    (hclock : g.venue.alarms.now < clockEnd) :
    ∃ g₁, g.settle = .ok g₁ ∧ g₁.claim? = none ∧
      ∀ g', Alike g g' → ∃ g₁', g'.settle = .ok g₁' ∧ Alike g₁ g₁' := by
  obtain ⟨g₁, hsettle, hclaim₁, halike⟩ :=
    settleIn_of_unclaimed h hv hclaim hclock (2 * g.stack.depth + 1)
  refine ⟨g₁, hsettle, hclaim₁, fun g' hg' => ?_⟩
  obtain ⟨g₁', hsettle', halike'⟩ := halike g' hg'
  refine ⟨g₁', ?_, halike'⟩
  cases hg'
  exact hsettle'

/-- Two games that are like the same one are alike. -/
theorem Alike.of_common {g₂ : Game} (h : Alike g g₁) (h' : Alike g g₂) : Alike g₁ g₂ := by
  obtain ⟨hnext, -, hclock⟩ := h
  obtain ⟨hnext', -, hnow⟩ := h'
  exact .intro (.intro (hnext'.trans hnext.symm) hclock hnow)

/-! ## Claims that go through, and what follows -/

/-- A claim is carried out once it is taken off the stack. -/
theorem resolve_eq_grant (hf : g.stack.frames = .claim c :: below) :
    g.resolve c = (g.lifted c below).grant c.actor c.effect := by
  unfold resolve
  rw [pop_eq hf]
  rfl

/-- Whether a claim is taken off the stack with its alarm makes no difference otherwise. -/
theorem Alike.lifted (hclock : g.venue.alarms.now < clockEnd) :
    Alike (g.lifted { c with alarm := none } below) (g.lifted c below) := by
  unfold Game.lifted Venue.release
  cases c.alarm with
  | none => exact alike_withAlarms (a := g.venue.alarms) rfl hclock hclock
  | some id => exact alike_withAlarms (a := g.venue.alarms.cancel id) rfl hclock hclock

/-- Once a claim went through that waited there is no claim on the stack. -/
theorem AtRest.claim?_of_timeOut {id : AlarmId} (h : g.AtRest)
    (hf : g.stack.frames = .claim c :: below) (hstep : Step g (.alarm id) x) : x.claim? = none := by
  have hsome : g.claim? ≠ none := by
    rw [claim?, hf]
    cases h.shape_of hf with
    | asked hpending => exact hpending.ownClaimIn_ne_none
  obtain ⟨c₀, hclaim⟩ := Option.ne_none_iff_exists'.1 hsome
  cases hstep with
  | timeOut hf' hid hgrant =>
    obtain ⟨outcome, hdecided⟩ := (h.shape_of hf').decided (v := g.venue) hf' hclaim hgrant
    exact hdecided.claim?_eq_none h.toSound

/-- A claim that waits goes through without a fault as long as the clock has not ended, and then the
game is at rest with no claim any more. Called by its alarm, on whatever clock, the claim goes
through alike. -/
theorem AtRest.resolve_settles (h : g.AtRest) (hf : g.stack.frames = .claim c :: below)
    (hclock : g.venue.alarms.now < clockEnd) :
    ∃ y, (g.resolve c >>= settle) = .ok y ∧ y.AtRest ∧ y.claim? = none ∧
      ∀ a, a.next = g.venue.alarms.next → a.now < clockEnd → ∃ y',
        (resolve ((g.withAlarms a).setTop (.claim { c with alarm := none }))
          { c with alarm := none } >>= settle) = .ok y' ∧ Alike y y' := by
  obtain ⟨id, halarm⟩ := Option.ne_none_iff_exists'.1 (h.waiting _ _ hf).1
  obtain ⟨x, hx, hgrant⟩ := h.resolve_eq hf { c with alarm := none } rfl rfl
  have hstep : Step g (.alarm id) x := .timeOut hf halarm hgrant
  have hover := h.isOver_eq_false hf nofun
  have hsound := hstep.sound h.toSound h.still hover
  have hv := hstep.variant_ne_none h.toSound (h.variant_ne_none hf nofun)
  have hnow := (hstep.sameTable h.toSound).now
  obtain ⟨z, hz, hclaim, hall⟩ :=
    settle_of_unclaimed hsound hv (h.claim?_of_timeOut hf hstep) (hnow.symm ▸ hclock)
  have hrest : z.AtRest := by
    have hrests := hstep.settle_rests h hover
    rw [hz] at hrests
    exact hrests.1
  -- Without its alarm and with it, and on every clock, the claim goes through alike.
  have hgranted : (g.lifted { c with alarm := none } below).grant c.actor c.effect = .ok x := by
    rw [setTop_eq hf, @resolve_eq_grant _ _ below rfl] at hx
    exact hx
  have hlike : ∀ g', Alike (g.lifted { c with alarm := none } below) g' →
      ∃ y, (g'.grant c.actor c.effect >>= settle) = .ok y ∧ Alike z y := by
    intro g' halike
    have hboth : Both Alike ((g.lifted { c with alarm := none } below).grant c.actor c.effect)
        (g'.grant c.actor c.effect) := halike.steady steady_grant
    rw [hgranted] at hboth
    obtain ⟨x', hx', halike'⟩ := hboth.exists_ok
    obtain ⟨y, hy, hzy⟩ := hall x' halike'
    exact ⟨y, by rw [hx', ok_bind, hy], hzy⟩
  obtain ⟨y, hy, hzy⟩ := hlike _ (Alike.lifted hclock)
  refine ⟨y, ?_, ?_, ?_, fun a hnext hnow => ?_⟩
  · rw [resolve_eq_grant hf, hy]
  · cases hzy
    exact hrest.of_venue _
  · cases hzy
    exact hclaim
  · obtain ⟨y', hy', hzy'⟩ := hlike _ (alike_withAlarms (a := a) hnext hclock hnow)
    refine ⟨y', ?_, hzy.of_common hzy'⟩
    have hf' : (g.withAlarms a).stack.frames = .claim c :: below := hf
    rw [setTop_eq hf', @resolve_eq_grant _ _ below rfl]
    exact hy'

end Game

end CoupTable
