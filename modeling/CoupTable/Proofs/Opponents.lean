import CoupTable.Proofs.Clocks
import CoupTable.Proofs.Endings
import CoupTable.Proofs.Events

/-!
# Somebody to play against

As long as a game is not finished two players are alive, and whoever is one of them may move against
another: if all others who are alive are on the same side, nobody is protected any more. So a claim
that has just been made, or a block, can be opposed by somebody, and the table is asked before it
goes through.
-/

namespace CoupTable.Game

variable {g g' x : Game} {c : Claim} {below : List Frame} {seat other actor : Nat} {p q : Player}
  {effect : Effect} {cause : Cause}

/-! ## Opponents -/

/-- In a game that is not finished somebody else is alive, whoever one looks at. -/
theorem exists_opponent (hv : g.variant ≠ none) (hgoes : g.isFinished = false) (seat : Nat) :
    ∃ other, other ≠ seat ∧ g.isAlive other = true := by
  by_contra hnone
  -- Nobody but this player is alive, and so at most one is.
  have hall : ∀ other ∈ g.livingSeats, other = seat := by
    intro other hother
    by_contra hne
    exact hnone ⟨other, hne, (List.mem_filter.1 hother).2⟩
  have hnodup : g.livingSeats.Nodup := List.nodup_range.filter _
  have hfew : g.livingSeats.length ≤ 1 := by
    rw [List.eq_replicate_of_mem hall] at hnodup
    exact List.nodup_replicate.1 hnodup
  rw [isFinished, Option.isSome_iff_ne_none.2 hv, decide_eq_true hfew] at hgoes
  cases hgoes

/-- The table is reunified if all who are alive are on one side. -/
theorem isReunified_of_forall {side : Allegiance}
    (h : ∀ p ∈ g.players, p.isAlive = true → p.allegiance = side) : g.isReunified = true := by
  have hall : ∀ other ∈ (g.players.filter (·.isAlive)).map (·.allegiance), other = side := by
    intro other hother
    obtain ⟨p, hp, rfl⟩ := List.mem_map.1 hother
    exact h p (List.mem_filter.1 hp).1 (List.mem_filter.1 hp).2
  unfold isReunified
  split
  next => rfl
  next first others hsides =>
    rw [hsides] at hall
    rw [List.all_eq_true]
    intro other hother
    rw [hall other (List.mem_cons_of_mem _ hother), hall first List.mem_cons_self, beq_self_eq_true]

/-- A player who is alive in a game that is not finished may move against somebody. -/
theorem exists_isTarget (hv : g.variant ≠ none) (hgoes : g.isFinished = false)
    (hlives : g.isAlive actor = true) : ∃ target, g.isTarget actor target = true := by
  by_contra hnone
  -- All others who are alive are protected, that is, on the player's side.
  have hprotects : ∀ other, other ≠ actor → g.isAlive other = true →
      g.protects actor other = true := by
    intro other hne hother
    by_contra hopen
    exact hnone ⟨other, by simp [isTarget, hne, hother, hopen]⟩
  obtain ⟨p, hp⟩ := exists_player (lt_of_isAlive hlives)
  have hreunified : g.isReunified = true := by
    refine @isReunified_of_forall g p.allegiance fun q hq hqlives => ?_
    obtain ⟨other, hother⟩ := List.getElem?_of_mem hq
    by_cases hne : other = actor
    · subst hne
      cases hp.symm.trans hother
      rfl
    · have hside := hprotects other hne ((isAlive_eq hother).trans hqlives)
      simp only [protects, hp, hother, Bool.and_eq_true, beq_iff_eq] at hside
      exact (Option.some.inj hside.2).symm
  -- But then the table is reunified, and nobody is protected.
  obtain ⟨other, hne, hother⟩ := exists_opponent hv hgoes actor
  have hopen := hprotects other hne hother
  rw [protects, hreunified, Bool.not_true, Bool.and_false, Bool.false_and] at hopen
  cases hopen

/-- What it means that a player may be moved against. -/
theorem isTarget_iff : g.isTarget actor other = true ↔
    other ≠ actor ∧ g.isAlive other = true ∧ g.protects actor other = false := by
  simp [isTarget, and_assoc]

/-- The players who could oppose a claim are alive, and others than its player. -/
theorem mem_quorum : seat ∈ g.quorum c ↔ seat ≠ c.actor ∧ g.isAlive seat = true ∧
    (c.challengeable = true ∨ c.blockable = true ∧ g.canBlock c seat = true) := by
  unfold quorum canOppose seats
  rw [List.mem_filter, List.mem_range]
  simp only [Bool.and_eq_true, Bool.or_eq_true, bne_iff_ne, and_assoc, and_iff_right_iff_imp]
  exact fun h => lt_of_isAlive h.2.1

/-! ## Games that are finished -/

/-- A step that ends the game finds it finished. -/
theorem Step.isFinished_of_isOver (h : g.Sound) (hstep : Step g cause g')
    (hover : g.isOver = false) (hover' : g'.isOver = true) : g'.isFinished = true := by
  rcases hstep.sameEnd_or_finish h with ⟨hsame, -⟩ | ⟨-, hfinished, rfl⟩
  · cases hover.symm.trans (hsame.symm.trans hover')
  · exact hfinished

/-- With the turn alone on the stack, a game is over exactly if it is finished. -/
def EndsInTime (g : Game) : Prop := g.stack.frames = [.turn] → g.isFinished = g.isOver

/-- An event leaves no turn to begin in a finished game, and ends no other. -/
theorem Happening.endsInTime (h : g.AtRest) (hends : g.EndsInTime) (hevent : Happening g g') :
    g'.EndsInTime := by
  cases hevent with
  | clock | report => exact hends
  | step hstep hcause hover hsound hsettles =>
    intro hf'
    have hstill := hsettles.still
    rw [Bool.eq_iff_iff]
    rcases hsettles.last hsound with rfl | ⟨g₁, hsound₁, hover₁, hlast⟩
    · -- Nothing stirs after the step, so that the cards were dealt or nothing of note happened.
      refine ⟨fun hfinished => ?_, hstep.isFinished_of_isOver h.toSound hover⟩
      rcases hstep.of_still hcause hstill with
        ⟨_, _, _, hf, -⟩ | ⟨_, _, -, -, rfl⟩ | ⟨_, _, _, -, -, rfl⟩
      · have hgoes : g.isFinished = false := by
          rw [isFinished, (h.shape_of hf).variant_eq_none]
          rfl
        have hgoes' := hstep.isFinished_of_still h.toSound hf' hstill hcause hgoes
        cases hgoes'.symm.trans hfinished
      · exact (hends hf').symm.trans hfinished
      · cases hf'
    · -- The turn has just passed on, and with it the game has ended if it is finished.
      refine ⟨fun hfinished => ?_, hlast.isFinished_of_isOver hsound₁ hover₁⟩
      exact (hlast.ended hsound₁ hover₁ hf' hstill hfinished).isOver

/-- When a turn begins in a reachable game, the game is over exactly if it is finished. -/
theorem Reachable.isFinished_eq (h : Reachable g) (hf : g.stack.frames = [.turn]) :
    g.isFinished = g.isOver := by
  have hends : g.EndsInTime := by
    refine h.induction (P := EndsInTime) (fun g g' hrest hg hevent => hevent.endsInTime hrest hg)
      fun names s entropy g hrefusal hbegun => ?_
    have hopened : (opened names s entropy).Sound := sound_opened hrefusal
    cases hbegun with
    | asking => exact nofun
    | @dealt v _ _ hperm =>
      exact fun _ => isFinished_dealt (v := v) (hperm.length_eq.trans (Deck.length_full _))
        hopened.seats hopened.few
  exact hends hf

/-! ## Claims that are made -/

/-- Somebody could oppose a claim to what the current player may claim. -/
theorem CanOpen.quorum_ne_nil (h : g.CanOpen effect) (hv : g.variant ≠ none)
    (hgoes : g.isFinished = false) (message : String) :
    g.quorum (.opening g.current message effect) ≠ [] := by
  obtain ⟨target, htarget⟩ := exists_isTarget hv hgoes h.actor
  obtain ⟨hne, hlives, hopen⟩ := isTarget_iff.1 htarget
  refine List.ne_nil_of_mem (mem_quorum.2 ⟨hne, hlives, ?_⟩)
  -- Foreign aid is the only claim that cannot be challenged, and the other side may block it.
  cases effect with
  | foreignAid => exact .inr ⟨rfl, by simp [canBlock, Claim.opening, Effect.blocker?, hopen]⟩
  | _ => exact .inl rfl

/-- A claim that goes through leaves at most one frame in its place. -/
theorem Grant.length_le (h : Grant g seat effect g') :
    g'.stack.frames.length ≤ g.stack.frames.length + 1 := by
  cases h with
  | block hf | blockKill hf => simp [hf, Nat.le_add_right_of_le]
  | _ => simp

/-- An answer leaves at most as many frames as there were. -/
theorem Answer.length_le {r : Reveal} {choice : Nat} (h : Answer g r c below choice g')
    (hf : g.stack.frames = .reveal r :: .claim c :: below) :
    g'.stack.frames.length ≤ g.stack.frames.length := by
  cases h <;> simp [hf, Nat.le_add_right_of_le]

/-- A press makes a claim if it puts one on top of all frames; nothing else happens before the table
is asked, and somebody could oppose the claim. -/
theorem Step.declared {m : Move} (h : g.AtRest) (hstep : Step g (.press seat m) x)
    (hgoes : g.stack.frames = [.turn] → g.isFinished = false)
    (hx : x.stack.frames = .claim c :: below) (hdepth : below.length = g.stack.depth) :
    ∃ alarm, x = { g with
        venue := g.venue.release alarm, stack := ⟨.claim c :: below⟩, stirred := true } ∧
      c.accepted = ∅ ∧ c.alarm = none ∧ g.quorum c ≠ [] := by
  have hlen := congrArg List.length hx
  unfold Stack.depth at hdepth
  rw [List.length_cons] at hlen
  cases hstep with
  | claim hf hc hopen =>
    have hframes : g.stack.frames = [.turn] := by
      cases h.shape_of hf with
      | turn => exact hf
    cases hx
    exact ⟨none, rfl, rfl, rfl,
      hopen.quorum_ne_nil (h.variant_ne_none hf nofun) (hgoes hframes) _⟩
  | @block c₀ rest _ _ hf hc hne =>
    cases hx
    -- The player whose claim is blocked may challenge the block.
    have hlives : g.isAlive c₀.actor = true := by
      cases h.shape_of hf with
      | asked hpending => exact hpending.isAlive_actor
    exact ⟨c₀.alarm, rfl, rfl, rfl,
      List.ne_nil_of_mem (mem_quorum.2 ⟨Ne.symm hne, hlives, .inl rfl⟩)⟩
  | deal hf _ hdeal =>
    obtain ⟨built, ms', -, rfl⟩ := h.of_deal hf hdeal
    cases hx
  | acceptLast hf _ hgrant =>
    have hle := hgrant.length_le
    rw [hf, List.length_cons] at hdepth
    simp only [lifted] at hle
    omega
  | answer hf hanswer =>
    have hle := hanswer.length_le hf
    omega
  | income hf | convert hf | askTarget hf =>
    cases hf.symm.trans hx
  | accept hf | lose hf | keepLast hf | allow hf | change hf =>
    rw [hf, List.length_cons] at hdepth
    simp only [List.length_cons] at hlen
    omega
  | coup | challenge | keep | showCard => cases hx

/-! ## Asking the table -/

/-- The game once the table was asked about the claim on top of `below`. -/
def asked (g : Game) (c : Claim) (below : List Frame) : Game :=
  { g with
    venue := ((g.venue.release c.alarm).arming g.waitTime).saying
      [⟨.everyone, g.claimText c, claimButtons c⟩]
    stack := ⟨.claim { c with accepted := ∅, alarm := some g.venue.alarms.next } :: below⟩
    stirred := false }

/-- A game in which somebody could oppose the claim on top settles by asking the table, unless the
alarm of the claim would ring after the end of the clock. -/
theorem settle_of_quorum (hstirred : g.stirred = true) (hf : g.stack.frames = .claim c :: below)
    (hquorum : g.quorum c ≠ []) :
    g.settle = if g.venue.alarms.now + g.waitTime < clockEnd then .ok (g.asked c below)
      else .error .clockOverflow := by
  have ha : isAccepted { g with stirred := false } { c with accepted := ∅ } = false := by
    by_contra haccepted
    exact hquorum (quorum_eq_nil (c := c) (Bool.not_eq_false _ ▸ haccepted))
  have hidle : idle { g with stirred := false } = claimIdle { g with stirred := false } c := by
    unfold idle Stack.top?
    dsimp only
    rw [hf]
    rfl
  unfold settle
  split
  next hclock =>
    rw [settleIn_of_stirred hstirred (hidle.trans (claimIdle_eq (g := { g with stirred := false })
      hf ha hclock))]
    exact settleIn_of_still rfl _
  next hclock =>
    unfold settleIn
    rw [if_pos hstirred, hidle, claimIdle_eq_error (g := { g with stirred := false }) hf ha
      (Nat.not_lt.1 hclock), error_bind]

end CoupTable.Game
