import CoupTable.Proofs.Calls
import CoupTable.Proofs.Faultless
import CoupTable.Proofs.Opponents

/-!
# Sides protect as long as a claim lasts

Nobody may move against a player of the own side, or block one, as long as the table is divided.
That is looked at once, when the claim or the block is made. It stays true until the frame is off
the stack: nobody changes sides while a claim is pending, and a death can reunite the table but
never divides it (`SameSides.protects_eq_false`).

What a claim has to do with sides is who makes it and what for, its *stance*. A step takes stances
off the stack, or adds one that is fair at that moment (`Step.isFair`).
-/

namespace CoupTable

/-- A player with fewer living slots was alive before. -/
theorem Player.isAlive_of_slots {p q : Player}
    (h : ∀ slot, q.hasLiving slot = true → p.hasLiving slot = true) (hq : q.isAlive = true) :
    p.isAlive = true := by
  obtain ⟨slot, hslot⟩ := isAlive_iff.1 hq
  exact isAlive_iff.2 ⟨slot, h slot hslot⟩

/-- A lost card brings nobody back to life. -/
theorem Player.isAlive_of_killSlot {p : Player} {slot : Nat} :
    (p.killSlot slot).isAlive = true → p.isAlive = true :=
  isAlive_of_slots fun other hother => by
    rw [hasLiving_killSlot, Bool.and_eq_true] at hother
    exact hother.1

/-- A redraw brings nobody back to life. -/
theorem Player.isAlive_of_redraw {p : Player} {slots : List Nat} {drawn : List Character} :
    (p.redraw slots drawn).isAlive = true → p.isAlive = true :=
  isAlive_of_slots fun _ hslot => by rwa [hasLiving_redraw] at hslot

namespace Game

variable {g g' x : Game} {cause : Cause} {c : Claim} {f : Frame} {below : List Frame}
  {seat actor other : Nat} {p q : Player} {effect : Effect}

/-! ## Sides -/

/-- The table is reunified if and only if all who are alive are on one side. -/
theorem isReunified_iff : g.isReunified = true ↔
    ∃ side, ∀ p ∈ g.players, p.isAlive = true → p.allegiance = side := by
  refine ⟨fun h => ?_, fun ⟨side, h⟩ => isReunified_of_forall h⟩
  have hmem : ∀ p ∈ g.players, p.isAlive = true →
      p.allegiance ∈ (g.players.filter (·.isAlive)).map (·.allegiance) := fun p hp hlives =>
    List.mem_map_of_mem (List.mem_filter.2 ⟨hp, hlives⟩)
  unfold isReunified at h
  split at h
  next hnone =>
    refine ⟨.loyalist, fun p hp hlives => ?_⟩
    have hside := hmem p hp hlives
    rw [hnone] at hside
    cases hside
  next side others hsides =>
    refine ⟨side, fun p hp hlives => ?_⟩
    have hside := hmem p hp hlives
    rw [hsides] at hside
    rcases List.mem_cons.1 hside with heq | hother
    · exact heq
    · exact beq_iff_eq.1 (List.all_eq_true.1 h _ hother)

/-- Nobody changes sides or comes back to life. -/
structure SameSides (g g' : Game) : Prop where
  /-- The variant is the same. -/
  variant : g'.variant = g.variant
  /-- Everybody is on the same side. -/
  sides : g'.players.map (·.allegiance) = g.players.map (·.allegiance)
  /-- Whoever is alive was alive before. -/
  lives : ∀ seat, g'.isAlive seat = true → g.isAlive seat = true

namespace SameSides

/-- The players stay as they are. -/
theorem of_players_eq (hvariant : g'.variant = g.variant) (hps : g'.players = g.players) :
    g.SameSides g' where
  variant := hvariant
  sides := by rw [hps]
  lives seat hlives := by rwa [isAlive, hps] at hlives

/-- A player is changed, but stays on the same side and does not come back to life. -/
theorem of_set (hvariant : g'.variant = g.variant) (hp : g.players[seat]? = some p)
    (hps : g'.players = g.players.set seat q) (hside : q.allegiance = p.allegiance)
    (hlives : q.isAlive = true → p.isAlive = true) : g.SameSides g' where
  variant := hvariant
  sides := by
    rw [hps]
    exact map_set_eq hp hside
  lives other hother := by
    by_cases heq : other = seat
    · subst heq
      obtain ⟨hlt, -⟩ := List.getElem?_eq_some_iff.1 hp
      have hq : g'.players[other]? = some q := by rw [hps, List.getElem?_set_self hlt]
      rw [isAlive_eq hp]
      exact hlives ((isAlive_eq hq).symm.trans hother)
    · rwa [isAlive_of_set hps heq] at hother

/-- Nothing happens to sides, and then nothing again. -/
theorem trans (h : g.SameSides x) (h' : x.SameSides g') : g.SameSides g' where
  variant := h'.variant.trans h.variant
  sides := h'.sides.trans h.sides
  lives seat hlives := h.lives seat (h'.lives seat hlives)

/-- The side of the player in a seat is the same. -/
theorem allegiance_eq (h : g.SameSides g') (seat : Nat) :
    g'.players[seat]?.map (·.allegiance) = g.players[seat]?.map (·.allegiance) := by
  rw [← List.getElem?_map, ← List.getElem?_map, h.sides]

/-- A table that is reunified stays so. -/
theorem isReunified (h : g.SameSides g') (hreunified : g.isReunified = true) :
    g'.isReunified = true := by
  obtain ⟨side, hside⟩ := isReunified_iff.1 hreunified
  refine isReunified_iff.2 ⟨side, fun p hp hlives => ?_⟩
  obtain ⟨seat, hseat⟩ := List.getElem?_of_mem hp
  -- Whoever is alive now was alive before, and on the side that is left.
  have hlives' := h.lives seat ((isAlive_eq hseat).trans hlives)
  obtain ⟨q, hq⟩ := exists_player (lt_of_isAlive hlives')
  have heq := h.allegiance_eq seat
  rw [hseat, hq] at heq
  have hqside := hside q (List.mem_of_getElem? hq) ((isAlive_eq hq).symm.trans hlives')
  exact (Option.some.inj heq).trans hqside

/-- Whoever is not protected from a player will not be. -/
theorem protects_eq_false (h : g.SameSides g') (hopen : g.protects actor other = false) :
    g'.protects actor other = false := by
  unfold protects isReformation at *
  rw [h.variant, h.allegiance_eq, h.allegiance_eq]
  cases hreunified : g.isReunified with
  | true => rw [h.isReunified hreunified, Bool.not_true, Bool.and_false, Bool.false_and]
  | false =>
    rw [hreunified, Bool.not_false, Bool.and_true] at hopen
    rw [Bool.and_right_comm, hopen, Bool.false_and]

end SameSides

/-! ## Stances -/

/-- Who makes a claim, and what for. -/
def stance? : Frame → Option (Nat × Effect)
  | .claim c => some (c.actor, c.effect)
  | .turn | .variantChoice | .loss _ | .reveal _ | .exchange _ | .interrogation _ => none

/-- Who makes the claims on the stack, and what for, from the top down. -/
def stances (g : Game) : List (Nat × Effect) := g.stack.frames.filterMap stance?

/-- The stances of some frames. -/
theorem stances_eq {frames : List Frame} (hf : g.stack.frames = frames) :
    g.stances = frames.filterMap stance? :=
  congrArg (List.filterMap stance?) hf

/-- A stance is fair if it is aimed at nobody, or at another player who is not protected. -/
def FairStance (g : Game) (s : Nat × Effect) : Prop :=
  ∀ target, s.2.victim? = some target → target ≠ s.1 ∧ g.protects s.1 target = false

/-- All claims on the stack are fair, and nobody who is protected from a claim's player blocks it.
-/
structure IsFair (g : Game) : Prop where
  /-- Every claim is aimed at another player who is not protected, if it is at any. -/
  aimed : ∀ s ∈ g.stances, g.FairStance s
  /-- The player of a claim is not protected from those of the claims below. -/
  blocked : g.stances.Pairwise fun b s => g.protects s.1 b.1 = false

/-- A fair stance stays fair. -/
theorem FairStance.congr {s : Nat × Effect} (h : g.FairStance s) (hsides : g.SameSides g') :
    g'.FairStance s := fun target htarget =>
  ⟨(h target htarget).1, hsides.protects_eq_false (h target htarget).2⟩

namespace IsFair

/-- Without claims all is fair. -/
theorem of_nil (h : g.stances = []) : g.IsFair where
  aimed := by
    rw [h]
    exact List.forall_mem_nil _
  blocked := by
    rw [h]
    exact .nil

/-- Claims that are left stay fair. -/
theorem of_suffix (h : g.IsFair) (hsides : g.SameSides g') (hleft : g'.stances <:+ g.stances) :
    g'.IsFair where
  aimed s hs := (h.aimed s (hleft.subset hs)).congr hsides
  blocked := (h.blocked.sublist hleft.sublist).imp fun hopen => hsides.protects_eq_false hopen

/-- A claim that is fair when it is made may come on top of the others. -/
theorem cons {s : Nat × Effect} (h : g.IsFair) (hsides : g.SameSides g')
    (hnew : g'.stances = s :: g.stances) (haimed : g.FairStance s)
    (hblocked : ∀ other ∈ g.stances, g.protects other.1 s.1 = false) : g'.IsFair where
  aimed := by
    rw [hnew]
    exact List.forall_mem_cons.2
      ⟨haimed.congr hsides, fun s hs => (h.aimed s hs).congr hsides⟩
  blocked := by
    rw [hnew]
    exact .cons (fun other hother => hsides.protects_eq_false (hblocked other hother))
      (h.blocked.imp fun hopen => hsides.protects_eq_false hopen)

end IsFair

/-- A lull leaves claims and sides alone. -/
theorem Lull.isFair (hlull : g.Lull g') (h : g.IsFair) : g'.IsFair := by
  obtain ⟨_, _, _, rfl⟩ := hlull
  exact h.of_suffix (.of_players_eq rfl rfl) List.suffix_rfl

/-! ## Steps -/

/-- Only the turn lies below the turn, so that there is no claim. -/
theorem Sound.stances_of_turn (h : g.Sound) (hf : g.stack.frames = .turn :: below) :
    g.stances = [] := by
  have hshape := h.shape_of hf
  unfold stances
  rw [hf]
  cases hshape with
  | turn => rfl

/-- A claim that goes through leaves those below it, and a block takes the next one along. -/
theorem Grant.stances (h : Grant g seat effect g') : g'.stances <:+ g.stances := by
  unfold Game.stances
  cases h with
  | block hf | blockKill hf =>
    rw [hf]
    exact List.suffix_cons ..
  | _ => exact List.suffix_rfl

/-- A claim that goes through changes no sides. -/
theorem Grant.sameSides (h : Grant g seat effect g') : g.SameSides g' := by
  cases h with
  | foreignAid hp | tax hp | embezzle hp | assassinate hp | assassinateDead hp | blockKill _ _ hp =>
    exact .of_set rfl hp rfl rfl id
  | @steal p q ms target hp hq hne =>
    have hrobbed : g.SameSides { g with
        players := g.players.set target { q with coins := q.coins - min q.coins 2 } } :=
      .of_set rfl hq rfl rfl id
    exact hrobbed.trans (.of_set rfl ((List.getElem?_set_ne hne).trans hp) rfl rfl id)
  | exchange | inspect | inspectDead | block => exact .of_players_eq rfl rfl

/-- What is left when the claim on top goes through is fair. -/
theorem IsFair.grant (h : g.IsFair) (hf : g.stack.frames = f :: x.stack.frames)
    (hsides : g.SameSides x) (hgrant : Grant x seat effect g') : g'.IsFair := by
  refine h.of_suffix (hsides.trans hgrant.sameSides) (hgrant.stances.trans ?_)
  unfold stances
  rw [hf]
  exact (List.suffix_cons ..).filterMap _

/-- A card that is lost or changed brings nobody back to life. -/
theorem Answer.sameSides {r : Reveal} {choice : Nat} (h : Answer g r c below choice g') :
    g.SameSides g' := by
  cases h with
  | proven hp | shown hp =>
    exact .of_set rfl hp rfl (by rw [Player.redraw_eq])
      Player.isAlive_of_redraw
  | caught hp => exact .of_set rfl hp rfl rfl Player.isAlive_of_killSlot
  | conceded => exact .of_players_eq rfl rfl

/-- An answer leaves the challenged claim, or those below it. -/
theorem Answer.stances {r : Reveal} {choice : Nat} (h : Answer g r c below choice g')
    (hf : g.stack.frames = .reveal r :: .claim c :: below) : g'.stances <:+ g.stances := by
  unfold Game.stances
  rw [hf]
  cases h with
  | proven | shown => exact List.suffix_rfl
  | caught | conceded => exact List.suffix_cons ..

/-- Whoever may block a claim is not protected from its player, and there is no other claim. -/
theorem Pending.blocker_fair (h : g.Pending c below) (hfair : g.FairStance (c.actor, c.effect))
    (hopen : c.blockable = true) (hblock : g.canBlock c seat = true) :
    ∀ s ∈ (Frame.claim c :: below).filterMap stance?, g.protects s.1 seat = false := by
  cases h with
  | block _ _ hb => cases hopen.symm.trans hb.not_blockable
  | own hc =>
    refine List.forall_mem_singleton.2 ?_
    unfold canBlock at hblock
    split at hblock
    next target htarget =>
      -- The target blocks, against whom the claim could be made.
      rw [beq_iff_eq.1 hblock]
      exact (hfair target (Effect.victim?_of_blocker? (hc.fits.target.symm.trans htarget))).2
    next => exact Bool.not_eq_eq_eq_not.1 hblock

/-- Every step leaves all claims fair. -/
theorem Step.isFair (h : g.Sound) (hfair : g.IsFair) (hstep : Step g cause g') : g'.IsFair := by
  cases hstep with
  | deal hf _ hdeal =>
    obtain ⟨built, ms', -, rfl⟩ := h.of_deal hf hdeal
    exact .of_nil rfl
  | convert hf =>
    -- The only step that changes sides: there is no claim.
    exact .of_nil (h.stances_of_turn hf)
  | income _ hp | coup _ hp =>
    exact hfair.of_suffix (.of_set rfl hp rfl rfl id) List.suffix_rfl
  | claim hf _ hopen =>
    refine hfair.cons (.of_players_eq rfl rfl) rfl (fun target htarget => ?_) fun other hother => ?_
    · obtain ⟨hne, -, hfree⟩ := isTarget_iff.1 (hopen.target target htarget)
      exact ⟨hne, hfree⟩
    · rw [h.stances_of_turn hf] at hother
      cases hother
  | @block c below seat message hf hc _ _ hblock =>
    have hstances := stances_eq hf
    have haimed := hfair.aimed (c.actor, c.effect) (hstances ▸ List.mem_cons_self)
    refine hfair.cons (s := (seat, .block)) (.of_players_eq rfl rfl) ?_ (fun _ => nofun) ?_
    · rw [hstances]
      rfl
    · cases h.shape_of hf with
      | asked hpending =>
        rw [hstances]
        exact hpending.blocker_fair haimed hc hblock
  | acceptLast hf _ hgrant | unopposed hf _ hgrant =>
    exact hfair.grant (x := g.lifted _ _) hf (.of_players_eq rfl rfl) hgrant
  | timeOut hf _ hgrant =>
    exact hfair.grant (x := { g with stack := ⟨_⟩, stirred := true }) hf (.of_players_eq rfl rfl)
      hgrant
  | answer hf hanswer | answerLast hf _ _ _ hanswer =>
    exact hfair.of_suffix hanswer.sameSides (hanswer.stances hf)
  | lose hf hp =>
    exact hfair.of_suffix (.of_set rfl hp rfl rfl Player.isAlive_of_killSlot)
      (stances_eq hf ▸ List.suffix_rfl)
  | loseAll hf hp hall =>
    obtain ⟨slot, -, hkill⟩ := Player.killAll_of_single (h.livingCount_of_losesAll hf hp hall)
    rw [hkill]
    exact hfair.of_suffix (.of_set rfl hp rfl rfl Player.isAlive_of_killSlot)
      (stances_eq hf ▸ List.suffix_rfl)
  | @keepLast e _ _ _ p _ hf _ _ hp =>
    have hlives : p.isAlive = true := by
      cases h.shape_of hf with
      | exchange hplayer _ _ hcurrent => exact (isAlive_eq hp).symm.trans (hplayer ▸ hcurrent)
    exact hfair.of_suffix (.of_set rfl hp rfl rfl fun _ => hlives)
      (stances_eq hf ▸ List.suffix_rfl)
  | change hf _ hp =>
    exact hfair.of_suffix
      (.of_set rfl hp rfl (by rw [Player.redraw_eq])
        Player.isAlive_of_redraw)
      (stances_eq hf ▸ List.suffix_rfl)
  | askTarget | pass | finish | askSomebody =>
    exact hfair.of_suffix (.of_players_eq rfl rfl) List.suffix_rfl
  | accept hf | ask hf | challenge hf | keep hf | showCard hf | showOnly hf | allow hf =>
    exact hfair.of_suffix (.of_players_eq rfl rfl) (stances_eq hf ▸ List.suffix_rfl)
  | dropDead hf =>
    exact hfair.of_suffix (.of_players_eq rfl rfl) (stances_eq hf ▸ List.suffix_cons ..)

/-! ## Runs -/

/-- No claim is aimed at its own player or at one who is protected from that player, and no claim is
blocked by one who is. -/
structure SparesOwnSide (g : Game) : Prop where
  /-- Whoever a claim is aimed at is another player, and not protected. -/
  aimed : ∀ c, Frame.claim c ∈ g.stack.frames → ∀ target, c.effect.victim? = some target →
    target ≠ c.actor ∧ g.protects c.actor target = false
  /-- Whoever blocks a claim is not protected from its player. -/
  blocked : ∀ b c, [Frame.claim b, Frame.claim c] <:+: g.stack.frames →
    g.protects c.actor b.actor = false

/-- Fair claims spare the own side. -/
theorem IsFair.sparesOwnSide (h : g.IsFair) : g.SparesOwnSide where
  aimed c hc := h.aimed (c.actor, c.effect) (List.mem_filterMap.2 ⟨_, hc, rfl⟩)
  blocked b c hbelow := by
    have hstances : [(b.actor, b.effect), (c.actor, c.effect)].Sublist g.stances :=
      hbelow.sublist.filterMap stance?
    exact List.rel_of_pairwise_cons (h.blocked.sublist hstances) List.mem_cons_self

/-- Whatever is called in a run leaves all claims fair. -/
theorem Chain.isFair {P : Game → Prop} {ks : List Call} (hchain : Chain P g ks g')
    (h : g.IsFair) : ∀ y ∈ g' :: stages ks, y.IsFair := by
  refine hchain.invariant Lull.isFair (fun {k} hcall hfair => ?_) h
  rcases hcall.step with hstay | hstep
  · rwa [hstay]
  · exact hstep.isFair hcall.sound hfair

/-- In every reachable game all claims are fair. -/
theorem Reachable.isFair (h : Reachable g) : g.IsFair := by
  induction h with
  | started h =>
    obtain ⟨-, hbegun⟩ := begun_of_start h
    cases hbegun with
    | asking | dealt => exact .of_nil rfl
  | fed hg hfeed ih =>
    have hchain := feed_chain (P := fun _ => True) hg.atRest trivial hfeed
    exact hchain.isFair ih _ List.mem_cons_self

/-- From the moment when a claim or a block is made until its frame is off the stack, whoever it is
aimed at is another player and not protected from its own, whoever dies meanwhile. -/
theorem Reachable.spares_own_side {inputs : List Input} (h : Reachable g)
    (hrun : g.feedAll inputs = .ok x) : ∀ y ∈ x :: stages (g.calls inputs), y.SparesOwnSide := by
  have hchain := (runsThrough_of_feedAll hrun).chain h.atRest
  exact fun y hy => (hchain.isFair h.isFair y hy).sparesOwnSide

/-- Ada steals from Bob, and Cid loses the last card by doubting it: Bob is on the other side still
when he is asked whether he blocks. -/
theorem spares_own_side_stolen : ∃ g x,
    playOut ["Ada", "Bob", "Cid"]
        { seed := some 0, startPlayer := some 0, variant := some .reformation,
          cardOverrides := [.duke, .captain, .contessa, .contessa, .assassin, .assassin] }
        [.press 0 "tax", .press 2 "challenge", .press 0 "reveal:0", .press 2 "lose:0",
          .press 1 "income", .press 2 "income", .press 0 "steal:1"] = some g ∧
      g.isAlive 2 = true ∧
      g.feedAll [.press 2 "challenge", .press 0 "reveal:1"] = .ok x ∧
      x.isAlive 2 = false ∧ x.stances = [(0, .steal 1)] ∧
      ∀ y ∈ x :: stages (g.calls [.press 2 "challenge", .press 0 "reveal:1"]),
        y.SparesOwnSide := by
  have hrun : ((playOut ["Ada", "Bob", "Cid"]
      { seed := some 0, startPlayer := some 0, variant := some .reformation,
        cardOverrides := [.duke, .captain, .contessa, .contessa, .assassin, .assassin] }
      [.press 0 "tax", .press 2 "challenge", .press 0 "reveal:0", .press 2 "lose:0",
        .press 1 "income", .press 2 "income", .press 0 "steal:1"]).bind fun g =>
          (g.feedAll [.press 2 "challenge", .press 0 "reveal:1"]).toOption.map fun x =>
            (g.isAlive 2, x.isAlive 2, x.stances)) = some (true, false, [(0, .steal 1)]) := by
    decide +kernel
  obtain ⟨g, x, hg, hx, hrun⟩ := exists_of_playOut hrun
  simp only [Prod.mk.injEq] at hrun
  obtain ⟨hlives, hdead, hstances⟩ := hrun
  exact ⟨g, x, hg, hlives, hx, hdead, hstances, (reachable_of_playOut hg).spares_own_side hx⟩

end Game

end CoupTable
