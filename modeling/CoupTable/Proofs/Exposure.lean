import CoupTable.Proofs.OpenFrames
import CoupTable.Proofs.Tolls

/-!
# Calls that show a card

A call of the frame on top shows a card of a player if one dies, if it is revealed or the hand is
shown in answer to a challenge, or if the inquisitor is asked about it (`Call.exposes`). The frames
that wait for a player's own cards do nothing else with them before the others' eyes: with such a
frame on top, a call that shows no card is ignored, or it is discreet all the same.
-/

namespace CoupTable.Game

variable {q seat slot : Nat} {g g' x : Game} {cause : Cause} {r : Reveal} {i : Interrogation}
  {m : Move} {p : Player} {below : List Frame}

/-! ## Showing cards -/

namespace Call

/-- Whether a card of a player dies. -/
def kills (q : Nat) (k : Call) : Bool := k.after.deadCardsOf q != k.before.deadCardsOf q

/-- Whether a challenged player reveals a card or shows the hand. -/
def reveals (q : Nat) (k : Call) : Bool :=
  match k.before.stack.top? with
  | some (.reveal r) =>
    r.challenged == q && ((k.before.showHand r).toOption == some k.after
      || (List.range handSize).any fun slot =>
        (k.before.revealCard r slot).toOption == some k.after)
  | _ => false

/-- Whether the inquisitor is asked about a card of a player. -/
def submits (q : Nat) (k : Call) : Bool :=
  match k.before.stack.top? with
  | some (.interrogation i) =>
    i.target == q && (List.range handSize).any fun slot =>
      ((k.before.setTop (.interrogation { i with shown := some slot })).askInquisitor i
        slot).toOption == some k.after
  | _ => false

/-- Whether others get to see a card of a player. -/
def exposes (q : Nat) (k : Call) : Bool := k.kills q || k.reveals q || k.submits q

end Call

/-- Whatever the call comes to, it shows no card of the player. -/
def Hides (q : Nat) (g : Game) (cause : Cause) (result : Except Fault Game) : Prop :=
  ∀ x, result = .ok x → Call.exposes q ⟨g, cause, x⟩ = false

namespace Hides

variable {result : Except Fault Game}

/-- No card dies, none is revealed, and the inquisitor is asked about none. -/
theorem parts (h : Hides q g cause result) (hx : result = .ok x) :
    Call.kills q ⟨g, cause, x⟩ = false ∧ Call.reveals q ⟨g, cause, x⟩ = false ∧
      Call.submits q ⟨g, cause, x⟩ = false := by
  have hexposes := h x hx
  rw [Call.exposes, Bool.or_eq_false_iff, Bool.or_eq_false_iff] at hexposes
  exact ⟨hexposes.1.1, hexposes.1.2, hexposes.2⟩

/-- As many cards are dead as were. -/
theorem dead_eq (h : Hides q g cause result) (hx : result = .ok x) :
    x.deadCardsOf q = g.deadCardsOf q := by
  simpa [Call.kills] using (h.parts hx).1

/-- An answer to a challenge of the player neither shows the hand nor reveals a card. -/
theorem not_reveals (h : Hides q g cause result) (hx : result = .ok x)
    (hf : g.stack.frames = .reveal r :: below) (hq : r.challenged = q) :
    g.showHand r ≠ .ok x ∧ ∀ slot < handSize, g.revealCard r slot ≠ .ok x := by
  have hreveals := (h.parts hx).2.1
  have htop : g.stack.top? = some (.reveal r) := congrArg List.head? hf
  simp only [Call.reveals, htop, hq, beq_self_eq_true, Bool.true_and, Bool.or_eq_false_iff,
    List.any_eq_false, List.mem_range] at hreveals
  refine ⟨fun hshow => ?_, fun slot hslot hreveal => hreveals.2 slot hslot ?_⟩
  · rw [hshow] at hreveals
    cases (beq_self_eq_true (some x)).symm.trans hreveals.1
  · rw [hreveal]
    exact beq_self_eq_true _

/-- In an interrogation of the player the inquisitor is not asked about a card. -/
theorem not_submits (h : Hides q g cause result) (hx : result = .ok x)
    (hf : g.stack.frames = .interrogation i :: below) (hq : i.target = q) :
    ∀ slot < handSize,
      (g.setTop (.interrogation { i with shown := some slot })).askInquisitor i slot ≠ .ok x := by
  intro slot hslot hask
  subst hq
  have hsubmits := (h.parts hx).2.2
  have htop : g.stack.top? = some (.interrogation i) := congrArg List.head? hf
  simp only [Call.submits, htop, beq_self_eq_true, Bool.true_and, List.any_eq_false,
    List.mem_range] at hsubmits
  refine hsubmits slot hslot ?_
  rw [hask]
  exact beq_self_eq_true _

end Hides

/-! ## Behind the veil -/

/-- A player at the table is there in any game that looks the same. -/
theorem exists_player_of_veiled (hsame : g.veiled q = g'.veiled q)
    (hp : g.players[seat]? = some p) : ∃ p', g'.players[seat]? = some p' := by
  have hlength : g'.players.length = g.players.length :=
    read_eq_of_veiled (r := (·.players.length)) (length_players_veiled q) hsame.symm
  obtain ⟨hlt, -⟩ := List.getElem?_eq_some_iff.1 hp
  exact exists_player (hlength ▸ hlt)

/-- The hidden player looks the same in games that do. -/
theorem player_veiled_eq {p' : Player} (hsame : g.veiled q = g'.veiled q)
    (hp : g.players[q]? = some p) (hp' : g'.players[q]? = some p') : p.veiled = p'.veiled := by
  have hseat := congrArg (·.players[q]?) hsame
  simp only [getElem?_veiled, hp, hp', Option.map_some, if_true] at hseat
  exact Option.some.inj hseat

/-- What does not depend on living cards is the same for the hidden player in games that look the
same. -/
theorem eq_of_veiled {α : Type} {p p' : Player} (look : Player → α)
    (hlook : ∀ p : Player, look p.veiled = look p) (h : p.veiled = p'.veiled) :
    look p = look p' := by
  rw [← hlook p, h, hlook p']

/-- Stacks without exchanges that look the same are the same. -/
theorem eq_of_map_veiled {frames frames' : List Frame}
    (h : frames.map (Frame.veiled q) = frames'.map (Frame.veiled q))
    (hnone : ∀ e, Frame.exchange e ∉ frames) : frames' = frames := by
  induction frames generalizing frames' with
  | nil =>
    rw [List.map_nil, eq_comm, List.map_eq_nil_iff] at h
    exact h
  | cons f frames ih =>
    cases frames' with
    | nil => cases h
    | cons f' frames' =>
      obtain ⟨hhead, htail⟩ := List.cons.inj h
      have hrest := ih htail fun e he => hnone e (List.mem_cons_of_mem _ he)
      rcases Frame.eq_or_of_veiled hhead with rfl | ⟨e, -, rfl, -⟩
      · rw [hrest]
      · exact absurd List.mem_cons_self (hnone e)

/-- An exchange lies on the turn, on top of the stack. -/
theorem Shape.eq_of_mem_exchange {frames : List Frame} {e : Exchange} (h : g.Shape frames)
    (he : Frame.exchange e ∈ frames) : frames = [.exchange e, .turn] := by
  cases h with
  | asked h | challenged h | upheld h => cases h <;> simp at he
  | exchange =>
    simp only [List.mem_cons, Frame.exchange.injEq, List.not_mem_nil, reduceCtorEq, or_false] at he
    rw [he]
  | _ => simp at he

/-- A game that looks like a sound one has the same stack, unless both are down to an exchange. -/
theorem Sound.frames_cases (h : g.Sound) (hsame : g.veiled q = g'.veiled q) :
    (g'.stack.frames = g.stack.frames ∧ ∀ e, Frame.exchange e ∉ g.stack.frames) ∨
      ∃ e e', g.stack.frames = [.exchange e, .turn] ∧ g'.stack.frames = [.exchange e', .turn] ∧
        e.veiled q = e'.veiled q := by
  have hframes : g.stack.frames.map (Frame.veiled q) = g'.stack.frames.map (Frame.veiled q) :=
    congrArg (·.stack.frames) hsame
  by_cases hexchange : ∃ e, Frame.exchange e ∈ g.stack.frames
  · obtain ⟨e, he⟩ := hexchange
    have hf := h.shape.eq_of_mem_exchange he
    rw [hf] at hframes
    cases hf' : g'.stack.frames with
    | nil =>
      rw [hf'] at hframes
      cases hframes
    | cons f' below' =>
      rw [hf'] at hframes
      obtain ⟨hhead, htail⟩ := List.cons.inj hframes
      have hbelow : below' = [.turn] := eq_of_map_veiled htail (by simp)
      rw [hbelow]
      rcases Frame.eq_or_of_veiled hhead with rfl | ⟨d, e', hd, rfl, -, hlook⟩
      · exact .inr ⟨e, e, hf, rfl, rfl⟩
      · rw [Frame.exchange.inj hd] at hf
        exact .inr ⟨d, e', hf, rfl, hlook⟩
  · have hnone : ∀ e, Frame.exchange e ∉ g.stack.frames := fun e he => hexchange ⟨e, he⟩
    exact .inl ⟨eq_of_map_veiled hframes hnone, hnone⟩

/-! ## The player's own losses -/

/-- No living card is given up where no card is shown. -/
theorem Hides.not_lost {result : Except Fault Game} (h : Hides q g cause result)
    (hp : g.players[q]? = some p) (hlives : p.hasLiving slot = true)
    (hps : x.players = g.players.set q (p.killSlot slot)) : result ≠ .ok x := by
  intro hresult
  have hdead := h.dead_eq hresult
  rw [deadCardsOf_of_set hp hps, if_pos rfl, deadCardsOf_eq hp,
    Player.deadCount_killSlot hlives] at hdead
  omega

/-- What is pressed while the player has to lose a card is ignored, if no card is shown. -/
theorem veil_lossInput (h : g.Sound) (hf : g.stack.frames = .loss q :: below)
    (hsame : g.veiled q = g'.veiled q) (hhides : Hides q g cause (g.lossInput q seat m)) :
    veil q (g.lossInput q seat m) = veil q (g'.lossInput q seat m) := by
  obtain ⟨p, hp, -⟩ := h.of_loss hf
  obtain ⟨p', hp'⟩ := exists_player_of_veiled hsame hp
  have hlook := player_veiled_eq hsame hp hp'
  have hnot : ¬ ∃ slot, m = .lose slot ∧ seat = q ∧ p.hasLiving slot = true := by
    rintro ⟨slot, rfl, rfl, hlives⟩
    obtain ⟨ms, -, hlost⟩ := lossInput_eq hf hp hlives
    exact hhides.not_lost hp hlives rfl hlost
  have hnot' : ¬ ∃ slot, m = .lose slot ∧ seat = q ∧ p'.hasLiving slot = true := by
    rintro ⟨slot, hm, hseat, hlives⟩
    refine hnot ⟨slot, hm, hseat, ?_⟩
    rw [eq_of_veiled (·.hasLiving slot) (·.hasLiving_veiled slot) hlook]
    exact hlives
  rw [lossInput_of_not hp hnot, lossInput_of_not hp' hnot']
  exact congrArg Except.ok hsame

/-- Where not all cards are owed the player is asked. -/
theorem veil_askLoss (hp : g.players[q]? = some p) (hall : ¬ g.losesAll q p.livingCount = true) :
    veil q (g.lossIdle q) = .ok (g.veiled q) := by
  rw [lossIdle_ask hp hall]
  exact veil_tell_self _ _ _

/-- When a loss of the player goes on, the player is asked, if no card is shown. -/
theorem veil_lossIdle (h : g.Sound) (hf : g.stack.frames = .loss q :: below)
    (hsame : g.veiled q = g'.veiled q) (hhides : Hides q g cause (g.lossIdle q)) :
    veil q (g.lossIdle q) = veil q (g'.lossIdle q) := by
  obtain ⟨p, hp, -⟩ := h.of_loss hf
  obtain ⟨p', hp'⟩ := exists_player_of_veiled hsame hp
  have hlook := player_veiled_eq hsame hp hp'
  have hnot : ¬ g.losesAll q p.livingCount = true := by
    intro hall
    -- All cards that are left are one card, which would be lost.
    obtain ⟨slot, hlives, hkill⟩ :=
      Player.killAll_of_single (h.livingCount_of_losesAll hf hp hall)
    have hlost := lossIdle_all hf hp hall
    rw [hkill] at hlost
    exact hhides.not_lost hp hlives rfl hlost
  have hnot' : ¬ g'.losesAll q p'.livingCount = true := by
    rw [← losesAll_veiled q, ← hsame, losesAll_veiled,
      ← eq_of_veiled (·.livingCount) (·.livingCount_veiled) hlook]
    exact hnot
  rw [veil_askLoss hp hnot, veil_askLoss hp' hnot', hsame]

/-! ## The player's own answers -/

/-- A living card is in one of the two slots. -/
theorem Sound.slot_lt (h : g.Sound) (hv : g.variant ≠ none) (hp : g.players[seat]? = some p)
    (hlives : p.hasLiving slot = true) : slot < handSize := by
  obtain ⟨card, hcard, -⟩ := Player.hasLiving_iff.1 hlives
  rw [← h.length_hand hv hp]
  exact (List.getElem?_eq_some_iff.1 hcard).1

/-- A challenge lies on the claim that is challenged. -/
theorem Shape.exists_claim (h : g.Shape (.reveal r :: below)) :
    ∃ c rest, below = .claim c :: rest := by
  cases h with
  | challenged => exact ⟨_, _, rfl⟩

/-- What is pressed in answer to a challenge, but for the answers that show a card. -/
theorem revealInput_of_not (hp : g.players[r.challenged]? = some p)
    (hplain : ∀ slot, m = .reveal slot → seat = r.challenged → r.inverted = false →
      p.hasLiving slot = false)
    (hinverted : m = .reveal 1 → seat = r.challenged → r.inverted = true →
      p.holds r.clans = true) :
    g.revealInput r seat m
      = if seat = r.challenged ∧ r.inverted = true ∧ m = .reveal 0 then g.concede r else .ok g := by
  cases m with
  | reveal choice =>
    -- The game in terms of the player, in whose place the hypotheses speak of the hand.
    have heq : g.revealInput r seat (.reveal choice)
        = if seat ≠ r.challenged then .ok g
          else if r.inverted then
            if choice = 0 then g.concede r
            else if choice = 1 && !p.holds r.clans then g.showHand r
            else .ok g
          else if p.hasLiving choice then g.revealCard r choice
          else .ok g := by
      unfold revealInput
      dsimp only
      rw [player_eq hp, ok_bind]
      rfl
    by_cases hseat : seat = r.challenged
    · rw [if_neg (not_not.2 hseat)] at heq
      cases hr : r.inverted with
      | true =>
        rw [hr, if_pos rfl] at heq
        by_cases hzero : choice = 0
        · rw [if_pos hzero] at heq
          rw [if_pos ⟨hseat, rfl, congrArg Move.reveal hzero⟩]
          exact heq
        · -- The hand would be shown, but it has the card that the player denies to have.
          rw [if_neg hzero] at heq
          rw [if_neg fun hconcedes => hzero (Move.reveal.inj hconcedes.2.2)]
          split at heq
          next hshow =>
            simp only [Bool.and_eq_true, decide_eq_true_eq, Bool.not_eq_true'] at hshow
            have hholds := hinverted (congrArg Move.reveal hshow.1) hseat hr
            cases hholds.symm.trans hshow.2
          next => exact heq
      | false =>
        rw [hr, if_neg Bool.false_ne_true, hplain choice rfl hseat hr,
          if_neg Bool.false_ne_true] at heq
        rw [if_neg fun hconcedes => Bool.false_ne_true hconcedes.2.1]
        exact heq
    · rw [if_pos hseat] at heq
      rw [if_neg fun hconcedes => hseat hconcedes.1]
      exact heq
  | _ =>
    rw [if_neg fun hconcedes => Move.noConfusion hconcedes.2.2]
    rfl

/-- Where no card is shown, a player who could show the hand holds what was challenged. -/
theorem Hides.holds {challenger : Player} {c : Claim}
    (h : Hides q g cause (g.revealInput r r.challenged (.reveal 1)))
    (hf : g.stack.frames = .reveal r :: .claim c :: below)
    (hlen : below.length + 1 < Stack.maxDepth)
    (hchallenger : g.players[r.challenger]? = some challenger)
    (hp : g.players[r.challenged]? = some p) (hinverted : r.inverted = true)
    (hq : r.challenged = q) : p.holds r.clans = true := by
  cases hclan : p.holds r.clans with
  | true => rfl
  | false =>
    obtain ⟨x, hx, -⟩ := showHand_eq hf hlen hchallenger hp hinverted hclan
    have hshow : g.revealInput r r.challenged (.reveal 1) = g.showHand r := by
      unfold revealInput
      dsimp only
      rw [player_eq hp, ok_bind]
      simp only [ne_eq, not_true_eq_false, if_false, hinverted, hclan, if_true]
      rfl
    exact absurd hx (h.not_reveals (hshow.trans hx) hf hq).1

/-- What is pressed in answer to a challenge of the player concedes it or is ignored, if no card is
shown. -/
theorem veil_revealInput (h : g.Sound) (hf : g.stack.frames = .reveal r :: below)
    (hf' : g'.stack.frames = .reveal r :: below) (hsame : g.veiled q = g'.veiled q)
    (hq : r.challenged = q) (hhides : Hides q g cause (g.revealInput r seat m))
    (hhides' : Hides q g' cause (g'.revealInput r seat m)) :
    veil q (g.revealInput r seat m) = veil q (g'.revealInput r seat m) := by
  obtain ⟨c, rest, rfl⟩ := (h.shape_of hf).exists_claim
  obtain ⟨challenger, p, hchallenger, hp, hlen⟩ := h.of_challenge hf
  obtain ⟨challenger', hchallenger'⟩ := exists_player_of_veiled hsame hchallenger
  obtain ⟨p', hp'⟩ := exists_player_of_veiled hsame hp
  have hlook : p.veiled = p'.veiled := by
    subst hq
    exact player_veiled_eq hsame hp hp'
  have hplain : ∀ slot, m = .reveal slot → seat = r.challenged → r.inverted = false →
      p.hasLiving slot = false := by
    rintro slot rfl rfl hinverted
    cases hlives : p.hasLiving slot with
    | false => rfl
    | true =>
      have hslot := h.slot_lt (h.variant_ne_none hf nofun) hp hlives
      obtain ⟨x, hx, -⟩ := revealCard_eq h hf hp hinverted hlives
      have hreveal : g.revealInput r r.challenged (.reveal slot) = g.revealCard r slot := by
        unfold revealInput
        dsimp only
        rw [player_eq hp, ok_bind]
        simp only [ne_eq, not_true_eq_false, if_false, hinverted, hlives, if_true,
          Bool.false_eq_true]
      exact absurd hx ((hhides.not_reveals (hreveal.trans hx) hf hq).2 slot hslot)
  have hplain' : ∀ slot, m = .reveal slot → seat = r.challenged → r.inverted = false →
      p'.hasLiving slot = false := by
    intro slot hm hseat hinverted
    rw [← eq_of_veiled (·.hasLiving slot) (·.hasLiving_veiled slot) hlook]
    exact hplain slot hm hseat hinverted
  -- Whether the player holds what was challenged need not be the same in both games.
  have hholds : m = .reveal 1 → seat = r.challenged → r.inverted = true →
      p.holds r.clans = true := by
    rintro rfl rfl hinverted
    exact hhides.holds hf hlen hchallenger hp hinverted hq
  have hholds' : m = .reveal 1 → seat = r.challenged → r.inverted = true →
      p'.holds r.clans = true := by
    rintro rfl rfl hinverted
    exact hhides'.holds hf' hlen hchallenger' hp' hinverted hq
  have hopen : Discreet q fun g =>
      if seat = r.challenged ∧ r.inverted = true ∧ m = .reveal 0 then g.concede r else .ok g :=
    .ite (fun _ => rfl) (discreet_concede r) (.of_commutes fun _ => rfl)
  rw [revealInput_of_not hp hplain hholds, revealInput_of_not hp' hplain' hholds']
  exact hopen g g' hsame

/-- A player who has a choice what to answer is asked. -/
theorem revealIdle_of_not (hp : g.players[r.challenged]? = some p) (hlives : p.isAlive = true)
    (hnot : r.inverted = false → p.singleLiving? = none) :
    g.revealIdle r = g.askChallenged r := by
  unfold revealIdle
  rw [player_eq hp, ok_bind, hlives]
  simp only [Bool.not_true, Bool.false_eq_true, if_false]
  split
  next slot hinverted hsingle => cases (hnot hinverted).symm.trans hsingle
  next => rfl

/-- When a challenge to the player goes on, the player is asked, if no card is shown. -/
theorem veil_revealIdle (h : g.Sound) (hf : g.stack.frames = .reveal r :: below)
    (hsame : g.veiled q = g'.veiled q) (hq : r.challenged = q)
    (hhides : Hides q g cause (g.revealIdle r)) :
    veil q (g.revealIdle r) = veil q (g'.revealIdle r) := by
  obtain ⟨c, rest, rfl⟩ := (h.shape_of hf).exists_claim
  obtain ⟨-, p, -, hp, -⟩ := h.of_challenge hf
  obtain ⟨p', hp'⟩ := exists_player_of_veiled hsame hp
  have hlook : p.veiled = p'.veiled := by
    subst hq
    exact player_veiled_eq hsame hp hp'
  have hlives : p.isAlive = true := by
    rw [← isAlive_eq hp]
    exact (h.shape_of hf).isAlive_challenged
  have hnot : r.inverted = false → p.singleLiving? = none := by
    intro hinverted
    cases hsingle : p.singleLiving? with
    | none => rfl
    | some slot =>
      -- The last card would be revealed without asking.
      have hlast := (Player.singleLiving?_eq_some hsingle).1
      have hslot := h.slot_lt (h.variant_ne_none hf nofun) hp hlast
      obtain ⟨x, hx, -⟩ := revealCard_eq h hf hp hinverted hlast
      have hreveal : g.revealIdle r = g.revealCard r slot := by
        unfold revealIdle
        rw [player_eq hp, ok_bind]
        simp only [hlives, Bool.not_true, Bool.false_eq_true, if_false, hinverted, hsingle]
      exact absurd hx ((hhides.not_reveals (hreveal.trans hx) hf hq).2 slot hslot)
  have hlives' : p'.isAlive = true := by
    rw [← eq_of_veiled (·.isAlive) (·.isAlive_veiled) hlook]
    exact hlives
  have hnot' : r.inverted = false → p'.singleLiving? = none := by
    intro hinverted
    rw [← eq_of_veiled (·.singleLiving?) (·.singleLiving?_veiled) hlook]
    exact hnot hinverted
  rw [revealIdle_of_not hp hlives hnot, revealIdle_of_not hp' hlives' hnot']
  exact discreet_askChallenged r g g' hsame

/-! ## Interrogations of the player -/

/-- A player who has a choice what to show is asked. -/
theorem veil_askShow {inquisitor : Player}
    (hinquisitor : g.players[i.inquisitor]? = some inquisitor)
    (hp : g.players[i.target]? = some p) (hshown : i.shown = none)
    (hsingle : p.singleLiving? = none) (hq : i.target = q) :
    veil q (g.interrogationIdle i) = .ok (g.veiled q) := by
  subst hq
  unfold interrogationIdle
  rw [player_eq hinquisitor, ok_bind, player_eq hp, ok_bind, hshown, hsingle]
  exact veil_tell_self _ _ _

/-- When an interrogation of the player goes on, the player is asked, if no card is shown. -/
theorem veil_interrogationIdle (h : g.Sound) (hf : g.stack.frames = .interrogation i :: below)
    (hsame : g.veiled q = g'.veiled q) (hq : i.target = q)
    (hhides : Hides q g cause (g.interrogationIdle i)) :
    veil q (g.interrogationIdle i) = veil q (g'.interrogationIdle i) := by
  obtain ⟨inquisitor, p, hinquisitor, hp, hlives⟩ := h.of_interrogation hf
  obtain ⟨inquisitor', hinquisitor'⟩ := exists_player_of_veiled hsame hinquisitor
  obtain ⟨p', hp'⟩ := exists_player_of_veiled hsame hp
  have hv := h.variant_ne_none hf nofun
  have hshown : i.shown = none := by
    cases hshown : i.shown with
    | none => rfl
    | some slot =>
      -- The inquisitor would be asked about the card that was shown.
      have hslot := h.slot_lt hv hp (hlives slot hshown)
      obtain ⟨ms, -, hask⟩ := askInquisitor_eq hp (hlives slot hshown)
      have heq : g.interrogationIdle i = g.askInquisitor i slot := by
        unfold interrogationIdle
        rw [player_eq hinquisitor, ok_bind, player_eq hp, ok_bind, hshown]
      have hset : g.setTop (.interrogation { i with shown := some slot }) = g := by
        rw [setTop_eq hf, ← hshown, ← hf]
      exact absurd (hset.symm ▸ hask) (hhides.not_submits (heq.trans hask) hf hq slot hslot)
  have hsingle : p.singleLiving? = none := by
    cases hsingle : p.singleLiving? with
    | none => rfl
    | some slot =>
      -- The last card would be shown without asking.
      have hlast := (Player.singleLiving?_eq_some hsingle).1
      have hslot := h.slot_lt hv hp hlast
      obtain ⟨ms, -, hask⟩ := askInquisitor_eq (g := { g with
        stack := ⟨.interrogation { i with shown := some slot } :: below⟩ }) (i := i) hp hlast
      rw [← setTop_eq hf] at hask
      have heq : g.interrogationIdle i
          = (g.setTop (.interrogation { i with shown := some slot })).askInquisitor i slot := by
        unfold interrogationIdle
        rw [player_eq hinquisitor, ok_bind, player_eq hp, ok_bind, hshown, hsingle]
      exact absurd hask (hhides.not_submits (heq.trans hask) hf hq slot hslot)
  have hsingle' : p'.singleLiving? = none := by
    subst hq
    rw [← eq_of_veiled (·.singleLiving?) (·.singleLiving?_veiled) (player_veiled_eq hsame hp hp')]
    exact hsingle
  rw [veil_askShow hinquisitor hp hshown hsingle hq,
    veil_askShow hinquisitor' hp' hshown hsingle' hq, hsame]

/-! ## Cards changed unseen -/

/-- A game as it looks to everybody but one player, and without the draw pile, which nobody sees. -/
def outside (q : Nat) (g : Game) : Game := { g.veiled q with rng := ⟨0, 0⟩, deck := {} }

/-- What the hidden player is told is not seen. -/
theorem veiled_saying {ms : List Message} (hms : ∀ m ∈ ms, m.recipient = .player q) (g : Game) :
    veiled q { g with venue := g.venue.saying ms } = g.veiled q := by
  have hout : (ms ++ g.venue.outbox).filter (·.recipient != .player q)
      = g.venue.outbox.filter (·.recipient != .player q) := by
    have hnone : ms.filter (·.recipient != .player q) = [] := by
      rw [List.filter_eq_nil_iff]
      intro m hm
      simp [hms m hm]
    rw [List.filter_append, hnone, List.nil_append]
  exact congrArg (fun outbox => { g.veiled q with venue := { g.venue with outbox } }) hout

/-- A living card in the place of another looks the same. -/
theorem veiled_setCharacter (hlives : p.hasLiving slot = true) (c : Character) :
    (p.setCharacter slot c).veiled = p.veiled := by
  obtain ⟨card, hcard, hdead⟩ := Player.hasLiving_iff.1 hlives
  have hcards : (p.cards.modify slot fun card => { card with character := c }).map (·.veiled)
      = p.cards.map (·.veiled) := by
    apply List.ext_getElem?
    intro other
    simp only [List.getElem?_map, List.getElem?_modify]
    by_cases heq : slot = other
    · subst heq
      simp [hcard, Card.veiled, hdead]
    · simp [heq]
  exact congrArg (fun cards => { p with cards }) hcards

/-- An exchange of the hidden player ends with cards that nobody sees. -/
theorem endExchange_outside {e : Exchange} (e' : Exchange)
    (hf : g.stack.frames = .exchange e :: below)
    (hplayer : e'.player = e.player) (hq : e.player = q) (hp : g.players[q]? = some p) :
    ∃ x, g.endExchange e' = .ok x ∧ x.stack.frames = below ∧ x.outside q = outside q { g with
      players := g.players.set q { p with cards := e'.hand }
      stack := ⟨below⟩
      stirred := true } := by
  subst hq
  obtain ⟨ms, htold, hend⟩ := endExchange_eq e' hf hplayer hp
  refine ⟨_, hend, rfl, ?_⟩
  have hsaid := veiled_saying htold { g with
    rng := (g.reshuffled e'.offered).2
    players := g.players.set e.player { p with cards := e'.hand }
    deck := (g.reshuffled e'.offered).1
    stack := ⟨below⟩
    stirred := true }
  exact congrArg (fun g : Game => { g with rng := ⟨0, 0⟩, deck := {} }) hsaid

/-- A card of the hidden player that the inquisitor has changed is changed for one that nobody else
sees. -/
theorem makeChange_outside {inquisitor : Player} (hf : g.stack.frames = .interrogation i :: below)
    (hinquisitor : g.players[i.inquisitor]? = some inquisitor)
    (hp : g.players[i.target]? = some p) (hslot : p.hasLiving slot = true) (hq : i.target = q) :
    ∃ x, g.keepInput i slot false = .ok x ∧ x.stack.frames = below ∧ x.outside q = outside q
      { g.note (Wording.madeChange (g.nameOf i.inquisitor) (g.nameOf i.target)) with
        stack := ⟨below⟩
        stirred := true } := by
  obtain ⟨card, hcard, hdead⟩ := Player.hasLiving_iff.1 hslot
  obtain ⟨drawn, rest, ms, htold, -, hchange⟩ := changeCard_eq hp hcard hdead
  have hnames : g.nameOf i.inquisitor = inquisitor.name ∧ g.nameOf i.target = p.name := by
    unfold nameOf
    rw [hinquisitor, hp]
    exact ⟨rfl, rfl⟩
  have hkeep : g.keepInput i slot false = .ok { g with
      venue := (g.venue.saying ms).broadcast (Wording.madeChange inquisitor.name p.name)
      rng := (g.reshuffled [card.character]).2
      players := g.players.set i.target (p.redraw [slot] [drawn])
      deck := ⟨rest⟩
      stack := ⟨below⟩
      stirred := true } := by
    unfold keepInput
    rw [player_eq hinquisitor, ok_bind, player_eq hp, ok_bind]
    simp only [Bool.false_eq_true, if_false, hchange, pure_eq_ok, ok_bind, note_eq]
    rw [@pop_eq _ (.interrogation i) below]
    · rfl
    · exact hf
  refine ⟨_, hkeep, rfl, ?_⟩
  subst hq
  rw [hnames.1, hnames.2]
  -- The player looks the same with the new card, and is told about it alone.
  have hplayers : (g.players.set i.target (p.redraw [slot] [drawn])).modify i.target (·.veiled)
      = g.players.modify i.target (·.veiled) := by
    have hself : g.players.set i.target p = g.players := by
      obtain ⟨hlt, hget⟩ := List.getElem?_eq_some_iff.1 hp
      rw [← hget, List.set_getElem_self]
    rw [← hself, List.set_set]
    exact modify_set_veiled rfl (fun _ => veiled_setCharacter hslot drawn) fun hne => absurd rfl hne
  have hsaid := veiled_saying htold { g with
    rng := (g.reshuffled [card.character]).2
    players := g.players.set i.target (p.redraw [slot] [drawn])
    deck := ⟨rest⟩
    stack := ⟨below⟩
    stirred := true }
  refine (congrArg (fun x : Game => { x.note (Wording.madeChange inquisitor.name p.name) with
    rng := ⟨0, 0⟩, deck := {} }) hsaid).trans ?_
  exact congrArg (fun players => { outside i.target
    { g.note (Wording.madeChange inquisitor.name p.name) with
      stack := ⟨below⟩, stirred := true } with players }) hplayers

end CoupTable.Game
