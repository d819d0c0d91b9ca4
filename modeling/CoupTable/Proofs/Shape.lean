import CoupTable.Proofs.Steps

/-!
# The shape of the stack

The stack of a running game has one of a few shapes. At the bottom lies the turn. On it lies at most
one thing that the turn has led to: a loss, an exchange, an interrogation, or a claim of the current
player. A claim may carry a block, and the upper one of the two, the *pending* claim, may carry a
challenge, or the loss that a failed challenge costs.

`Shape` says so for the frames of a game, together with what the frames say about each other and
about who is alive. It holds between two inputs and in the middle of one: a claim's player may be
dead for a moment there, having lost the last card by challenging a block, and then the block is
about to go through.
-/

namespace CoupTable

namespace Claim

/-- A claim is what its effect makes it, up to who may still challenge it. -/
structure Fits (c : Claim) : Prop where
  /-- It can be challenged only if its effect allows it. -/
  challengeable : c.challengeable = true → c.effect.isChallengeable = true
  /-- It can be blocked if its effect allows it. -/
  blockable : c.blockable = c.effect.isBlockable
  /-- It is turned round if its effect is. -/
  inverted : c.inverted = c.effect.isInverted
  /-- It is about the clans of its effect. -/
  challengedClans : c.challengedClans = c.effect.challengedClans
  /-- It is blocked by the clans of its effect. -/
  blockingClans : c.blockingClans = c.effect.blockingClans
  /-- It is blocked by whom its effect names. -/
  target : c.target = c.effect.blocker?

/-- The claim `b` blocks the claim `c`. -/
structure Blocks (b c : Claim) : Prop where
  /-- Going through means that `c` is dropped. -/
  effect : b.effect = .block
  /-- A block cannot be blocked. -/
  not_blockable : b.blockable = false
  /-- A block is to have a card. -/
  not_inverted : b.inverted = false
  /-- A block names nobody. -/
  target : b.target = none
  /-- It is another player who blocks. -/
  actor_ne : b.actor ≠ c.actor
  /-- The block is about the clans that can block `c`. -/
  clans : b.challengedClans = c.blockingClans
  /-- The claim `c` can be blocked. -/
  blockable : c.blockable = true

end Claim

namespace Game

/-- A claim of the current player about the turn. -/
structure OnTurn (g : Game) (c : Claim) : Prop where
  /-- The current player makes it. -/
  actor : c.actor = g.current
  /-- It is not a block. -/
  ne_block : c.effect ≠ .block
  /-- It is what its effect makes it. -/
  fits : c.Fits
  /-- It is aimed at another player at the table. -/
  victim : ∀ target, c.effect.victim? = some target →
    target < g.players.length ∧ target ≠ c.actor

/-- The claim `c` is pending on top of the frames `below`. -/
inductive Pending (g : Game) : Claim → List Frame → Prop where
  /-- The current player's claim lies on the turn. -/
  | own {c : Claim} (hc : g.OnTurn c) (hlives : g.isAlive c.actor = true) : Pending g c [.turn]
  /-- A block lies on the current player's claim. Once it cannot be challenged any more, the current
  player may be dead. -/
  | block {b c : Claim} (hc : g.OnTurn c) (halarm : c.alarm = none) (hb : b.Blocks c)
      (hlives : g.isAlive b.actor = true)
      (hactor : b.challengeable = true → g.isAlive c.actor = true) :
    Pending g b [.claim c, .turn]

/-- The frames of a stack, from the top down, as a running game may have them. -/
inductive Shape (g : Game) : List Frame → Prop where
  /-- The current player chooses what to do. -/
  | turn (hlives : ∃ seat, g.isAlive seat = true) : Shape g [.turn]
  /-- The table chooses the variant. -/
  | variantChoice (hv : g.variant = none) : Shape g [.variantChoice, .turn]
  /-- A player has to lose a card to a coup, an assassination or a concession. -/
  | loss {seat other : Nat} (hlives : g.isAlive seat = true) (hne : other ≠ seat)
      (hother : g.isAlive other = true) (hcurrent : g.isAlive g.current = true) :
    Shape g [.loss seat, .turn]
  /-- The current player exchanges cards. -/
  | exchange {e : Exchange} (hplayer : e.player = g.current) (hhand : e.hand.length < handSize)
      (hcards : e.hand.length + e.offered.length = handSize + g.exchangeDraw)
      (hcurrent : g.isAlive g.current = true) : Shape g [.exchange e, .turn]
  /-- The current player interrogates another. -/
  | interrogation {i : Interrogation} (hinquisitor : i.inquisitor = g.current)
      (hne : i.target ≠ g.current) (hlives : g.isAlive i.target = true)
      (hshown : ∀ slot, i.shown = some slot → g.livesAt i.target slot = true)
      (hcurrent : g.isAlive g.current = true) : Shape g [.interrogation i, .turn]
  /-- The table is asked about the pending claim. -/
  | asked {c : Claim} {below : List Frame} (h : g.Pending c below) : Shape g (.claim c :: below)
  /-- The pending claim is challenged. -/
  | challenged {c : Claim} {below : List Frame} {seat : Nat} (h : g.Pending c below)
      (hopen : c.challengeable = true) (halarm : c.alarm = none) (hne : seat ≠ c.actor)
      (hlives : g.isAlive seat = true) :
    Shape g (.reveal ⟨seat, c.actor, c.challengedClans, c.inverted⟩ :: .claim c :: below)
  /-- The pending claim was challenged in vain, and the challenger has to lose a card. -/
  | upheld {c : Claim} {below : List Frame} {seat : Nat} (h : g.Pending c below)
      (hclosed : c.challengeable = false) (halarm : c.alarm = none) (hne : seat ≠ c.actor)
      (hlives : g.isAlive seat = true) (hcurrent : g.isAlive g.current = true) :
    Shape g (.loss seat :: .claim c :: below)

variable {g g' : Game} {c : Claim} {frames below : List Frame}

/-! ## Consequences -/

/-- The pending claim's player is alive. -/
theorem Pending.isAlive_actor (h : g.Pending c below) : g.isAlive c.actor = true := by
  cases h with
  | own _ hlives => exact hlives
  | block _ _ _ hlives _ => exact hlives

/-- As long as the pending claim can be challenged the current player is alive. -/
theorem Pending.isAlive_current (h : g.Pending c below) (hopen : c.challengeable = true) :
    g.isAlive g.current = true := by
  cases h with
  | own hc hlives => rwa [← hc.actor]
  | block hc _ _ _ hactor =>
    rw [← hc.actor]
    exact hactor hopen

/-- At most one claim lies below the pending one. -/
theorem Pending.length_le (h : g.Pending c below) : below.length ≤ 2 := by
  cases h <;> simp

/-- At most four frames are on the stack. -/
theorem Shape.length_le (h : g.Shape frames) : frames.length ≤ 4 := by
  cases h with
  | asked h | challenged h | upheld h =>
    have := h.length_le
    simp only [List.length_cons]
    omega
  | _ => simp

/-! ## Claims that are updated -/

/-- A claim may be accepted, wait with another alarm, and be closed to challenges, and is pending
still. -/
theorem Pending.update (h : g.Pending c below) (accepted : SeatSet) (alarm : Option AlarmId)
    {challengeable : Bool} (hopen : challengeable = true → c.challengeable = true) :
    g.Pending { c with accepted, alarm, challengeable } below := by
  cases h with
  | own hc hlives =>
    have hfits : Claim.Fits { c with accepted, alarm, challengeable } :=
      { hc.fits with challengeable := fun h => hc.fits.challengeable (hopen h) }
    exact .own { actor := hc.actor, ne_block := hc.ne_block, fits := hfits, victim := hc.victim }
      hlives
  | block hc halarm hb hlives hactor =>
    have hb' : Claim.Blocks { c with accepted, alarm, challengeable } _ := { hb with }
    exact .block hc halarm hb' hlives fun h => hactor (hopen h)

/-- Whoever opens a turn with a claim has it pending. -/
theorem CanOpen.pending {effect : Effect} (h : g.CanOpen effect) (message : String) :
    g.Pending (.opening g.current message effect) [.turn] := by
  have hvictim : ∀ target, effect.victim? = some target →
      target < g.players.length ∧ target ≠ g.current := by
    intro target htarget
    have ht := h.target target htarget
    simp only [isTarget, Bool.and_eq_true, bne_iff_ne] at ht
    exact ⟨lt_of_isAlive ht.1.2, ht.1.1⟩
  have hfits : Claim.Fits (.opening g.current message effect) :=
    ⟨id, rfl, rfl, rfl, rfl, rfl⟩
  exact .own ⟨rfl, h.ne_block, hfits, hvictim⟩ h.actor

/-- A pending claim that can be blocked is the current player's, and a block of it is pending on top
of it. -/
theorem Pending.counter {seat : Nat} (h : g.Pending c below) (hblock : c.blockable = true)
    (hne : seat ≠ c.actor) (hlives : g.isAlive seat = true) (message : String) :
    g.Pending (.counter seat message c.blockingClans)
      (.claim { c with alarm := none } :: below) := by
  cases h with
  | own hc hactor =>
    have hc' : g.OnTurn { c with alarm := none } :=
      { actor := hc.actor, ne_block := hc.ne_block, victim := hc.victim
        fits := { hc.fits with } }
    exact .block hc' rfl ⟨rfl, rfl, rfl, rfl, hne, rfl, hblock⟩ hlives fun _ => hactor
  | block _ _ hb =>
    rw [hb.not_blockable] at hblock
    cases hblock

/-! ## What the shape depends on -/

/-- What an aimed claim of the current player depends on. -/
theorem OnTurn.congr (h : g.OnTurn c) (hcurrent : g'.current = g.current)
    (hlen : g'.players.length = g.players.length) : g'.OnTurn c :=
  { h with
    actor := h.actor.trans hcurrent.symm
    victim := by rw [hlen]; exact h.victim }

/-- A claim stays pending as long as its players stay alive. -/
theorem Pending.congr (h : g.Pending c below) (hcurrent : g'.current = g.current)
    (hlen : g'.players.length = g.players.length)
    (hlives : ∀ seat, g.isAlive seat = true → g'.isAlive seat = true) : g'.Pending c below := by
  cases h with
  | own hc ha => exact .own (hc.congr hcurrent hlen) (hlives _ ha)
  | block hc halarm hb hb' ha =>
    exact .block (hc.congr hcurrent hlen) halarm hb (hlives _ hb') fun h => hlives _ (ha h)

/-- A claim stays pending whatever happens to a player other than its own, as long as it cannot be
challenged. -/
theorem Pending.congr_of_ne {seat : Nat} {q : Player} (h : g.Pending c below)
    (hcurrent : g'.current = g.current) (hps : g'.players = g.players.set seat q)
    (hclosed : c.challengeable = false) (hne : seat ≠ c.actor) : g'.Pending c below := by
  have hlen : g'.players.length = g.players.length := by rw [hps, List.length_set]
  have hactor : g'.isAlive c.actor = true := by
    rw [isAlive_of_set hps (Ne.symm hne), h.isAlive_actor]
  cases h with
  | own hc _ => exact .own (hc.congr hcurrent hlen) hactor
  | block hc halarm hb _ _ =>
    refine .block (hc.congr hcurrent hlen) halarm hb hactor fun hopen => ?_
    rw [hclosed] at hopen
    cases hopen

/-- The frames keep their shape as long as the same slots are alive. -/
theorem Shape.congr (h : g.Shape frames) (hcurrent : g'.current = g.current)
    (hvariant : g'.variant = g.variant) (hlen : g'.players.length = g.players.length)
    (hlife : g.SameLife g') : g'.Shape frames := by
  have hlives : ∀ seat, g.isAlive seat = true → g'.isAlive seat = true :=
    fun seat hseat => by rw [hlife.isAlive_eq, hseat]
  cases h with
  | turn hl =>
    obtain ⟨seat, hseat⟩ := hl
    exact .turn ⟨seat, hlives seat hseat⟩
  | variantChoice hv => exact .variantChoice (hvariant.trans hv)
  | loss hl hne hother ha =>
    exact .loss (hlives _ hl) hne (hlives _ hother) (hcurrent ▸ hlives _ ha)
  | exchange hplayer hhand hcards ha =>
    refine .exchange (hplayer.trans hcurrent.symm) hhand ?_ (hcurrent ▸ hlives _ ha)
    rw [hcards, exchangeDraw, exchangeDraw, usesInquisitor, usesInquisitor, hvariant]
  | interrogation hinquisitor hne hl hshown ha =>
    refine .interrogation (hinquisitor.trans hcurrent.symm) (by rw [hcurrent]; exact hne)
      (hlives _ hl) (fun slot hslot => ?_) (hcurrent ▸ hlives _ ha)
    rw [hlife, hshown slot hslot]
  | asked h => exact .asked (h.congr hcurrent hlen hlives)
  | challenged h hopen halarm hne hl =>
    exact .challenged (h.congr hcurrent hlen hlives) hopen halarm hne (hlives _ hl)
  | upheld h hclosed halarm hne hl ha =>
    exact .upheld (h.congr hcurrent hlen hlives) hclosed halarm hne (hlives _ hl)
      (hcurrent ▸ hlives _ ha)

end Game

end CoupTable
