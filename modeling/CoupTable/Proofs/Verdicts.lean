import CoupTable.Proofs.Owing

/-!
# What a challenge comes to

A challenge is answered by a choice of the challenged player. Of a claim to have a card it is the
slot of a living card, which is revealed; of a claim *not* to have one, `1` shows a hand without
such cards, and `0` concedes. The answer proves the claim or does not, and `Verdict` says what has
become of the cards, of the claim and of a claim below it once the card that this costs is lost.
-/

namespace CoupTable

/-- The challenge of a claim by the player in a seat. -/
def Claim.challengedBy (c : Claim) (seat : Nat) : Reveal :=
  ⟨seat, c.actor, c.challengedClans, c.inverted⟩

namespace Player

/-- Whether a choice of the challenged player answers a challenge. -/
def answers (p : Player) (r : Reveal) (choice : Nat) : Bool :=
  if r.inverted then choice == 0 || choice == 1 && !p.holds r.clans else p.hasLiving choice

/-- Whether a choice of the challenged player proves the claim. -/
def proves (p : Player) (r : Reveal) (choice : Nat) : Bool :=
  if r.inverted then choice == 1 && !p.holds r.clans
  else p.cards[choice]?.any fun card => !card.dead && r.clans.contains card.character.clan

/-- The living cards that a choice of the challenged player shows, with their slots. -/
def shown (p : Player) (r : Reveal) (choice : Nat) : List (Nat × Character) :=
  if r.inverted then p.living else p.living.filter (·.1 == choice)

/-- The choice with which an input answers a challenge, if it does. -/
def answer? (p : Player) (r : Reveal) : Input → Option Nat
  | .press seat data =>
    match Move.parse? data with
    | some (.reveal choice) =>
      if seat = r.challenged ∧ p.answers r choice = true then some choice else none
    | _ => none
  | .expire _ | .advance _ => none

/-- The choice with which a challenge is answered: a last card is revealed without asking, and
otherwise the first answer counts that comes in. -/
def choice? (p : Player) (r : Reveal) (inputs : List Input) : Option Nat :=
  match r.inverted, p.singleLiving? with
  | false, some slot => some slot
  | _, _ => inputs.findSome? (p.answer? r)

variable {p : Player} {r : Reveal} {slot choice : Nat} {card : Card}

/-- A living card that is revealed is the one that is shown. -/
theorem shown_eq (hplain : r.inverted = false) (hcard : p.cards[slot]? = some card)
    (hlives : card.dead = false) : p.shown r slot = [(slot, card.character)] := by
  have hmem : (slot, card.character) ∈ p.living := by
    rw [mem_living, hcard, ← hlives]
  rw [shown, hplain, if_neg nofun]
  -- the slots of living cards differ, so that the filter leaves one of them
  have hnodup : (p.living.map (·.1)).Nodup := livingSlots_nodup
  generalize p.living = living at hmem hnodup
  induction living with
  | nil => cases hmem
  | cons other living ih =>
    simp only [List.map_cons, List.nodup_cons, List.mem_map, not_exists, not_and] at hnodup
    obtain rfl | hmem := List.mem_cons.1 hmem
    · have hrest : living.filter (·.1 == slot) = [] := by
        rw [List.filter_eq_nil_iff]
        intro other hother
        simpa using hnodup.1 other hother
      rw [List.filter_cons_of_pos (by simp), hrest]
    · have hne : other.1 ≠ slot := fun heq => hnodup.1 _ hmem heq.symm
      rw [List.filter_cons_of_neg (by simpa using hne)]
      exact ih hmem hnodup.2

/-- A redraw brings nobody back and kills nobody. -/
theorem livingCount_redraw (slots : List Nat) (drawn : List Character) :
    (p.redraw slots drawn).livingCount = p.livingCount :=
  livingCount_congr (length_redraw ..) fun _ => hasLiving_redraw ..

/-- A redraw leaves as many dead cards. -/
theorem deadCount_redraw (slots : List Nat) (drawn : List Character) :
    (p.redraw slots drawn).deadCount = p.deadCount := by
  have hcount := livingCount_add_deadCount (p := p)
  have hcount' := livingCount_add_deadCount (p := p.redraw slots drawn)
  rw [livingCount_redraw, length_redraw] at hcount'
  omega

end Player

namespace Game

variable {g g' : Game} {c : Claim} {below : List Frame} {seat choice : Nat} {p q : Player}

/-! ## Verdicts -/

/-- The claim on top of the stack is before the table: the table is asked about it as if nobody had
accepted it yet, or nobody is left who could oppose it, and it has gone through. -/
inductive Reopened (g : Game) : Game → Prop where
  /-- The table is asked. -/
  | asked {c below venue alarm} (hf : g.stack.frames = .claim c :: below) :
    Reopened g { g with
      venue, stack := ⟨.claim { c with accepted := ∅, alarm := some alarm } :: below⟩ }
  /-- The claim has gone through. -/
  | through {c below g₁ g'} (hf : g.stack.frames = .claim c :: below)
      (hquorum : g.quorum c = []) (hgrant : Grant (g.lifted c below) c.actor c.effect g₁)
      (hsettles : Settles g₁ g') (hcalm : g₁.Calm g') : Reopened g g'

/-- What has become of the game `g` once the challenge of the claim `c` on top of the frames `below`
by the player in a seat was answered by a choice and the card that it costs is lost. -/
inductive Verdict (g : Game) (c : Claim) (below : List Frame) (seat choice : Nat) :
    Game → Prop where
  /-- The claim is proved: the cards that were shown are changed for others from the reshuffled draw
  pile, the challenger has lost a card, and the claim is before the table, closed to challenges. -/
  | upheld {p q drawn rest slot g'} (venue : Venue) (hp : g.players[c.actor]? = some p)
      (hq : g.players[seat]? = some q)
      (hproof : p.proves (c.challengedBy seat) choice = true)
      (hdeck : (g.reshuffled ((p.shown (c.challengedBy seat) choice).map (·.2))).1.cards
        = drawn ++ rest)
      (hdrawn : drawn.length = (p.shown (c.challengedBy seat) choice).length)
      (hlives : q.hasLiving slot = true)
      (h : Reopened { g with
        venue
        rng := (g.reshuffled ((p.shown (c.challengedBy seat) choice).map (·.2))).2
        players := (g.players.set c.actor
          (p.redraw ((p.shown (c.challengedBy seat) choice).map (·.1)) drawn)).set seat
            (q.killSlot slot)
        deck := ⟨rest⟩
        stack := ⟨.claim { c with alarm := none, challengeable := false } :: below⟩ } g') :
    Verdict g c below seat choice g'
  /-- The claim of the current player is dropped, and its player has lost a card, the one that was
  revealed if there was one. Otherwise nothing has changed, but whose turn it is. -/
  | dropped {p slot g'} (hp : g.players[c.actor]? = some p)
      (hproof : p.proves (c.challengedBy seat) choice = false) (hlives : p.hasLiving slot = true)
      (hslot : c.inverted = false → slot = choice) (hbelow : below = [.turn])
      (hplayers : g'.players = g.players.set c.actor (p.killSlot slot))
      (htreasury : g'.treasury = g.treasury) (hdeck : g'.deck = g.deck)
      (hframes : g'.stack.frames = [.turn]) : Verdict g c below seat choice g'
  /-- The block is dropped, its player has lost the card that was revealed, and the claim below is
  before the table. -/
  | unblocked {p b g'} (venue : Venue) (hp : g.players[c.actor]? = some p)
      (hproof : p.proves (c.challengedBy seat) choice = false) (hlives : p.hasLiving choice = true)
      (hbelow : below = [.claim b, .turn])
      (h : Reopened { g with
        venue, players := g.players.set c.actor (p.killSlot choice), stack := ⟨below⟩ } g') :
    Verdict g c below seat choice g'

/-- A verdict does not depend on the venue, on the stack, and on what stirs before it. -/
theorem Verdict.congr {venue : Venue} {stack : Stack} (hstill : g.stirred = false)
    (h : Verdict { g with venue, stack, stirred := false } c below seat choice g') :
    Verdict g c below seat choice g' := by
  obtain ⟨venue', rng, players, deck, stack', current, variant, treasury, stirred, waitTime,
    overrides, overAlarm, isOver⟩ := g
  cases hstill
  cases h with
  | upheld venue hp hq hproof hdeck hdrawn hlives h =>
    exact .upheld venue hp hq hproof hdeck hdrawn hlives h
  | dropped hp hproof hlives hslot hbelow hplayers htreasury hdeck hframes =>
    exact .dropped hp hproof hlives hslot hbelow hplayers htreasury hdeck hframes
  | unblocked venue hp hproof hlives hbelow h => exact .unblocked venue hp hproof hlives hbelow h

/-! ## Cards that are lost -/

/-- The number of cards that are lost. -/
def deadCards (g : Game) : Nat := (g.players.map (·.deadCount)).sum

/-- The number of living cards in a seat. -/
def livingCards (g : Game) (seat : Nat) : Nat := (g.players[seat]?.map (·.livingCount)).getD 0

/-- With the same cards as many are lost. -/
theorem SameCards.deadCards_eq (h : g.SameCards g') : g'.deadCards = g.deadCards := by
  have hcounts := congrArg (fun hands => (hands.map fun cards => cards.countP (·.dead)).sum) h
  simpa [deadCards, Player.deadCount, Function.comp_def] using hcounts

/-- With the same cards everybody has as many living ones. -/
theorem SameCards.livingCards_eq (h : g.SameCards g') (seat : Nat) :
    g'.livingCards seat = g.livingCards seat := by
  have hseat := congrArg (fun hands => (hands[seat]?.map fun cards =>
    cards.countP (!·.dead)).getD 0) h
  simpa [livingCards, Player.livingCount_eq, Function.comp_def] using hseat

/-- Where one player is changed, what is counted for all players together changes for that one. -/
theorem sum_map_set (count : Player → Nat) {players : List Player} (hp : players[seat]? = some p) :
    ((players.set seat q).map count).sum + count p = (players.map count).sum + count q := by
  have hperm := ((set_perm (b := q) hp).map count).sum_nat
  simpa using hperm

/-- A claim that is before the table leaves everybody's cards as they are. -/
theorem Reopened.sameCards (h : Reopened g g') : g.SameCards g' := by
  cases h with
  | asked => rfl
  | through hf hquorum hgrant hsettles hcalm =>
    have hcards := hgrant.sameCards
    unfold SameCards at hcards ⊢
    rw [hcalm.players]
    exact hcards

end Game

end CoupTable
