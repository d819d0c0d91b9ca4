import CoupTable.Proofs.Reaching

/-!
# How the stack is laid out between two inputs

The stack of a reachable game never has more than four frames, of which `Layout` gives the list,
from the bottom up. In the middle of an input the player of a blocked claim may be dead for a
moment. Between two inputs that cannot be, as the block would have gone through by then: whoever has
the turn is alive.
-/

namespace CoupTable.Game

variable {g : Game} {c : Claim} {below : List Frame}

/-- What may lie on the claim `c` that the table is about. -/
inductive Contest (g : Game) (c : Claim) : List Frame → Prop where
  /-- Nothing: the table is asked. -/
  | asked : Contest g c []
  /-- Its challenge by another player. -/
  | challenged {seat : Nat} (hne : seat ≠ c.actor) (hlives : g.isAlive seat = true) :
    Contest g c [.reveal ⟨seat, c.actor, c.challengedClans, c.inverted⟩]
  /-- The loss that a failed challenge costs another player. -/
  | upheld {seat : Nat} (hne : seat ≠ c.actor) (hlives : g.isAlive seat = true)
      (hclosed : c.challengeable = false) : Contest g c [.loss seat]

/-- The frames of a game between two inputs, from the bottom up. -/
inductive Layout (g : Game) : List Frame → Prop where
  /-- The current player chooses what to do. -/
  | turn : Layout g [.turn]
  /-- The table chooses the variant. -/
  | variantChoice (hv : g.variant = none) : Layout g [.turn, .variantChoice]
  /-- Somebody loses a card. -/
  | loss {seat : Nat} (hlives : g.isAlive seat = true) : Layout g [.turn, .loss seat]
  /-- The current player exchanges cards. -/
  | exchange {e : Exchange} (hplayer : e.player = g.current) : Layout g [.turn, .exchange e]
  /-- The current player interrogates another about a living card. -/
  | interrogation {i : Interrogation} (hinquisitor : i.inquisitor = g.current)
      (hne : i.target ≠ g.current) (hlives : g.isAlive i.target = true)
      (hshown : ∀ slot, i.shown = some slot → g.livesAt i.target slot = true) :
    Layout g [.turn, .interrogation i]
  /-- The current player's claim is before the table. -/
  | claim {c : Claim} {top : List Frame} (hactor : c.actor = g.current) (hown : c.effect ≠ .block)
      (h : g.Contest c top) : Layout g (.turn :: .claim c :: top)
  /-- A block of the current player's claim is before the table. -/
  | block {b c : Claim} {top : List Frame} (hactor : c.actor = g.current)
      (hown : c.effect ≠ .block) (hb : b.Blocks c) (hlives : g.isAlive b.actor = true)
      (h : g.Contest b top) : Layout g (.turn :: .claim c :: .claim b :: top)

/-! ## Layouts and shapes -/

/-- A pending claim and what lies on it make a layout. -/
theorem Pending.layout {top : List Frame} (h : g.Pending c below) (htop : g.Contest c top) :
    g.Layout (below.reverse ++ .claim c :: top) := by
  cases h with
  | own hc => exact .claim hc.actor hc.ne_block htop
  | block hc _ hb hlives => exact .block hc.actor hc.ne_block hb hlives htop

/-- A stack of one of the shapes has one of the layouts. -/
theorem Shape.layout {frames : List Frame} (h : g.Shape frames) : g.Layout frames.reverse := by
  cases h with
  | turn => exact .turn
  | variantChoice hv => exact .variantChoice hv
  | loss hlives => exact .loss hlives
  | exchange hplayer => exact .exchange hplayer
  | interrogation hinquisitor hne hlives hshown =>
    exact .interrogation hinquisitor hne hlives hshown
  | asked h =>
    have hlayout := h.layout .asked
    rwa [List.reverse_cons]
  | challenged h _ _ hne hlives =>
    have hlayout := h.layout (.challenged hne hlives)
    simpa using hlayout
  | upheld h hclosed _ hne hlives =>
    have hlayout := h.layout (.upheld hne hlives hclosed)
    simpa using hlayout

/-! ## Who has the turn -/

/-- A claim that nobody can oppose is accepted by all who could. -/
theorem isAccepted_of_closed (hclosed : c.challengeable = false) (hblock : c.blockable = false) :
    g.isAccepted c = true := by
  have hnobody : g.quorum c = [] := by
    simp [quorum, canOppose, hclosed, hblock]
  rw [isAccepted, hnobody]
  rfl

/-- A claim that waits for the table is the current player's or can still be challenged. -/
theorem AtRest.isAlive_of_asked (h : g.AtRest) (hf : g.stack.frames = .claim c :: below)
    (hpending : g.Pending c below) : g.isAlive g.current = true := by
  cases hopen : c.challengeable with
  | true => exact hpending.isAlive_current hopen
  | false =>
    have hwaits : g.isAccepted c = false := (h.waiting _ _ hf).2
    cases hpending with
    | own hc hlives => rwa [← hc.actor]
    | block _ _ hb =>
      rw [isAccepted_of_closed hopen hb.not_blockable] at hwaits
      cases hwaits

/-- Once the variant is chosen, whoever has the turn is alive between two inputs. -/
theorem AtRest.isAlive_current (h : g.AtRest) (hv : g.variant ≠ none) :
    g.isAlive g.current = true := by
  have hshape := h.shape
  generalize hf : g.stack.frames = frames at hshape
  cases hshape with
  | turn => exact h.awake hf
  | variantChoice hv' => exact absurd hv' hv
  | loss _ _ _ hcurrent | exchange _ _ _ hcurrent | interrogation _ _ _ _ hcurrent
  | upheld _ _ _ _ _ hcurrent => exact hcurrent
  | asked hpending => exact h.isAlive_of_asked hf hpending
  | challenged hpending hopen => exact hpending.isAlive_current hopen

/-! ## The result -/

/-- Between two inputs the stack of a reachable game is laid out in one of a few ways, and has at
most four frames. The variant is on the stack as long as it is open and no longer, and once it is
chosen, whoever has the turn is alive. -/
theorem Reachable.stack_layout (h : Reachable g) :
    g.Layout g.stack.frames.reverse ∧ g.stack.depth ≤ 4 ∧
      (.variantChoice ∈ g.stack.frames ↔ g.variant = none) ∧
      (g.variant ≠ none → g.isAlive g.current = true) := by
  have hrest := h.atRest
  have hlayout := hrest.shape.layout
  refine ⟨hlayout, hrest.shape.length_le, ⟨fun hmem => ?_, fun hv => ?_⟩, hrest.isAlive_current⟩
  · rw [← List.mem_reverse] at hmem
    generalize g.stack.frames.reverse = frames at hlayout hmem
    cases hlayout with
    | variantChoice hv => exact hv
    | claim _ _ htop | block _ _ _ _ htop => cases htop <;> simp at hmem
    | _ => simp at hmem
  · rw [(hrest.undealt hv).1]
    exact List.mem_cons_self

/-- A block of foreign aid is challenged: four frames are on the stack, which is the most. -/
theorem stack_layout_challenged_block :
    ∃ g, playOut ["Ada", "Bob"] { seed := some 0, startPlayer := some 0, variant := some .classic }
        [.press 0 "foreign_aid", .press 1 "block", .press 0 "challenge"] = some g ∧
      g.stack.names = ["choose_action", "challenge", "challenge", "reveal"] ∧
      g.Layout g.stack.frames.reverse := by
  have hnames : (playOut ["Ada", "Bob"]
      { seed := some 0, startPlayer := some 0, variant := some .classic }
      [.press 0 "foreign_aid", .press 1 "block", .press 0 "challenge"]).map (·.stack.names)
        = some ["choose_action", "challenge", "challenge", "reveal"] := by
    decide +kernel
  obtain ⟨g, hg, hnames⟩ := Option.map_eq_some_iff.1 hnames
  exact ⟨g, hg, hnames, (reachable_of_playOut hg).stack_layout.1⟩

end CoupTable.Game
