import Mathlib.Algebra.Order.Ring.Nat
import Mathlib.Data.List.Basic
import CoupTable.Player

/-!
# Hands

What becomes of a hand when a card is lost or changed: which slots are alive, how many, and which
characters are held. `hasLiving` is the view of a hand that everything else is told in.
-/

namespace CoupTable.Player

variable {p : Player} {slot other : Nat} {c : Character}

/-- The characters on a player's cards, living and dead. -/
def characters (p : Player) : List Character := p.cards.map (·.character)

/-! ## Slots -/

/-- A slot is alive when there is a card in it that is not dead. -/
theorem hasLiving_iff :
    p.hasLiving slot = true ↔ ∃ card, p.cards[slot]? = some card ∧ card.dead = false := by
  simp only [hasLiving, Option.any_eq_true, Bool.not_eq_true']

/-- The living cards are listed with their slots. -/
theorem mem_living {card : Nat × Character} :
    card ∈ p.living ↔ p.cards[card.1]? = some ⟨card.2, false⟩ := by
  obtain ⟨slot, c⟩ := card
  simp only [living, List.mem_filterMap, List.mem_zipIdx_iff_getElem?, Prod.exists]
  constructor
  · rintro ⟨⟨c', dead⟩, slot', h, heq⟩
    cases dead <;> simp_all
  · intro h
    exact ⟨_, _, h, by simp⟩

/-- A slot is listed exactly when it is alive. -/
theorem mem_livingSlots : slot ∈ p.livingSlots ↔ p.hasLiving slot = true := by
  simp only [livingSlots, List.mem_map, mem_living, hasLiving_iff, Prod.exists]
  constructor
  · rintro ⟨_, c, h, rfl⟩
    exact ⟨_, h, rfl⟩
  · rintro ⟨⟨c, dead⟩, h, rfl⟩
    exact ⟨_, c, h, rfl⟩

/-- The living ones among some cards, with their slots from `slot` on. -/
def livingFrom (slot : Nat) : List Card → List (Nat × Character)
  | [] => []
  | card :: cards =>
    if card.dead then livingFrom (slot + 1) cards
    else (slot, card.character) :: livingFrom (slot + 1) cards

/-- The living cards can be listed one card after the other. -/
theorem living_eq : p.living = livingFrom 0 p.cards := by
  have hfrom : ∀ (cards : List Card) (slot : Nat), ((cards.zipIdx slot).filterMap fun entry =>
      if entry.1.dead then none else some (entry.2, entry.1.character))
        = livingFrom slot cards := by
    intro cards
    induction cards with
    | nil => exact fun _ => rfl
    | cons card cards ih =>
      intro slot
      rw [List.zipIdx_cons, livingFrom, ← ih]
      cases hdead : card.dead <;> simp [hdead]
  exact hfrom p.cards 0

/-- Slots are listed in ascending order, from the first one on. -/
theorem livingFrom_sublist (slot : Nat) (cards : List Card) :
    ((livingFrom slot cards).map (·.1)).Sublist (List.range' slot cards.length) := by
  induction cards generalizing slot with
  | nil => exact List.Sublist.refl _
  | cons card cards ih =>
    rw [livingFrom, List.length_cons, List.range'_succ]
    split
    · exact (ih (slot + 1)).cons slot
    · exact (ih (slot + 1)).cons_cons slot

/-- Slots are listed once. -/
theorem livingSlots_nodup : p.livingSlots.Nodup := by
  rw [livingSlots, living_eq]
  exact (livingFrom_sublist 0 p.cards).nodup List.nodup_range'

/-- A player lives as long as some slot does. -/
theorem isAlive_iff : p.isAlive = true ↔ ∃ slot, p.hasLiving slot = true := by
  simp only [isAlive, List.any_eq_true, hasLiving_iff, List.mem_iff_getElem?]
  grind

/-- The card in a living slot, found by its slot. -/
theorem find?_living {card : Card} (h : p.cards[slot]? = some card) (hd : card.dead = false) :
    p.living.find? (·.1 == slot) = some (slot, card.character) := by
  have hmem : (slot, card.character) ∈ p.living := by
    rw [mem_living, h, ← hd]
  -- What is found has the slot that is looked for, so it is the card in that slot.
  obtain ⟨found, hfound⟩ : ∃ found, p.living.find? (·.1 == slot) = some found :=
    Option.isSome_iff_exists.1 (List.find?_isSome.2 ⟨_, hmem, by simp⟩)
  have hslot : found.1 = slot := by simpa using List.find?_some hfound
  have hcard := mem_living.1 (List.mem_of_find?_eq_some hfound)
  rw [hslot, h] at hcard
  obtain ⟨s, c⟩ := found
  simp_all

/-! ## Numbers of cards -/

/-- As many cards are listed as are not dead. -/
theorem length_livingFrom (slot : Nat) (cards : List Card) :
    (livingFrom slot cards).length = cards.countP (!·.dead) := by
  induction cards generalizing slot with
  | nil => rfl
  | cons card cards ih =>
    rw [livingFrom, List.countP_cons]
    cases hdead : card.dead <;> simp [ih]

/-- The living cards are those that are not dead. -/
theorem livingCount_eq : p.livingCount = p.cards.countP (!·.dead) := by
  rw [livingCount, living_eq, length_livingFrom]

/-- A player lives exactly with some living card. -/
theorem isAlive_iff_livingCount : p.isAlive = true ↔ 0 < p.livingCount := by
  rw [livingCount_eq, List.countP_pos_iff, isAlive, List.any_eq_true]

/-- The number of cards that a player has lost. -/
def deadCount (p : Player) : Nat := p.cards.countP (·.dead)

/-- Every card is living or dead. -/
theorem livingCount_add_deadCount : p.livingCount + p.deadCount = p.cards.length := by
  rw [livingCount_eq, deadCount, List.length_eq_countP_add_countP (fun card : Card => !card.dead)]
  congr 2
  funext card
  simp

/-- The only living card is alive, and there is no other. -/
theorem singleLiving?_eq_some (h : p.singleLiving? = some slot) :
    p.hasLiving slot = true ∧ p.livingCount = 1 := by
  unfold singleLiving? at h
  split at h
  next s hs =>
    cases h
    refine ⟨mem_livingSlots.1 (by rw [hs]; exact List.mem_singleton_self _), ?_⟩
    have hlen := congrArg List.length hs
    simpa [livingSlots, livingCount] using hlen
  next => cases h

/-- With a single living card it is found. -/
theorem singleLiving?_isSome (h : p.livingCount = 1) : ∃ slot, p.singleLiving? = some slot := by
  have hlen : p.livingSlots.length = 1 := by rw [livingSlots, List.length_map]; exact h
  obtain ⟨slot, hslot⟩ := List.length_eq_one_iff.1 hlen
  exact ⟨slot, by rw [singleLiving?, hslot]⟩

/-- Whatever is alive is the only living card. -/
theorem eq_of_singleLiving? (h : p.singleLiving? = some slot) (hother : p.hasLiving other = true) :
    other = slot := by
  unfold singleLiving? at h
  split at h
  next s hs =>
    cases h
    exact List.mem_singleton.1 (hs ▸ mem_livingSlots.2 hother)
  next => cases h

/-! ## Losing a card -/

/-- A lost card is marked in its slot. -/
theorem killSlot_eq {card : Card} (h : p.cards[slot]? = some card) :
    p.killSlot slot = { p with cards := p.cards.set slot { card with dead := true } } := by
  rw [killSlot, List.modify_eq_set_getElem?, h]
  rfl

/-- A lost card's slot is alive no longer, and all others are as before. -/
@[simp] theorem hasLiving_killSlot :
    (p.killSlot slot).hasLiving other = (p.hasLiving other && slot != other) := by
  simp only [hasLiving, killSlot, List.getElem?_modify]
  by_cases h : slot = other <;> cases p.cards[other]? <;> simp [h]

/-- The number of cards stays. -/
@[simp] theorem length_killSlot : (p.killSlot slot).cards.length = p.cards.length :=
  List.length_modify ..

/-- The characters stay. -/
@[simp] theorem characters_killSlot :
    (p.killSlot slot).characters = p.characters := by
  apply List.ext_getElem?
  intro k
  simp only [characters, killSlot, List.getElem?_map, List.getElem?_modify]
  by_cases h : slot = k <;> cases p.cards[k]? <;> simp [h]

/-- Losing a living card leaves one less. -/
theorem livingCount_killSlot (h : p.hasLiving slot = true) :
    (p.killSlot slot).livingCount + 1 = p.livingCount := by
  obtain ⟨card, hcard, hd⟩ := hasLiving_iff.1 h
  obtain ⟨hlt, hget⟩ := List.getElem?_eq_some_iff.1 hcard
  have hpos : 0 < p.cards.countP (!·.dead) :=
    List.countP_pos_iff.2 ⟨card, List.mem_of_getElem? hcard, by simp [hd]⟩
  rw [killSlot_eq hcard, livingCount_eq, livingCount_eq, List.countP_set hlt, hget]
  simp only [hd, Bool.not_false, if_true, Bool.not_true, Bool.false_eq_true, if_false]
  omega

/-- Losing a living card makes one more dead. -/
theorem deadCount_killSlot (h : p.hasLiving slot = true) :
    (p.killSlot slot).deadCount = p.deadCount + 1 := by
  -- The cards that are alive and those that are dead are as many as before together.
  have hcount := livingCount_killSlot h
  have hsum := livingCount_add_deadCount (p := p)
  have hsum' := livingCount_add_deadCount (p := p.killSlot slot)
  rw [length_killSlot] at hsum'
  omega

/-- The player who loses all living cards at once. -/
def killAll (p : Player) : Player := p.livingSlots.foldl killSlot p

/-- Losing all cards changes the cards alone. -/
theorem killAll_eq (p : Player) : p.killAll = { p with cards := p.killAll.cards } := by
  unfold killAll
  generalize p.livingSlots = slots
  induction slots generalizing p with
  | nil => rfl
  | cons slot slots ih => exact ih (p.killSlot slot)

/-- Losing all cards when there is one is losing that one. -/
theorem killAll_of_single (h : p.livingCount = 1) :
    ∃ slot, p.hasLiving slot = true ∧ p.killAll = p.killSlot slot := by
  have hlen : p.livingSlots.length = 1 := by rw [livingSlots, List.length_map]; exact h
  obtain ⟨slot, hslot⟩ := List.length_eq_one_iff.1 hlen
  refine ⟨slot, mem_livingSlots.1 (by rw [hslot]; exact List.mem_singleton_self _), ?_⟩
  rw [killAll, hslot]
  rfl

/-! ## Changing cards -/

/-- Another character is in its slot, and nothing else changed. -/
theorem setCharacter_eq {card : Card} (h : p.cards[slot]? = some card) :
    p.setCharacter slot c = { p with cards := p.cards.set slot { card with character := c } } := by
  rw [setCharacter, List.modify_eq_set_getElem?, h]
  rfl

/-- A changed slot stays alive or dead. -/
@[simp] theorem hasLiving_setCharacter :
    (p.setCharacter slot c).hasLiving other = p.hasLiving other := by
  simp only [hasLiving, setCharacter, List.getElem?_modify]
  by_cases h : slot = other <;> cases p.cards[other]? <;> simp [h]

/-- The number of cards stays. -/
@[simp] theorem length_setCharacter : (p.setCharacter slot c).cards.length = p.cards.length :=
  List.length_modify ..

/-- The character goes into its slot. -/
@[simp] theorem characters_setCharacter :
    (p.setCharacter slot c).characters = p.characters.set slot c := by
  apply List.ext_getElem?
  intro k
  simp only [characters, setCharacter, List.getElem?_map, List.getElem?_modify,
    List.getElem?_set, List.length_map]
  by_cases h : slot = k
  · subst h
    cases hk : p.cards[slot]? with
    | none => simp [List.getElem?_eq_none_iff.1 hk]
    | some card => simp [(List.getElem?_eq_some_iff.1 hk).1]
  · simp [h]

/-- The player with the slots of some cards filled by characters, in their order. -/
def redraw (p : Player) (slots : List Nat) (drawn : List Character) : Player :=
  (slots.zip drawn).foldl (fun p filled => p.setCharacter filled.1 filled.2) p

/-- Without a slot nothing changes. -/
@[simp] theorem redraw_nil : p.redraw [] [] = p := rfl

/-- The first slot is filled before the others. -/
@[simp] theorem redraw_cons (slots : List Nat) (drawn : List Character) :
    p.redraw (slot :: slots) (c :: drawn) = (p.setCharacter slot c).redraw slots drawn := rfl

/-- What holds of a player and outlasts a change of one character holds after a redraw. -/
theorem redraw_induction {P : Player → Prop} (slots : List Nat) (drawn : List Character) (hp : P p)
    (hset : ∀ q slot c, P q → P (q.setCharacter slot c)) : P (p.redraw slots drawn) := by
  unfold redraw
  generalize slots.zip drawn = filled
  induction filled generalizing p with
  | nil => exact hp
  | cons a filled ih => exact ih (hset _ _ _ hp)

/-- A redraw changes the cards alone. -/
theorem redraw_eq (slots : List Nat) (drawn : List Character) :
    p.redraw slots drawn = { p with cards := (p.redraw slots drawn).cards } :=
  redraw_induction (P := fun q => q = { p with cards := q.cards }) slots drawn rfl
    fun _ slot c hq => congrArg (·.setCharacter slot c) hq

/-- Changed slots stay alive or dead. -/
@[simp] theorem hasLiving_redraw (slots : List Nat) (drawn : List Character) :
    (p.redraw slots drawn).hasLiving other = p.hasLiving other :=
  redraw_induction (P := fun q => q.hasLiving other = p.hasLiving other) slots drawn rfl
    fun _ _ _ hq => hasLiving_setCharacter.trans hq

/-- The number of cards stays. -/
@[simp] theorem length_redraw (slots : List Nat) (drawn : List Character) :
    (p.redraw slots drawn).cards.length = p.cards.length :=
  redraw_induction (P := fun q => q.cards.length = p.cards.length) slots drawn rfl
    fun _ _ _ hq => length_setCharacter.trans hq

/-! ## The same slots alive -/

/-- Two hands of one length with the same slots alive have as many living cards. -/
theorem livingCount_congr {q : Player} (hlen : q.cards.length = p.cards.length)
    (h : ∀ slot, q.hasLiving slot = p.hasLiving slot) : q.livingCount = p.livingCount := by
  -- Slot by slot the same cards are dead, and how many are alive depends on nothing else.
  have hdead : q.cards.map (fun card => !card.dead) = p.cards.map (fun card => !card.dead) := by
    apply List.ext_getElem (by simp [hlen])
    intro k hq hp
    rw [List.length_map] at hq hp
    have hk := h k
    simp only [hasLiving, List.getElem?_eq_getElem hq, List.getElem?_eq_getElem hp,
      Option.any_some] at hk
    simpa using hk
  have hcount : ∀ r : Player, r.livingCount = (r.cards.map (fun card => !card.dead)).countP id := by
    intro r
    rw [livingCount_eq, List.countP_map]
    rfl
  rw [hcount, hcount, hdead]

end CoupTable.Player
