import CoupTable.Proofs.Deal

/-!
# The pool of cards

The pool of a game is every card in it: the draw pile, the hands with living and dead cards, and
for a player who exchanges cards those kept so far and those on offer in place of the hand that is
still stored. The lemmas here say how the pool follows the hands and the draw pile: it is the same
up to order as long as whatever leaves the one goes to the other.
-/

namespace CoupTable

/-! ## One member changed -/

/-- Changing one member of a list exchanges its share for the one of the new member. -/
theorem flatMap_set_perm {α β : Type} {l : List α} {i : Nat} {a b : α} {f : α → List β}
    (h : l[i]? = some a) : ((l.set i b).flatMap f ++ f a).Perm (l.flatMap f ++ f b) := by
  induction l generalizing i with
  | nil => cases h
  | cons x l ih =>
    cases i with
    | zero =>
      cases h
      simp only [List.set_cons_zero, List.flatMap_cons, List.append_assoc]
      calc f b ++ (l.flatMap f ++ f a)
        _ |>.Perm (f b ++ (f a ++ l.flatMap f)) := List.perm_append_comm.append_left _
        _ |>.Perm (f a ++ l.flatMap f ++ f b) := List.perm_append_comm
        _ |>.Perm (f a ++ (l.flatMap f ++ f b)) := by rw [List.append_assoc]
    | succ i =>
      simp only [List.set_cons_succ, List.flatMap_cons, List.append_assoc]
      exact (ih h).append_left _

/-- Changing one member of a list is exchanging it. -/
theorem set_perm {α : Type} {l : List α} {i : Nat} {a b : α} (h : l[i]? = some a) :
    (l.set i b ++ [a]).Perm (l ++ [b]) := by
  simpa using flatMap_set_perm (f := fun a => [a]) (b := b) h

namespace Player

/-- Redrawing some cards puts what was drawn in place of what was there. -/
theorem characters_redraw_perm {p : Player} {cards : List (Nat × Character)}
    {drawn : List Character} (hcards : ∀ card ∈ cards, p.characters[card.1]? = some card.2)
    (hnodup : (cards.map (·.1)).Nodup) (hlen : drawn.length = cards.length) :
    ((p.redraw (cards.map (·.1)) drawn).characters ++ cards.map (·.2)).Perm
      (p.characters ++ drawn) := by
  induction cards generalizing p drawn with
  | nil =>
    rw [List.length_nil, List.length_eq_zero_iff] at hlen
    subst hlen
    exact .refl _
  | cons card cards ih =>
    obtain ⟨slot, old⟩ := card
    match drawn, hlen with
    | c :: drawn, hlen =>
      simp only [List.map_cons, List.nodup_cons, List.mem_map, not_exists, not_and] at hnodup
      obtain ⟨hslot, hnodup⟩ := hnodup
      have hold : p.characters[slot]? = some old := hcards _ List.mem_cons_self
      -- The other slots still hold what they held.
      have hrest : ∀ card ∈ cards, (p.setCharacter slot c).characters[card.1]? = some card.2 := by
        intro card hcard
        rw [characters_setCharacter, List.getElem?_set_ne fun heq => hslot card hcard heq.symm]
        exact hcards card (List.mem_cons_of_mem _ hcard)
      have hih := ih hrest hnodup (Nat.succ.inj hlen)
      simp only [List.map_cons, redraw_cons]
      generalize ((p.setCharacter slot c).redraw (cards.map (·.1)) drawn).characters = final
        at hih ⊢
      rw [characters_setCharacter] at hih
      calc final ++ old :: cards.map (·.2)
        _ |>.Perm (old :: (final ++ cards.map (·.2))) := List.perm_middle
        _ |>.Perm (old :: (p.characters.set slot c ++ drawn)) := hih.cons old
        _ |>.Perm (p.characters.set slot c ++ [old] ++ drawn) := by
          rw [← List.cons_append]
          exact (List.perm_append_singleton old _).symm.append_right drawn
        _ |>.Perm (p.characters ++ [c] ++ drawn) := (set_perm hold).append_right drawn
        _ = p.characters ++ c :: drawn := by simp

end Player

namespace Game

variable {g g' : Game} {seat : Nat} {p q : Player} {e : Exchange}

/-! ## The pool -/

/-- The exchange among some frames, if there is one. -/
def exchangeIn (frames : List Frame) : Option Exchange :=
  frames.findSome? fun
    | .exchange e => some e
    | _ => none

/-- The exchange that is under way, if there is one. -/
def exchange? (g : Game) : Option Exchange := exchangeIn g.stack.frames

/-- The players with what they hold: for a player who exchanges cards, those kept so far and those
on offer in place of the hand that is still stored. -/
def holders (g : Game) : List Player :=
  match g.exchange? with
  | some e => g.players.modify e.player fun p =>
      { p with cards := e.hand ++ e.offered.map fun c => ⟨c, false⟩ }
  | none => g.players

/-- Every card in the game. -/
def pool (g : Game) : List Character := g.deck.cards ++ g.holders.flatMap (·.characters)

/-- Without an exchange the pool is the draw pile and the hands. -/
theorem pool_of_none (h : g.exchange? = none) :
    g.pool = g.deck.cards ++ g.players.flatMap (·.characters) := by
  rw [pool, holders, h]

/-- During an exchange the stored hand of its player is not part of the pool, but the cards kept
and on offer are. -/
theorem pool_of_some (h : g.exchange? = some e) (hp : g.players[e.player]? = some p) :
    (g.pool ++ p.characters).Perm (g.deck.cards ++ g.players.flatMap (·.characters)
      ++ (e.hand.map (·.character) ++ e.offered)) := by
  have hmodify : g.holders = g.players.set e.player
      { p with cards := e.hand ++ e.offered.map fun c => ⟨c, false⟩ } := by
    rw [holders, h]
    dsimp only
    rw [List.modify_eq_set_getElem?, hp]
    rfl
  have hperm := flatMap_set_perm (f := Player.characters)
    (b := { p with cards := e.hand ++ e.offered.map fun c => ⟨c, false⟩ }) hp
  have hcards : Player.characters
      { p with cards := e.hand ++ e.offered.map fun c => ⟨c, false⟩ }
        = e.hand.map (·.character) ++ e.offered := by
    simp [Player.characters, Function.comp_def]
  rw [hcards] at hperm
  rw [pool, hmodify, List.append_assoc, List.append_assoc]
  exact hperm.append_left _

end Game

end CoupTable
