import CoupTable.Deck

/-!
# Shuffling keeps the cards

A shuffle, and moving cards to the top, only changes the order of a pile. So the deck that a game
is built with holds three copies of every character of the cast, whatever the generator gives and
whatever cards are asked for.
-/

namespace CoupTable

variable {α : Type}

/-- What comes in for `a` and what is left hold the same members as `a` and the list. -/
theorem swapInto_perm (a : α) (l : List α) (i : Nat) :
    ((swapInto a l i).1 :: (swapInto a l i).2).Perm (a :: l) := by
  cases i with
  | zero => exact .refl _
  | succ i =>
    induction l generalizing i with
    | nil => exact .refl _
    | cons b l ih =>
      cases i with
      | zero => exact .swap ..
      | succ i =>
        have hi := ih i
        simp only [swapInto, List.getElem?_cons_succ] at hi ⊢
        cases hget : l[i]? with
        | none => exact .refl _
        | some d =>
          rw [hget] at hi
          simp only [List.set_cons_succ]
          calc d :: b :: l.set i a
            _ |>.Perm (b :: d :: l.set i a) := .swap ..
            _ |>.Perm (b :: a :: l) := hi.cons b
            _ |>.Perm (a :: b :: l) := .swap ..

/-- Shuffling some places of a list keeps its members. -/
theorem shuffle_go_perm (n : Nat) (l : List α) (g : Pcg) : (shuffle.go n l g).1.Perm l := by
  induction n generalizing l g with
  | zero => simp [shuffle.go]
  | succ n ih =>
    match l with
    | [] => simp [shuffle.go]
    | [a] => simp [shuffle.go]
    | a :: b :: l =>
      rw [shuffle.go]
      exact ((ih _ _).cons _).trans (swapInto_perm _ _ _)

/-- A shuffled list has the same members. -/
theorem shuffle_perm (l : List α) (g : Pcg) : (shuffle l g).1.Perm l := shuffle_go_perm _ l g

namespace Deck

variable {cast : Cast} {overrides : List Character} {c a : Character} {d : Deck} {g : Pcg}

/-- A shuffled deck has the same cards. -/
theorem shuffle_cards_perm (d : Deck) (g : Pcg) : (d.shuffle g).1.cards.Perm d.cards :=
  shuffle_perm d.cards g

/-- The last copy of `c` makes room for `a`. -/
theorem replaceLast?_perm {l l' : List Character} (h : replaceLast? c a l = some l') :
    (c :: l').Perm (a :: l) := by
  induction l generalizing l' with
  | nil => cases h
  | cons b l ih =>
    rw [replaceLast?] at h
    split at h
    next l₁ hl₁ =>
      cases h
      calc c :: b :: l₁
        _ |>.Perm (b :: c :: l₁) := .swap ..
        _ |>.Perm (b :: a :: l) := (ih hl₁).cons b
        _ |>.Perm (a :: b :: l) := .swap ..
    next =>
      split at h
      next hb =>
        cases h
        subst hb
        exact .swap ..
      next => cases h

/-- Moving a copy of `c` to the top keeps the cards. -/
theorem bringUp?_perm {l l' : List Character} (h : bringUp? c l = some l') : l'.Perm l := by
  cases l with
  | nil => cases h
  | cons a l =>
    rw [bringUp?] at h
    split at h
    next l₁ hl₁ =>
      cases h
      exact replaceLast?_perm hl₁
    next =>
      split at h
      · cases h
        exact .refl _
      · cases h

/-- Moving all cards asked for to the top keeps the cards. -/
theorem bringAllUp_perm (wanted pile : List Character) : (bringAllUp wanted pile).Perm pile := by
  induction wanted generalizing pile with
  | nil => exact .refl _
  | cons c wanted ih =>
    rw [bringAllUp]
    split
    next top rest h => exact ((ih rest).cons top).trans (bringUp?_perm h)
    next => exact ih pile

/-- A game is built with the full deck of its cast. -/
theorem build_perm (cast : Cast) (overrides : List Character) (g : Pcg) :
    (build cast overrides g).1.cards.Perm (full cast) :=
  (bringAllUp_perm overrides _).trans (shuffle_perm (full cast) g)

/-- A full deck has fifteen cards. -/
theorem length_full (cast : Cast) : (full cast).length = 15 := by
  obtain ⟨_ | _⟩ := cast <;> rfl

/-- A full deck has three copies of every character of the cast, and no other card. -/
theorem count_full (cast : Cast) (c : Character) :
    (full cast).count c = if cast.contains c then copiesPerClan else 0 := by
  obtain ⟨_ | _⟩ := cast <;> cases c <;> rfl

/-- Cards put back lie on top, the last one first. -/
theorem cards_foldl_putBack (d : Deck) (cards : List Character) :
    (cards.foldl putBack d).cards = cards.reverse ++ d.cards := by
  induction cards generalizing d with
  | nil => rfl
  | cons c cards ih => simp [ih, putBack]

end Deck

end CoupTable
