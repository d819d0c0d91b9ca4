import CoupTable.Cast
import CoupTable.Random.Draw

/-!
# The deck

The draw pile. Fifteen cards, three of each character in the game, are shuffled; cards asked for in
the settings are then moved to the top, so that they are dealt first.

## Main definitions

* `Deck.build`: the shuffled deck of a game, with the cards asked for on top.
* `Deck.canSupply`: whether the deck holds all the cards asked for.
-/

namespace CoupTable

/-- How many copies of each character a deck holds. -/
def copiesPerClan : Nat := 3

/-- How many cards a player holds. -/
def handSize : Nat := 2

/-- The draw pile, from the top down. -/
structure Deck where
  /-- The cards, the next to be drawn first. -/
  cards : List Character := []
deriving DecidableEq, Repr

namespace Deck

/-- The number of cards. -/
def size (d : Deck) : Nat := d.cards.length

/-- Whether no card is left. -/
def isEmpty (d : Deck) : Bool := d.cards.isEmpty

/-- How many copies of a character the deck holds. -/
def count (d : Deck) (c : Character) : Nat := d.cards.count c

/-- Draws the top card, if there is one. -/
def draw? (d : Deck) : Option (Character × Deck) :=
  match d.cards with
  | [] => none
  | c :: rest => some (c, ⟨rest⟩)

/-- Puts a card on top. -/
def putBack (d : Deck) (c : Character) : Deck := ⟨c :: d.cards⟩

/-- Shuffles the deck. -/
def shuffle (d : Deck) (g : Pcg) : Deck × Pcg :=
  let shuffled := CoupTable.shuffle d.cards g
  (⟨shuffled.1⟩, shuffled.2)

/-- The cards of a game before the first shuffle, from the top down. -/
def full (cast : Cast) : List Character :=
  (cast.characters.flatMap (List.replicate copiesPerClan)).reverse

/-- The list with the last copy of `c` replaced by `a`, if there is a copy. -/
def replaceLast? (c a : Character) : List Character → Option (List Character)
  | [] => none
  | b :: l =>
    match replaceLast? c a l with
    | some l => some (b :: l)
    | none => if b = c then some (a :: l) else none

/-- Moves a copy of `c` to the top: the lowest copy changes places with the top card. -/
def bringUp? (c : Character) : List Character → Option (List Character)
  | [] => none
  | a :: l =>
    match replaceLast? c a l with
    | some l => some (c :: l)
    | none => if a = c then some (a :: l) else none

/-- Moves a copy of each wanted character to the top, in order, each below the one before; a
character that is not left below those is skipped. -/
def bringAllUp : List Character → List Character → List Character
  | [], pile => pile
  | c :: wanted, pile =>
    match bringUp? c pile with
    | some (top :: rest) => top :: bringAllUp wanted rest
    | _ => bringAllUp wanted pile

/-- The shuffled deck of a game, with the cards asked for on top in their order. -/
def build (cast : Cast) (overrides : List Character) (g : Pcg) : Deck × Pcg :=
  let shuffled := CoupTable.shuffle (full cast) g
  (⟨bringAllUp overrides shuffled.1⟩, shuffled.2)

/-- Whether a deck holds all the cards asked for, each as often as it is asked for. -/
def canSupply (cast : Cast) (overrides : List Character) : Bool :=
  Character.all.all fun c =>
    let wanted := overrides.count c
    wanted == 0 || cast.contains c && wanted ≤ copiesPerClan

end Deck

end CoupTable
