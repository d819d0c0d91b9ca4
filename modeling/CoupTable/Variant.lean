import CoupTable.Cast

/-!
# Variants

The four versions of the game: with the ambassador or the inquisitor, and with or without the
allegiances and the treasury of the reformation.
-/

namespace CoupTable

/-- A version of the game. -/
inductive Variant where
  /-- The plain game. -/
  | classic
  /-- The game with the inquisitor. -/
  | inquisitor
  /-- The game with allegiances and a treasury. -/
  | reformation
  /-- The game with both. -/
  | reformationInquisitor
deriving DecidableEq, Repr

namespace Variant

/-- Every variant, in the order in which the table is asked. -/
def all : List Variant :=
  [.classic, .inquisitor, .reformation, .reformationInquisitor]

/-- The place of the variant in the list of all. -/
def index : Variant → Nat
  | classic => 0
  | inquisitor => 1
  | reformation => 2
  | reformationInquisitor => 3

/-- The variant at a place in the list of all. -/
def ofIndex? (i : Nat) : Option Variant := all[i]?

/-- A variant is found at its place in the list. -/
theorem ofIndex?_index (v : Variant) : ofIndex? v.index = some v := by
  cases v <;> rfl

/-- The name that the players read. -/
def name : Variant → String
  | classic => "Original"
  | inquisitor => "Inquisitor"
  | reformation => "Reformation"
  | reformationInquisitor => "Reformation + Inquisitor"

/-- The name in settings. -/
def key : Variant → String
  | classic => "Original"
  | inquisitor => "Inquisitor"
  | reformation => "Reformation"
  | reformationInquisitor => "ReformationInquisitor"

/-- The variant with that name in settings. -/
def ofKey? (s : String) : Option Variant := all.find? (·.key == s)

/-- Whether the inquisitor is in the game. -/
def usesInquisitor : Variant → Bool
  | classic | reformation => false
  | inquisitor | reformationInquisitor => true

/-- Whether players have allegiances that protect them. -/
def isReformation : Variant → Bool
  | classic | inquisitor => false
  | reformation | reformationInquisitor => true

/-- The characters of the variant. -/
def cast (v : Variant) : Cast := ⟨v.usesInquisitor⟩

end Variant

end CoupTable
