import CoupTable.ClanSet

/-!
# Who plays which clan

The variant decides which character stands for each clan: only the negotiators differ. Sentences
name a set of clans by these characters.
-/

namespace CoupTable

/-- Joins names in a sentence: `a`, then `a or b`, then `a, b or c` when the separator is ` or `. -/
def joinNames (separator : String) : List String → String
  | [] => ""
  | [a] => a
  | [a, b] => a ++ separator ++ b
  | a :: b :: c :: l => a ++ ", " ++ joinNames separator (b :: c :: l)

/-- Which character stands for each clan. -/
structure Cast where
  /-- Whether the inquisitor takes the place of the ambassador. -/
  usesInquisitor : Bool
deriving DecidableEq, Repr

namespace Cast

/-- The character that stands for a clan. -/
def character (cast : Cast) : Clan → Character
  | .taxCollectors => .duke
  | .thieves => .captain
  | .intouchables => .contessa
  | .assassins => .assassin
  | .negotiators => if cast.usesInquisitor then .inquisitor else .ambassador

/-- The characters of the game, in the order of their clans. -/
def characters (cast : Cast) : List Character := Clan.all.map cast.character

/-- Whether a character is in the game. -/
def contains (cast : Cast) (c : Character) : Bool := cast.characters.contains c

/-- The clans of a set in a sentence, as the characters that stand for them. -/
def describe (cast : Cast) (clans : ClanSet) : String :=
  joinNames " or " (clans.toList.map fun clan => (cast.character clan).objectName)

end Cast

end CoupTable
