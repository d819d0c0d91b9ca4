/-!
# Characters, clans and cards

A card shows a character. Each character belongs to a clan, the role it plays: a claim is always a
claim about a clan, and the variant decides which character stands for it.
-/

namespace CoupTable

/-- The role that a character plays. -/
inductive Clan where
  /-- Takes tax, and blocks foreign aid. -/
  | taxCollectors
  /-- Steals, and blocks stealing. -/
  | thieves
  /-- Blocks assassinations. -/
  | intouchables
  /-- Assassinates. -/
  | assassins
  /-- Exchanges cards, and blocks stealing. -/
  | negotiators
deriving DecidableEq, Repr

/-- Every clan, in the order in which clans are listed. -/
def Clan.all : List Clan :=
  [.taxCollectors, .thieves, .intouchables, .assassins, .negotiators]

/-- The characters on the cards. -/
inductive Character where
  /-- The tax collector. -/
  | duke
  /-- The assassin. -/
  | assassin
  /-- The intouchable. -/
  | contessa
  /-- The thief. -/
  | captain
  /-- The negotiator of the plain variants. -/
  | ambassador
  /-- The negotiator of the variants with interrogations. -/
  | inquisitor
deriving DecidableEq, Repr

namespace Character

/-- Every character. -/
def all : List Character :=
  [.duke, .assassin, .contessa, .captain, .ambassador, .inquisitor]

/-- The name on the card. -/
def name : Character → String
  | duke => "Duke"
  | assassin => "Assassin"
  | contessa => "Contessa"
  | captain => "Captain"
  | ambassador => "Ambassador"
  | inquisitor => "Inquisitor"

/-- The name inside a sentence. -/
def objectName : Character → String
  | duke => "the duke"
  | assassin => "the assassin"
  | contessa => "the contessa"
  | captain => "the captain"
  | ambassador => "the ambassador"
  | inquisitor => "the inquisitor"

/-- The clan that the character belongs to. -/
def clan : Character → Clan
  | duke => .taxCollectors
  | captain => .thieves
  | contessa => .intouchables
  | assassin => .assassins
  | ambassador | inquisitor => .negotiators

/-- The character of that name. -/
def ofName? (s : String) : Option Character :=
  all.find? (·.name == s)

end Character

/-- A card in a player's hand. A dead card lies face up and is out of play. -/
structure Card where
  /-- The character that the card shows. -/
  character : Character
  /-- Whether the card was lost. -/
  dead : Bool := false
deriving DecidableEq, Repr

end CoupTable
