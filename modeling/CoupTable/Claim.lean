import CoupTable.Alarms
import CoupTable.ClanSet

/-!
# Claims

A claim is a move that the rest of the table may oppose: challenge it, block it, or let it through.
It goes through once every player who could oppose it has accepted, or when time runs out.
-/

namespace CoupTable

/-- What happens once a claim goes through. -/
inductive Effect where
  /-- The claimant takes two coins. -/
  | foreignAid
  /-- The claimant takes three coins. -/
  | tax
  /-- The claimant exchanges cards with the deck. -/
  | exchange
  /-- The claimant takes the treasury. -/
  | embezzle
  /-- The claimant pays, and the target loses a card. -/
  | assassinate (target : Nat)
  /-- The claimant takes up to two coins from the target. -/
  | steal (target : Nat)
  /-- The claimant looks at a card of the target. -/
  | inspect (target : Nat)
  /-- The claim below is blocked. -/
  | block
deriving DecidableEq, Repr

/-- The effect, spelled out. -/
def Effect.describe : Effect → String
  | foreignAid => "ForeignAid"
  | tax => "Tax"
  | exchange => "Exchange"
  | embezzle => "Embezzle"
  | assassinate target => s!"Assassinate \x7b target: {target} \x7d"
  | steal target => s!"Steal \x7b target: {target} \x7d"
  | inspect target => s!"Inspect \x7b target: {target} \x7d"
  | block => "Block"

/-- A set of seats, one bit for each. -/
structure SeatSet where
  /-- The bits, the one of seat zero the lowest. -/
  bits : Nat := 0
deriving DecidableEq, Repr

namespace SeatSet

/-- The set without a seat. -/
instance : EmptyCollection SeatSet := ⟨{}⟩

/-- Whether a seat is in the set. -/
def contains (s : SeatSet) (seat : Nat) : Bool := s.bits.testBit seat

/-- The set with one more seat. -/
def insert (s : SeatSet) (seat : Nat) : SeatSet := ⟨s.bits ||| 1 <<< seat⟩

/-- No seat is in the empty set. -/
@[simp] theorem contains_empty (seat : Nat) : contains ∅ seat = false :=
  Nat.zero_testBit seat

/-- A set with one more seat holds that one and those from before. -/
@[simp] theorem contains_insert (s : SeatSet) (a b : Nat) :
    (s.insert a).contains b = (s.contains b || decide (a = b)) := by
  simp only [contains, insert, Nat.testBit_or, Nat.one_shiftLeft, Nat.testBit_two_pow]

end SeatSet

/-- A claim that waits for the table. -/
structure Claim where
  /-- Who makes the claim. -/
  actor : Nat
  /-- What the others are told. -/
  message : String
  /-- What happens when the claim goes through. -/
  effect : Effect
  /-- Whether the claim can be challenged. -/
  challengeable : Bool := false
  /-- Whether the claim can be blocked. -/
  blockable : Bool := false
  /-- Whether the claim is *not* to have the challenged clans. -/
  inverted : Bool := false
  /-- The clans that the claim is about. -/
  challengedClans : ClanSet := ∅
  /-- The clans that can block the claim. -/
  blockingClans : ClanSet := ∅
  /-- The only player who may block the claim, if there is one. -/
  target : Option Nat := none
  /-- Who has accepted since the table was last asked. -/
  accepted : SeatSet := ∅
  /-- The alarm that ends the wait, once the table was asked. -/
  alarm : Option AlarmId := none
deriving DecidableEq, Repr

namespace Claim

/-- The claim, open to challenges about some clans. -/
def challengeableBy (c : Claim) (clans : ClanSet) : Claim :=
  { c with challengeable := true, challengedClans := clans }

/-- The claim, open to blocks by some clans, from one player or from anybody. -/
def blockableBy (c : Claim) (clans : ClanSet) (target : Option Nat) : Claim :=
  { c with blockable := true, blockingClans := clans, target }

/-- The claim turned round: not to have the challenged clans. -/
def invert (c : Claim) : Claim := { c with inverted := true }

end Claim

end CoupTable
