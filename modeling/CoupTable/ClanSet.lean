import CoupTable.Character

/-!
# Sets of clans

A claim names one or more clans: to steal may be blocked by two of them.
-/

namespace CoupTable

/-- A set of clans. -/
structure ClanSet where
  /-- Whether the tax collectors are in the set. -/
  taxCollectors : Bool := false
  /-- Whether the thieves are in the set. -/
  thieves : Bool := false
  /-- Whether the intouchables are in the set. -/
  intouchables : Bool := false
  /-- Whether the assassins are in the set. -/
  assassins : Bool := false
  /-- Whether the negotiators are in the set. -/
  negotiators : Bool := false
deriving DecidableEq, Repr

namespace ClanSet

/-- The set without a clan. -/
instance : EmptyCollection ClanSet := ⟨{}⟩

/-- Whether a clan is in the set. -/
def contains (s : ClanSet) : Clan → Bool
  | .taxCollectors => s.taxCollectors
  | .thieves => s.thieves
  | .intouchables => s.intouchables
  | .assassins => s.assassins
  | .negotiators => s.negotiators

/-- The set with one more clan. -/
def insert (s : ClanSet) : Clan → ClanSet
  | .taxCollectors => { s with taxCollectors := true }
  | .thieves => { s with thieves := true }
  | .intouchables => { s with intouchables := true }
  | .assassins => { s with assassins := true }
  | .negotiators => { s with negotiators := true }

/-- The set of the clans in a list. -/
def ofList (l : List Clan) : ClanSet := l.foldl insert ∅

/-- The clans in the set, in the order of `Clan.all`. -/
def toList (s : ClanSet) : List Clan := Clan.all.filter s.contains

/-- Whether no clan is in the set. -/
def isEmpty (s : ClanSet) : Bool := s.toList.isEmpty

/-- A set with one more clan holds that one and those from before. -/
@[simp] theorem contains_insert (s : ClanSet) (a b : Clan) :
    (s.insert a).contains b = (a == b || s.contains b) := by
  cases a <;> cases b <;> simp [insert, contains]

/-- A list gives the set of its members. -/
theorem contains_ofList (l : List Clan) (c : Clan) : (ofList l).contains c = l.contains c := by
  suffices h : ∀ s : ClanSet, (l.foldl insert s).contains c = (s.contains c || l.contains c) by
    rw [ofList, h]
    cases c <;> rfl
  induction l with
  | nil => simp
  | cons a l ih =>
    intro s
    rw [List.foldl_cons, ih, contains_insert, List.contains_cons, BEq.comm (a := c)]
    cases a == c <;> simp

end ClanSet

end CoupTable
