import CoupTable.Settings
import CoupTable.Text.Json.Value

/-!
# Settings as JSON

Settings are kept as a JSON object. Keys that are missing have their defaults, keys that mean
nothing are skipped, and a key that comes twice is an error. An array of the values in order is
taken as well, and may leave out some at the end.
-/

namespace CoupTable.Settings

open Text (Json)

/-- The keys of settings, in the order of an array. -/
inductive Key where
  /-- The variant. -/
  | variant
  /-- The player who begins. -/
  | startPlayer
  /-- The seed of the generator. -/
  | seed
  /-- The cards that are dealt first. -/
  | cardOverrides
  /-- The time to wait for objections. -/
  | waitMillis
deriving DecidableEq, Repr

namespace Key

/-- Every key, in the order of an array. -/
def all : List Key := [.variant, .startPlayer, .seed, .cardOverrides, .waitMillis]

/-- The key as it is written. -/
def name : Key → String
  | variant => "variant"
  | startPlayer => "start_player"
  | seed => "seed"
  | cardOverrides => "card_overrides"
  | waitMillis => "wait_time_ms"

end Key

/-- The settings with the value of one key read. -/
def set? (s : Settings) (key : Key) (v : Json) : Option Settings :=
  match key with
  | .variant =>
    (v.nullable? fun v => v.constant?.bind Variant.ofKey?).map ({ s with variant := · })
  | .startPlayer => (v.nullable? Json.word?).map ({ s with startPlayer := · })
  | .seed => (v.nullable? Json.word?).map ({ s with seed := · })
  | .cardOverrides =>
    (v.items?.bind (·.mapM fun v => v.constant?.bind Character.ofName?)).map
      ({ s with cardOverrides := · })
  | .waitMillis => v.word?.map ({ s with waitMillis := · })

/-- Reads the members of an object that `unread` still waits for. -/
def ofMembers? (s : Settings) (unread : List Key) :
    List (Option String × Json) → Option Settings
  | [] => some s
  | (none, _) :: _ => none
  | (some name, v) :: members =>
    match Key.all.find? (·.name == name) with
    | none => ofMembers? s unread members
    | some key =>
      if unread.contains key then do
        let s ← s.set? key v
        ofMembers? s (unread.erase key) members
      else none

/-- Reads the items of an array, one for each key. -/
def ofItems? (s : Settings) : List Key → List Json → Option Settings
  | _, [] => some s
  | [], _ :: _ => none
  | key :: keys, v :: items => do
    let s ← s.set? key v
    ofItems? s keys items

/-- The settings that a JSON text stands for. -/
def ofJson? (bytes : List UInt8) : Option Settings := do
  match ← Json.parse? bytes with
  | .object members => ofMembers? {} Key.all members
  | .array items => ofItems? {} Key.all items
  | _ => none

end CoupTable.Settings
