import CoupTable.Move
import CoupTable.Text.Json.Value

/-!
# Moves as JSON

A move without a number is its tag; any other is an object that gives the number, or `null` for a
missing target, under its tag.
-/

namespace CoupTable.Move

open Text (Json)

/-- The tag of a move. -/
def tag : Move → String
  | income => "Income"
  | foreignAid => "ForeignAid"
  | coup _ => "Coup"
  | tax => "Tax"
  | assassinate _ => "Assassinate"
  | exchange => "Exchange"
  | steal _ => "Steal"
  | convert _ => "Convert"
  | embezzle => "Embezzle"
  | inspect _ => "Inspect"
  | accept => "Accept"
  | challenge => "Challenge"
  | block => "Block"
  | lose _ => "Lose"
  | reveal _ => "Reveal"
  | keep _ => "Keep"
  | showCard _ => "Show"
  | canKeep _ => "CanKeep"
  | gameType _ => "GameType"

/-- The move without a number that has the tag. -/
def ofTag? (tag : String) : Option Move :=
  [income, foreignAid, tax, exchange, embezzle, accept, challenge, block].find? (·.tag == tag)

/-- The truth value. -/
def bool? : Json → Option Bool
  | .bool b => some b
  | _ => none

/-- The move with the tag and the value under it. -/
def ofMember? (tag : String) (v : Json) : Option Move :=
  let target := v.nullable? Json.word?
  match tag with
  | "Coup" => target.map coup
  | "Assassinate" => target.map assassinate
  | "Steal" => target.map steal
  | "Convert" => target.map convert
  | "Inspect" => target.map inspect
  | "Lose" => v.word?.map lose
  | "Reveal" => v.word?.map reveal
  | "Keep" => v.word?.map keep
  | "Show" => v.word?.map showCard
  | "CanKeep" => (bool? v).map canKeep
  | "GameType" => v.word?.map gameType
  | _ => none

/-- The move that a JSON text stands for. A move without a number may also be a tag over `null`. -/
def ofJson? (bytes : List UInt8) : Option Move := do
  let v ← Json.parse? bytes
  match v.constant?.bind ofTag?, v with
  | some m, _ => m
  | none, .object [(some tag, v)] => ofMember? tag v
  | none, _ => none

end CoupTable.Move
