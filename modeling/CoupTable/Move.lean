import CoupTable.Text.Numeral

/-!
# Moves

What a player may press. Every button carries a data string, a command with at most one number
behind a colon, and the same strings may be typed.

## Main definitions

* `Move.data`: the data string of a move.
* `Move.parse?`: the move that a data string stands for.
-/

namespace CoupTable

/-- A press of a button. Targets and slots are numbers as they came in, in range or not. -/
inductive Move where
  /-- Takes one coin. -/
  | income
  /-- Takes two coins, unless blocked. -/
  | foreignAid
  /-- Pays for the loss of another player's card; without a target, asks for one. -/
  | coup (target : Option Nat)
  /-- Takes three coins on a claim. -/
  | tax
  /-- Has another player lose a card on a claim; without a target, asks for one. -/
  | assassinate (target : Option Nat)
  /-- Exchanges cards with the deck on a claim. -/
  | exchange
  /-- Takes coins from another player on a claim; without a target, asks for one. -/
  | steal (target : Option Nat)
  /-- Pays for a change of allegiance; without a target, asks for one. -/
  | convert (target : Option Nat)
  /-- Takes the treasury on a claim. -/
  | embezzle
  /-- Looks at another player's card on a claim; without a target, asks for one. -/
  | inspect (target : Option Nat)
  /-- Lets a claim through. -/
  | accept
  /-- Doubts a claim. -/
  | challenge
  /-- Counters a claim with one of one's own. -/
  | block
  /-- Gives up the card in a slot. -/
  | lose (slot : Nat)
  /-- Reveals the card in a slot; where a player claimed not to have a card, `0` concedes and `1`
  shows the hand. -/
  | reveal (slot : Nat)
  /-- Keeps one of the cards on offer. -/
  | keep (index : Nat)
  /-- Shows the card in a slot to the inquisitor. -/
  | showCard (slot : Nat)
  /-- Decides whether the card shown may be kept. -/
  | canKeep (allowed : Bool)
  /-- Picks the variant. -/
  | gameType (index : Nat)
deriving DecidableEq, Repr

namespace Move

/-- The command of the data string. -/
def command : Move → String
  | income => "income"
  | foreignAid => "foreign_aid"
  | coup _ => "coup"
  | tax => "tax"
  | assassinate _ => "assassinate"
  | exchange => "exchange"
  | steal _ => "steal"
  | convert _ => "convert"
  | embezzle => "embezzle"
  | inspect _ => "inspect"
  | accept => "accept"
  | challenge => "challenge"
  | block => "block"
  | lose _ => "lose"
  | reveal _ => "reveal"
  | keep _ => "keep"
  | showCard _ => "show"
  | canKeep _ => "can_keep"
  | gameType _ => "game_type"

/-- The number behind the colon of the data string, if there is one. -/
def arg : Move → Option Nat
  | coup target | assassinate target | steal target | convert target | inspect target => target
  | lose n | reveal n | keep n | showCard n | gameType n => some n
  | canKeep allowed => some (if allowed then 1 else 0)
  | income | foreignAid | tax | exchange | embezzle | accept | challenge | block => none

/-- The data string of the button. -/
def data (m : Move) : String :=
  match m.arg with
  | some n => m.command ++ ":" ++ toString n
  | none => m.command

/-- The move of a command with or without a number. -/
def ofCommand? (command : String) (arg : Option Nat) : Option Move :=
  match command, arg with
  | "income", none => some income
  | "foreign_aid", none => some foreignAid
  | "coup", target => some (coup target)
  | "tax", none => some tax
  | "assassinate", target => some (assassinate target)
  | "exchange", none => some exchange
  | "steal", target => some (steal target)
  | "convert", target => some (convert target)
  | "embezzle", none => some embezzle
  | "inspect", target => some (inspect target)
  | "accept", none => some accept
  | "challenge", none => some challenge
  | "block", none => some block
  | "lose", some slot => some (lose slot)
  | "reveal", some slot => some (reveal slot)
  | "keep", some index => some (keep index)
  | "show", some slot => some (showCard slot)
  | "can_keep", some 0 => some (canKeep false)
  | "can_keep", some 1 => some (canKeep true)
  | "game_type", some index => some (gameType index)
  | _, _ => none

/-- The move that a data string stands for. What follows the first colon must be a word in decimal
digits, and only commands that take a number may have one. -/
def parse? (s : String) : Option Move :=
  let cs := s.toList
  let command := String.ofList (cs.takeWhile (· != ':'))
  match cs.dropWhile (· != ':') with
  | [] => ofCommand? command none
  | _ :: digits => (Text.word? digits).bind fun n => ofCommand? command (some n)

/-- What the move does, in words. -/
def describe : Move → String
  | income => "takes income"
  | foreignAid => "asks for foreign aid"
  | coup (some target) => s!"coups player {target}"
  | coup none => "wants to coup"
  | tax => "collects tax"
  | assassinate (some target) => s!"assassinates player {target}"
  | assassinate none => "wants to assassinate"
  | exchange => "exchanges cards"
  | steal (some target) => s!"steals from player {target}"
  | steal none => "wants to steal"
  | convert (some target) => s!"converts player {target}"
  | convert none => "wants to convert"
  | embezzle => "embezzles the treasury"
  | inspect (some target) => s!"interrogates player {target}"
  | inspect none => "wants to interrogate"
  | accept => "accepts"
  | challenge => "challenges"
  | block => "blocks"
  | lose slot => s!"loses card {slot}"
  | reveal slot => s!"reveals card {slot}"
  | keep index => s!"keeps offered card {index}"
  | showCard slot => s!"shows card {slot}"
  | canKeep true => "lets them keep the card"
  | canKeep false => "makes them change the card"
  | gameType index => s!"picks game type {index}"

end Move

end CoupTable
