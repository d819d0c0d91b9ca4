import CoupTable.Cast

/-!
# Wording

The sentences that players read, given the names of those they are about.
-/

namespace CoupTable.Wording

/-- A number of coins. -/
def coins (n : Nat) : String :=
  if n = 1 then "1 coin" else s!"{n} coins"

/-! ## The table -/

/-- Asks for the variant. -/
def askVariant : String :=
  "Please choose which version of the game you want to play."

/-- Names the variant that was chosen. -/
def variantChosen (name : String) : String :=
  s!"The chosen version is: {name}"

/-- Asks the player whose turn it is. -/
def askTurn (name : String) : String :=
  s!"{name}, it’s your turn. What do you want to do?"

/-- Names the winner. -/
def won (name : String) : String :=
  s!"{name} won!"

/-! ## Turns -/

/-- Says that a player takes income. -/
def income (actor : String) : String :=
  s!"💲 {actor} takes 1 coin of income"

/-- Says that a player asks for foreign aid. -/
def foreignAid (actor : String) : String :=
  s!"💴 {actor} receives 2 coins from foreign aid."

/-- Says who falls to a coup. -/
def coup (actor target : String) : String :=
  s!"💣 {actor} does a coup against {target}"

/-- Says that a player claims to be the duke. -/
def tax (actor : String) : String :=
  s!"💸 {actor} claims to have the duke and takes 3 coins from tax."

/-- Says who is to be assassinated. -/
def assassinate (actor target : String) : String :=
  s!"🗡 {actor} wants to assassinate {target}."

/-- Says that a player claims to be the negotiator, named as `card`. -/
def exchange (actor card : String) : String :=
  s!"🔄 {actor} claims to have {card} and wants to exchange cards."

/-- Says who is to be stolen from. -/
def steal (actor target : String) : String :=
  s!"💰 {actor} wants to steal from {target}."

/-- Says that a player changes sides. -/
def convertSelf (actor : String) : String :=
  s!"{actor} pays 1 coin to the treasury and converts themself."

/-- Says that a player has another change sides. -/
def convertOther (actor target : String) : String :=
  s!"{actor} pays 2 coins to the treasury and converts {target}."

/-- Says that a player claims not to be the duke. -/
def embezzle (actor : String) : String :=
  s!"💼 {actor} claims not to have the duke and embezzles the money in the treasury."

/-- Says who is to be interrogated. -/
def inspect (actor target : String) : String :=
  s!"🔍 {actor} claims to have the inquisitor and wants to interrogate {target}"

/-- Asks a player for a target. -/
def askTarget (actor question : String) : String :=
  s!"{actor}, {question}"

/-- What is asked before a coup. -/
def whomToCoup : String := "who do you want to kill during the coup?"

/-- What is asked before an assassination. -/
def whomToAssassinate : String := "who do you want to assassinate?"

/-- What is asked before stealing. -/
def whomToRob : String := "who do you want to steal from?"

/-- What is asked before a conversion. -/
def whomToConvert : String := "who do you want to convert?"

/-- What is asked before an interrogation. -/
def whomToInspect : String := "who do you want to interrogate?"

/-! ## Claims -/

/-- Says that a player blocks by claiming to have `cards`. -/
def block (blocker cards : String) : String :=
  s!"{blocker} claims to have {cards} and blocks the action."

/-- Asks the table for challenges. -/
def askChallenge : String := "\nDoes somebody want to challenge them?"

/-- Asks for a block with `cards`: the target if there is one, else the whole table or, where sides
protect their own, the other side. -/
def askBlock (afterChallenge : Bool) (target : Option String) (sided : Bool) (cards : String) :
    String :=
  let wish := s!" want to claim to have {cards} and block them?"
  match target with
  | some name =>
    (if afterChallenge then "\nOr " else "\n") ++ name ++ ", do you" ++ wish
  | none =>
    (if afterChallenge then "\nOr does" else "\nDoes") ++ " somebody"
      ++ (if sided then " from another allegiance" else "") ++ wish

/-- Says that foreign aid was granted. -/
def foreignAidGranted (actor : String) : String :=
  s!"Nobody blocked, {actor} takes the two coins"

/-- Says that tax was granted. -/
def taxGranted (actor : String) : String :=
  s!"Nobody challenged, {actor} takes the 3 coins."

/-- Says that the treasury was granted. -/
def embezzleGranted (actor : String) : String :=
  s!"Nobody challenged, {actor} takes the money in the treasury."

/-- Says that an assassination was granted. -/
def assassinateGranted (actor target : String) : String :=
  s!"Nobody blocked or challenged, {actor} assassinates {target}"

/-- Says that stealing was granted. -/
def stealGranted (actor target : String) : String :=
  s!"Nobody blocked or challenged, {actor} steals from {target}."

/-- Says that an exchange was granted. -/
def exchangeGranted (actor : String) : String :=
  s!"Nobody challenged, {actor} exchanges cards."

/-- Says that an interrogation was granted. -/
def inspectGranted (actor target : String) : String :=
  s!"Nobody challenged, {target} chooses a card to show to {actor}"

/-- Says that a block was granted. -/
def blockGranted : String := "Nobody challenged. The action was blocked."

/-! ## Reveals -/

/-- Says that the challenged player chooses a card. -/
def choosingCard (challenger challenged : String) : String :=
  s!"{challenger} challenged and now {challenged} is choosing which card to reveal."

/-- Asks the challenged player for a card. -/
def askCard (challenger cards : String) : String :=
  s!"{challenger} doesn’t believe that you have {cards}.\nWhich card do you want to show them?"

/-- Says that the challenged player may concede. -/
def choosingToConcede (challenger challenged : String) : String :=
  s!"{challenger} challenged and now {challenged} is choosing whether to concede."

/-- Asks the challenged player whether to concede. -/
def askConcede (challenger cards : String) : String :=
  s!"{challenger} believes that you do have {cards}.\nDo you want to concede?"

/-- Says that the challenged player had the card. -/
def proven (challenger challenged card : String) : String :=
  s!"{challenger} challenged but {challenged} did have {card}. "
    ++ s!"{challenger} loses a card and {challenged} receives a replacement from the deck."

/-- Says that the challenged player did not have the cards. -/
def caught (challenger challenged cards : String) : String :=
  s!"{challenger} challenged and {challenged} didn’t have {cards} so {challenged} loses a card."

/-- Says that the challenged player conceded. -/
def conceded (challenger challenged : String) : String :=
  s!"{challenger} challenged and {challenged} conceded so {challenged} loses a card."

/-- Says that the challenged player showed the whole hand. -/
def handShown (challenger challenged cards : String) : String :=
  s!"{challenger} challenged and {challenged} showed {cards} so {challenged} changes their cards "
    ++ s!"and {challenger} loses a card."

/-! ## Choices among one's own cards -/

/-- Asks which card to lose. -/
def askLoss : String := "Which card do you want to lose?"

/-- Asks which cards to keep. -/
def askKeep : String := "Which cards do you want to keep?"

/-- Asks which card to show. -/
def askShow (inquisitor : String) : String :=
  s!"Which card do you want to show to {inquisitor}?"

/-- Says that the inquisitor decides about the card shown. -/
def deciding (inquisitor card : String) : String :=
  s!"{inquisitor} is now deciding whether you can keep {card}"

/-- Asks the inquisitor about the card shown. -/
def askCanKeep (target card : String) : String :=
  s!"{target} shows {card} to you. Can they keep it?"

/-- Says that the card may be kept. -/
def letKeep (inquisitor target : String) : String :=
  s!"{inquisitor} let {target} keep the card that they showed."

/-- Says that the card must be changed. -/
def madeChange (inquisitor target : String) : String :=
  s!"{inquisitor} made {target} change the card that they showed."

end CoupTable.Wording
