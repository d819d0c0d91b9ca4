import Mathlib.Algebra.Order.BigOperators.Group.List
import Mathlib.Algebra.Order.Ring.Nat
import CoupTable.Game.Reveals
import CoupTable.Game.Turns
import CoupTable.Proofs.Basics

/-!
# Messages that are no status

A status tells the table that a turn has begun, or that the game has ended. Names are free, so a
text could be made to look like a status; but no message that is sent otherwise is a status of a
table with the same names (`Game.Remarks`). A status of a turn has a button that no question has.
The last status has none, ends in an exclamation mark, and has more lines than all names together,
so that a text that ends otherwise, or that has two of the names in it and no line of its own, is no
status.
-/

namespace CoupTable

/-! ## Texts -/

namespace Text

/-- The last character of a text. -/
def lastChar? (s : String) : Option Char := s.toList.getLast?

/-- The number of line ends in a text. -/
def lineEnds (s : String) : Nat := s.toList.count '\n'

/-- Whether a text ends in something other than an exclamation mark. -/
def endsCalmly (s : String) : Bool := (lastChar? s).any (· != '!')

/-- A text ends as its last part does. -/
theorem lastChar?_append (s : String) {t : String} {c : Char} (h : lastChar? t = some c) :
    lastChar? (s ++ t) = some c := by
  unfold lastChar? at *
  rw [String.toList_append, List.getLast?_append, h]
  rfl

/-- A text ends calmly if its last part does. -/
theorem endsCalmly_append (s : String) {t : String} (h : endsCalmly t = true) :
    endsCalmly (s ++ t) = true := by
  unfold endsCalmly at *
  cases hlast : lastChar? t with
  | none =>
    rw [hlast] at h
    cases h
  | some c => rwa [lastChar?_append s hlast, ← hlast]

/-- Two texts have as many line ends as both of them. -/
@[simp] theorem lineEnds_append (s t : String) : lineEnds (s ++ t) = lineEnds s + lineEnds t := by
  unfold lineEnds
  rw [String.toList_append, List.count_append]

/-- Texts that are put together have all the line ends of their parts. -/
theorem lineEnds_join (texts : List String) :
    lineEnds (String.join texts) = (texts.map lineEnds).sum := by
  unfold lineEnds
  rw [String.toList_join, List.count_flatMap]
  rfl

/-- Two texts of some have no more line ends than all together. -/
theorem lineEnds_add_le {texts : List String} {i j : Nat} {s t : String} (hne : i ≠ j)
    (hs : texts[i]? = some s) (ht : texts[j]? = some t) :
    lineEnds s + lineEnds t ≤ (texts.map lineEnds).sum := by
  induction texts generalizing i j with
  | nil => cases hs
  | cons first texts ih =>
    rw [List.map_cons, List.sum_cons]
    have hle : ∀ {k : Nat} {r : String}, texts[k]? = some r →
        lineEnds r ≤ (texts.map lineEnds).sum := fun hr =>
      List.le_sum_of_mem (List.mem_map_of_mem (List.mem_of_getElem? hr))
    match i, j with
    | 0, 0 => exact absurd rfl hne
    | 0, j + 1 =>
      cases hs
      exact Nat.add_le_add_left (hle ht) _
    | i + 1, 0 =>
      cases ht
      rw [Nat.add_comm]
      exact Nat.add_le_add_left (hle hs) _
    | i + 1, j + 1 =>
      have hnext := ih (fun heq => hne (congrArg Nat.succ heq)) hs ht
      omega

end Text

open Text

/-! ## The status -/

namespace Game

/-- The names of the players, seat by seat. -/
def names (g : Game) : List String := g.players.map (·.name)

/-- The message that opens a turn, or ends the game. -/
def status (g : Game) : Message :=
  ⟨.everyone, g.statusText, if g.isFinished then [] else g.turnButtons⟩

variable {g : Game} {m : Message} {ms ms' : List Message}

/-- The status of a finished game has no buttons. -/
theorem status_of_isFinished {g : Game} (h : g.isFinished = true) :
    g.status = ⟨.everyone, g.statusText, []⟩ := by
  rw [status, if_pos h]

/-- The message is a status of some table with these names. -/
def IsStatus (called : List String) (m : Message) : Prop :=
  ∃ g : Game, g.names = called ∧ m = g.status

/-- The status of a game is one of a table with its names. -/
theorem isStatus_status (g : Game) : IsStatus g.names g.status := ⟨g, rfl, rfl⟩

/-- The button stands for income or asks whom to make a coup against, as one under every status of a
turn does. -/
def OpensTurn (b : Button) : Prop := b.data = Move.income.data ∨ b.data = (Move.coup none).data
deriving Decidable

/-- Under the status of a turn there is income or a coup to choose. -/
theorem exists_opensTurn (g : Game) : ∃ b ∈ g.turnButtons, OpensTurn b := by
  unfold turnButtons
  dsimp only
  split
  · exact ⟨_, List.mem_singleton_self _, .inr rfl⟩
  · exact ⟨⟨"Income", Move.income.data⟩, by simp, .inl rfl⟩

/-- The lines about a player have one more line end at least than the player's name. -/
theorem lineEnds_statusOf (g : Game) (p : Player) (seat : Nat) :
    lineEnds p.name + 1 ≤ lineEnds (g.statusOf p seat) := by
  have hcolon : lineEnds ":\n" = 1 := by decide
  unfold statusOf
  dsimp only
  simp only [lineEnds_append, hcolon]
  omega

/-- A status has more line ends than all names together. -/
theorem lineEnds_statusText (g : Game) :
    (g.names.map lineEnds).sum + g.players.length ≤ lineEnds g.statusText := by
  -- Seat by seat there is one line end more than in the name.
  have hseats : ∀ players : List (Player × Nat),
      (players.map fun x => lineEnds x.1.name).sum + players.length
        ≤ lineEnds (String.join (players.map fun x => g.statusOf x.1 x.2)) := by
    intro players
    rw [lineEnds_join]
    induction players with
    | nil => exact Nat.le_refl _
    | cons x players ih =>
      have hx := g.lineEnds_statusOf x.1 x.2
      simp only [List.map_cons, List.sum_cons, List.length_cons] at ih ⊢
      omega
  have hall := hseats g.players.zipIdx
  have hnames : (g.players.zipIdx.map fun x => lineEnds x.1.name) = g.names.map lineEnds := by
    calc g.players.zipIdx.map (fun x => lineEnds x.1.name)
        = (g.players.zipIdx.map Prod.fst).map fun p => lineEnds p.name := by rw [List.map_map]; rfl
      _ = g.names.map lineEnds := by rw [List.zipIdx_map_fst, names, List.map_map]; rfl
  rw [hnames, List.length_zipIdx] at hall
  unfold statusText
  simp only [lineEnds_append]
  refine Nat.le_trans hall ?_
  rw [Nat.add_assoc]
  exact Nat.le_add_right ..

/-- What gives a status away: the button of a turn, or how the last status ends and how many lines
it has. -/
theorem IsStatus.signs {called : List String} (h : IsStatus called m) : m.recipient = .everyone ∧
    ((∃ b ∈ m.buttons, OpensTurn b) ∨ m.buttons = [] ∧ lastChar? m.text = some '!' ∧
      (called.map lineEnds).sum + called.length ≤ lineEnds m.text) := by
  obtain ⟨g, rfl, rfl⟩ := h
  refine ⟨rfl, ?_⟩
  unfold status
  dsimp only
  cases hfinished : g.isFinished with
  | false => exact .inl g.exists_opensTurn
  | true =>
    refine .inr ⟨rfl, ?_, ?_⟩
    · unfold statusText statusClosing
      dsimp only
      rw [if_pos hfinished]
      exact lastChar?_append _ (lastChar?_append _ (by decide))
    · have hlen : g.names.length = g.players.length := List.length_map _
      rw [hlen]
      exact g.lineEnds_statusText

/-- The button of a move with a number opens no turn. -/
theorem not_opensTurn {move : Move} (h : move.arg ≠ none) (label : String) :
    ¬ OpensTurn ⟨label, move.data⟩ := by
  obtain ⟨n, hn⟩ := Option.ne_none_iff_exists'.1 h
  have hcolon : ':' ∈ move.data.toList := by
    rw [Move.data, hn]
    simp
  rintro (heq | heq)
  · rw [show move.data = Move.income.data from heq] at hcolon
    exact absurd hcolon (by decide)
  · rw [show move.data = (Move.coup none).data from heq] at hcolon
    exact absurd hcolon (by decide)

/-! ## Remarks -/

/-- None of the messages is a status of a table with the names of this one. -/
def Remarks (g : Game) (ms : List Message) : Prop := ∀ m ∈ ms, ¬ IsStatus g.names m

/-- No message is a status. -/
theorem Remarks.nil : g.Remarks [] := List.forall_mem_nil _

/-- Two lists of remarks are remarks together. -/
theorem Remarks.append (h : g.Remarks ms) (h' : g.Remarks ms') : g.Remarks (ms ++ ms') :=
  List.forall_mem_append.2 ⟨h, h'⟩

/-- Whether a message is a status depends on the names alone. -/
theorem Remarks.of_names {g' : Game} (h : g'.Remarks ms) (hnames : g'.names = g.names) :
    g.Remarks ms := by
  unfold Remarks at *
  rwa [← hnames]

/-- What a player is told, in any number of messages, is no status. -/
theorem remarks_of_told (g : Game) {seat : Nat} (h : ∀ m ∈ ms, m.recipient = .player seat) :
    g.Remarks ms := by
  intro m hm hstatus
  cases (h m hm).symm.trans hstatus.signs.1

/-- What one player is told is no status. -/
theorem remarks_told (g : Game) (seat : Nat) (text : String) (buttons : List Button) :
    g.Remarks [⟨.player seat, text, buttons⟩] :=
  g.remarks_of_told (List.forall_mem_singleton.2 rfl)

/-- A question is no status. -/
theorem remarks_asked (text : String) {buttons : List Button} (hne : buttons ≠ [])
    (hbuttons : ∀ b ∈ buttons, ¬ OpensTurn b) : g.Remarks [⟨.everyone, text, buttons⟩] := by
  intro m hm h
  cases List.mem_singleton.1 hm
  obtain ⟨-, ⟨b, hb, hopens⟩ | ⟨hnone, -⟩⟩ := h.signs
  · exact hbuttons b hb hopens
  · exact hne hnone

/-- A text that ends calmly is no status, unless it has the button of one. -/
theorem remarks_of_endsCalmly {text : String} {buttons : List Button}
    (hlast : endsCalmly text = true) (hbuttons : ∀ b ∈ buttons, ¬ OpensTurn b) :
    g.Remarks [⟨.everyone, text, buttons⟩] := by
  intro m hm h
  cases List.mem_singleton.1 hm
  obtain ⟨-, ⟨b, hb, hopens⟩ | ⟨-, hend, -⟩⟩ := h.signs
  · exact hbuttons b hb hopens
  · rw [endsCalmly, hend] at hlast
    cases hlast

/-- A note that ends calmly is no status. -/
theorem remarks_noted {text : String} (h : endsCalmly text = true) :
    g.Remarks [⟨.everyone, text, []⟩] :=
  remarks_of_endsCalmly h (List.forall_mem_nil _)

/-- A question to a player, with others to choose from, is no status. -/
theorem remarks_askTarget (seats : List Nat) {question : String} {make : Option Nat → Move}
    (hquestion : endsCalmly question = true) (hmake : ∀ seat, (make (some seat)).arg ≠ none) :
    g.Remarks [⟨.everyone, Wording.askTarget (g.nameOf g.current) question,
      seats.map fun seat => ⟨g.nameOf seat, (make (some seat)).data⟩⟩] := by
  refine remarks_of_endsCalmly (endsCalmly_append _ hquestion) fun b hb => ?_
  obtain ⟨seat, -, rfl⟩ := List.mem_map.1 hb
  exact not_opensTurn (hmake seat) _

/-- What the table is asked about a claim is no status. -/
theorem remarks_claim (text : String) (c : Claim) :
    g.Remarks [⟨.everyone, text, claimButtons c⟩] := by
  refine remarks_asked text (by simp [claimButtons]) ?_
  unfold claimButtons
  cases c.challengeable <;> cases c.blockable <;> decide

/-- A note with the names of two players in a text of one line is no status, even where it ends in a
name. -/
theorem remarks_named {opening middle : String} {i j : Nat} {p q : Player} (hne : i ≠ j)
    (hp : g.players[i]? = some p) (hq : g.players[j]? = some q) (hopening : lineEnds opening = 0)
    (hmiddle : lineEnds middle = 0) :
    g.Remarks [⟨.everyone, opening ++ p.name ++ middle ++ q.name, []⟩] := by
  intro m hm h
  cases List.mem_singleton.1 hm
  obtain ⟨-, ⟨b, hb, -⟩ | ⟨-, -, hmany⟩⟩ := h.signs
  · cases hb
  · have hp' : g.names[i]? = some p.name := by rw [names, List.getElem?_map, hp]; rfl
    have hq' : g.names[j]? = some q.name := by rw [names, List.getElem?_map, hq]; rfl
    have hle := lineEnds_add_le hne hp' hq'
    have hseat : 0 < g.names.length := Nat.zero_lt_of_lt (List.getElem?_eq_some_iff.1 hp').1
    simp only [lineEnds_append, hopening, hmiddle] at hmany
    omega

end Game

end CoupTable
