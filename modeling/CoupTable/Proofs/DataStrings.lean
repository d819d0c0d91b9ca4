import CoupTable.Move
import Mathlib.Data.List.TakeWhile

/-!
# Data strings

Which strings stand for a move, and which move they stand for. A data string is a command, alone or
with a numeral behind a colon, and what the commands take is told by three lists (`Move.IsData`).
Everything follows from the way back: a string stands for a move if it is the command of the move,
followed by the number of the move in digits if it has one, where leading zeros do no harm
(`Move.parse?_eq_some_iff`). The digits of a number are a numeral for it without these zeros
(`Text.toDigits_ofDigitChars`), and so the data of a move is any string that stands for it, made
short.
-/

namespace CoupTable

namespace Text

variable {cs : List Char} {c : Char} {n : Nat}

/-- The characters are one or more decimal digits that stand for a word. -/
structure IsNumeral (cs : List Char) (n : Nat) : Prop where
  /-- There is a digit. -/
  ne_nil : cs ≠ []
  /-- There are only digits. -/
  digits : ∀ c ∈ cs, c.isDigit = true
  /-- They stand for the number. -/
  value : Nat.ofDigitChars 10 cs 0 = n
  /-- The number is a word. -/
  lt : n < wordLimit

/-- The characters without leading zeros; the last character stays. -/
def trimZeros : List Char → List Char
  | '0' :: c :: cs => trimZeros (c :: cs)
  | cs => cs

/-- Numerals are what words are read from. -/
theorem word?_eq_some_iff : word? cs = some n ↔ IsNumeral cs n := by
  unfold word? natural?
  rw [Option.filter_eq_some_iff, decide_eq_true_eq]
  constructor
  · rintro ⟨h, hlt⟩
    split at h
    next => cases h
    next hcs =>
      rw [Bool.or_eq_true, not_or, Bool.not_eq_true', Bool.not_eq_false, List.isEmpty_iff] at hcs
      exact ⟨hcs.1, List.all_eq_true.1 hcs.2, Option.some.inj h, hlt⟩
  · rintro ⟨hne, hdigits, rfl, hlt⟩
    refine ⟨if_neg ?_, hlt⟩
    rw [Bool.or_eq_true, not_or, Bool.not_eq_true', Bool.not_eq_false, List.isEmpty_iff]
    exact ⟨hne, List.all_eq_true.2 hdigits⟩

/-- A numeral for a word stands for a word. -/
theorem word?_lt (h : word? cs = some n) : n < wordLimit := (word?_eq_some_iff.1 h).lt

/-- The digits of a word are a numeral for it. -/
theorem isNumeral_toDigits (h : n < wordLimit) : IsNumeral (Nat.toDigits 10 n) n where
  ne_nil := Nat.toDigits_ne_nil
  digits := fun _ hc => Nat.isDigit_of_mem_toDigits (by decide) (by decide) hc
  value := Nat.ofDigitChars_toDigits (by decide) (by decide)
  lt := h

/-- The digits of a word stand for the word. -/
theorem word?_toDigits (h : n < wordLimit) : word? (Nat.toDigits 10 n) = some n :=
  word?_eq_some_iff.2 (isNumeral_toDigits h)

/-- A decimal digit is the digit of a number below ten. -/
theorem exists_digitChar (h : c.isDigit = true) : ∃ d < 10, c = Nat.digitChar d := by
  have hrange : 48 ≤ c.toNat ∧ c.toNat ≤ 57 := by
    simpa [Char.isDigit, UInt32.le_iff_toNat_le] using h
  refine ⟨c.toNat - 48, by omega, Char.toNat_inj.1 ?_⟩
  rw [Nat.toNat_digitChar_of_lt_ten (by omega)]
  omega

/-- Digits that follow upon a number other than zero are digits of the value. -/
theorem toDigits_ofDigitChars_of_pos (hn : 0 < n) (h : ∀ c ∈ cs, c.isDigit = true) :
    Nat.toDigits 10 (Nat.ofDigitChars 10 cs n) = Nat.toDigits 10 n ++ cs := by
  induction cs generalizing n with
  | nil => simp
  | cons c cs ih =>
    obtain ⟨hc, hcs⟩ := List.forall_mem_cons.1 h
    obtain ⟨d, hd, rfl⟩ := exists_digitChar hc
    rw [Nat.ofDigitChars_cons_digitChar_of_lt_ten hd, ih (by omega) hcs,
      ← Nat.toDigits_append_toDigits (by decide) hn hd, Nat.toDigits_of_lt_base hd]
    simp

/-- The digits of a number that is read from digits are these digits without leading zeros. -/
theorem toDigits_ofDigitChars (hne : cs ≠ []) (h : ∀ c ∈ cs, c.isDigit = true) :
    Nat.toDigits 10 (Nat.ofDigitChars 10 cs 0) = trimZeros cs := by
  fun_induction trimZeros cs with
  | case1 c cs ih =>
    rw [Nat.ofDigitChars_cons]
    exact ih (List.cons_ne_nil _ _) (List.forall_mem_cons.1 h).2
  | case2 cs hshort =>
    cases cs with
    | nil => exact absurd rfl hne
    | cons c cs =>
      obtain ⟨hc, hcs⟩ := List.forall_mem_cons.1 h
      obtain ⟨d, hd, rfl⟩ := exists_digitChar hc
      rw [Nat.ofDigitChars_cons_digitChar_of_lt_ten hd]
      rcases Nat.eq_zero_or_pos d with rfl | hpos
      · -- A zero that stays is the only digit.
        cases cs with
        | nil => rfl
        | cons c' cs => exact absurd rfl (hshort c' cs)
      · rw [Nat.mul_zero, Nat.zero_add, toDigits_ofDigitChars_of_pos hpos hcs,
          Nat.toDigits_of_lt_base hd]
        rfl

/-- Nothing is left out unless there is a zero in front of another character. -/
theorem trimZeros_eq_self_iff : trimZeros cs = cs ↔ ∀ c rest, cs ≠ '0' :: c :: rest := by
  have hle : ∀ cs, (trimZeros cs).length ≤ cs.length := by
    intro cs
    fun_induction trimZeros cs with
    | case1 c cs ih => exact Nat.le_succ_of_le ih
    | case2 => exact Nat.le_refl _
  constructor
  · rintro htrim c rest rfl
    have hlen := hle (c :: rest)
    have heq := congrArg List.length htrim
    rw [trimZeros, List.length_cons] at heq
    omega
  · intro hshort
    unfold trimZeros
    split
    next c rest => exact absurd rfl (hshort c rest)
    next => rfl

end Text

namespace Move

variable {m : Move} {s t command : String} {digits : List Char} {arg : Option Nat} {n : Nat}

/-! ## Which strings are data -/

/-- The commands that are on their own. -/
def plainCommands : List String :=
  ["income", "foreign_aid", "tax", "exchange", "embezzle", "accept", "challenge", "block"]

/-- The commands that may be followed by a number. -/
def aimedCommands : List String := ["coup", "assassinate", "steal", "convert", "inspect"]

/-- The commands that are followed by a number. -/
def numberedCommands : List String := ["lose", "reveal", "keep", "show", "game_type"]

/-- The string is a command, with a numeral for a word behind a colon where it takes one. -/
inductive IsData : String → Prop where
  /-- A command on its own. -/
  | plain {command : String} (h : command ∈ plainCommands) : IsData command
  /-- A command that might be followed by a number. -/
  | aimless {command : String} (h : command ∈ aimedCommands) : IsData command
  /-- A command that may be followed by a number. -/
  | aimed {command : String} {digits : List Char} {n : Nat} (h : command ∈ aimedCommands)
      (hn : Text.IsNumeral digits n) : IsData (command ++ ":" ++ String.ofList digits)
  /-- A command that is followed by a number. -/
  | numbered {command : String} {digits : List Char} {n : Nat} (h : command ∈ numberedCommands)
      (hn : Text.IsNumeral digits n) : IsData (command ++ ":" ++ String.ofList digits)
  /-- The answer of an inquisitor, which is zero or one. -/
  | canKeep {digits : List Char} {n : Nat} (hn : Text.IsNumeral digits n) (hle : n ≤ 1) :
      IsData ("can_keep" ++ ":" ++ String.ofList digits)

/-- What follows the first colon. -/
def argument (s : String) : List Char := (s.toList.dropWhile (· != ':')).tail

/-- The string without leading zeros behind the first colon. -/
def shortened (s : String) : String :=
  match s.toList.dropWhile (· != ':') with
  | [] => s
  | colon :: digits =>
    String.ofList (s.toList.takeWhile (· != ':') ++ colon :: Text.trimZeros digits)

/-! ## Commands and their numbers -/

/-- No command has a colon in it. -/
theorem ne_colon_of_mem_command (m : Move) : ∀ ch ∈ m.command.toList, (ch != ':') = true := by
  cases m <;> simp [Move.command]

/-- A move is told by its command and its number. -/
theorem ofCommand?_command_arg (m : Move) : ofCommand? m.command m.arg = some m := by
  cases m with
  | canKeep allowed => cases allowed <;> rfl
  | _ => rfl

/-- A command with its number stands for the move that has both. -/
theorem ofCommand?_eq_some_iff :
    ofCommand? command arg = some m ↔ m.command = command ∧ m.arg = arg := by
  constructor
  · intro h
    unfold ofCommand? at h
    split at h <;> cases h <;> exact ⟨rfl, rfl⟩
  · rintro ⟨rfl, rfl⟩
    exact m.ofCommand?_command_arg

/-- The commands of moves without a number. -/
theorem exists_without_arg : (∃ m : Move, m.command = command ∧ m.arg = none) ↔
    command ∈ plainCommands ∨ command ∈ aimedCommands := by
  have hplain : ∀ command ∈ plainCommands, ∃ m : Move, m.command = command ∧ m.arg = none := by
    simp only [plainCommands, List.forall_mem_cons]
    exact ⟨⟨income, rfl, rfl⟩, ⟨foreignAid, rfl, rfl⟩, ⟨tax, rfl, rfl⟩, ⟨exchange, rfl, rfl⟩,
      ⟨embezzle, rfl, rfl⟩, ⟨accept, rfl, rfl⟩, ⟨challenge, rfl, rfl⟩, ⟨block, rfl, rfl⟩,
      List.forall_mem_nil _⟩
  have haimed : ∀ command ∈ aimedCommands, ∃ m : Move, m.command = command ∧ m.arg = none := by
    simp only [aimedCommands, List.forall_mem_cons]
    exact ⟨⟨coup none, rfl, rfl⟩, ⟨assassinate none, rfl, rfl⟩, ⟨steal none, rfl, rfl⟩,
      ⟨convert none, rfl, rfl⟩, ⟨inspect none, rfl, rfl⟩, List.forall_mem_nil _⟩
  refine ⟨?_, fun h => h.elim (hplain command) (haimed command)⟩
  rintro ⟨m, rfl, harg⟩
  cases m with
  | income | foreignAid | tax | exchange | embezzle | accept | challenge | block =>
    exact .inl (by decide)
  | coup | assassinate | steal | convert | inspect =>
    exact .inr (by simp [Move.command, aimedCommands])
  | lose | reveal | keep | showCard | canKeep | gameType => cases harg

/-- The commands of moves with a number. -/
theorem exists_with_arg : (∃ m : Move, m.command = command ∧ m.arg = some n) ↔
    command ∈ aimedCommands ∨ command ∈ numberedCommands ∨ command = "can_keep" ∧ n ≤ 1 := by
  have haimed : ∀ command ∈ aimedCommands, ∃ m : Move, m.command = command ∧ m.arg = some n := by
    simp only [aimedCommands, List.forall_mem_cons]
    exact ⟨⟨coup n, rfl, rfl⟩, ⟨assassinate n, rfl, rfl⟩, ⟨steal n, rfl, rfl⟩,
      ⟨convert n, rfl, rfl⟩, ⟨inspect n, rfl, rfl⟩, List.forall_mem_nil _⟩
  have hnumbered : ∀ command ∈ numberedCommands,
      ∃ m : Move, m.command = command ∧ m.arg = some n := by
    simp only [numberedCommands, List.forall_mem_cons]
    exact ⟨⟨lose n, rfl, rfl⟩, ⟨reveal n, rfl, rfl⟩, ⟨keep n, rfl, rfl⟩, ⟨showCard n, rfl, rfl⟩,
      ⟨gameType n, rfl, rfl⟩, List.forall_mem_nil _⟩
  constructor
  · rintro ⟨m, rfl, harg⟩
    cases m with
    | coup | assassinate | steal | convert | inspect =>
      exact .inl (by simp [Move.command, aimedCommands])
    | lose | reveal | keep | showCard | gameType =>
      exact .inr (.inl (by simp [Move.command, numberedCommands]))
    | canKeep allowed =>
      refine .inr (.inr ⟨rfl, ?_⟩)
      cases harg
      cases allowed <;> decide
    | income | foreignAid | tax | exchange | embezzle | accept | challenge | block => cases harg
  · rintro (h | h | ⟨rfl, hle⟩)
    · exact haimed command h
    · exact hnumbered command h
    · rcases Nat.le_one_iff_eq_zero_or_eq_one.1 hle with rfl | rfl
      · exact ⟨canKeep false, rfl, rfl⟩
      · exact ⟨canKeep true, rfl, rfl⟩

/-! ## The first colon -/

/-- The characters of a command with digits behind a colon. -/
theorem toList_colon (command : String) (digits : List Char) :
    (command ++ ":" ++ String.ofList digits).toList = command.toList ++ ':' :: digits := by
  simp

/-- A string without a colon stands for what its command alone stands for. -/
theorem parse?_of_plain (h : ∀ ch ∈ s.toList, (ch != ':') = true) :
    parse? s = ofCommand? s none := by
  unfold parse?
  dsimp only
  rw [List.takeWhile_eq_self_iff.2 h, List.dropWhile_eq_nil_iff.2 h, String.ofList_toList]

/-- A string with a colon stands for what its command stands for with the number behind the
colon. -/
theorem parse?_of_colon (h : ∀ ch ∈ command.toList, (ch != ':') = true) :
    parse? (command ++ ":" ++ String.ofList digits) =
      (Text.word? digits).bind fun n => ofCommand? command (some n) := by
  unfold parse?
  dsimp only
  rw [toList_colon, List.takeWhile_append_of_pos h, List.dropWhile_append_of_pos h]
  simp

/-- A string has no colon, or it is a command and what follows the first colon. -/
theorem colon_cases (s : String) : (∀ ch ∈ s.toList, (ch != ':') = true) ∨
    ∃ command digits, (∀ ch ∈ command.toList, (ch != ':') = true) ∧
      s = command ++ ":" ++ String.ofList digits := by
  cases hrest : s.toList.dropWhile (· != ':') with
  | nil => exact .inl (List.dropWhile_eq_nil_iff.1 hrest)
  | cons colon digits =>
    have hcolon : colon = ':' := by
      have hstop := List.head_dropWhile_not (· != ':') (l := s.toList) (by simp [hrest])
      simpa [hrest] using hstop
    have hsplit := List.takeWhile_append_dropWhile (p := (· != ':')) (l := s.toList)
    rw [hrest, hcolon] at hsplit
    refine .inr ⟨String.ofList (s.toList.takeWhile (· != ':')), digits, ?_, ?_⟩
    · rw [String.toList_ofList]
      exact List.all_eq_true.1 List.all_takeWhile
    · apply String.toList_inj.1
      rw [toList_colon, String.toList_ofList]
      exact hsplit.symm

/-- A string stands for a move if it is the command of the move, with a numeral behind a colon if
the move has a number. -/
theorem parse?_eq_some_iff : parse? s = some m ↔ (m.arg = none ∧ s = m.command) ∨
    ∃ n digits, m.arg = some n ∧ Text.IsNumeral digits n ∧
      s = m.command ++ ":" ++ String.ofList digits := by
  constructor
  · intro h
    rcases colon_cases s with hplain | ⟨command, digits, hcommand, rfl⟩
    · rw [parse?_of_plain hplain] at h
      obtain ⟨hs, harg⟩ := ofCommand?_eq_some_iff.1 h
      exact .inl ⟨harg, hs.symm⟩
    · rw [parse?_of_colon hcommand] at h
      obtain ⟨n, hn, h⟩ := Option.bind_eq_some_iff.1 h
      obtain ⟨rfl, harg⟩ := ofCommand?_eq_some_iff.1 h
      exact .inr ⟨n, digits, harg, Text.word?_eq_some_iff.1 hn, rfl⟩
  · rintro (⟨harg, rfl⟩ | ⟨n, digits, harg, hn, rfl⟩)
    · rw [parse?_of_plain m.ne_colon_of_mem_command]
      exact ofCommand?_eq_some_iff.2 ⟨rfl, harg⟩
    · rw [parse?_of_colon m.ne_colon_of_mem_command, Text.word?_eq_some_iff.2 hn]
      exact ofCommand?_eq_some_iff.2 ⟨rfl, harg⟩

/-- The data of a move without a number is its command. -/
theorem data_of_none (harg : m.arg = none) : m.data = m.command := by
  rw [data, harg]

/-- The data of a move with a number has the digits of the number behind the colon. -/
theorem data_of_some (harg : m.arg = some n) :
    m.data = m.command ++ ":" ++ String.ofList (Nat.toDigits 10 n) := by
  rw [data, harg, ← Nat.toString_eq_ofList_toDigits]

/-- The data string of a move stands for the move, if its number is a word. -/
theorem parse?_data (h : ∀ n, m.arg = some n → n < Text.wordLimit) : parse? m.data = some m := by
  refine parse?_eq_some_iff.2 ?_
  cases harg : m.arg with
  | none => exact .inl ⟨rfl, data_of_none harg⟩
  | some n => exact .inr ⟨n, _, rfl, Text.isNumeral_toDigits (h n harg), data_of_some harg⟩

/-- A string stands for a move if it is a data string. -/
theorem isSome_parse?_iff : (parse? s).isSome = true ↔ IsData s := by
  rw [Option.isSome_iff_exists]
  constructor
  · rintro ⟨m, hm⟩
    rcases parse?_eq_some_iff.1 hm with ⟨harg, rfl⟩ | ⟨n, digits, harg, hn, rfl⟩
    · rcases exists_without_arg.1 ⟨m, rfl, harg⟩ with hplain | haimed
      · exact .plain hplain
      · exact .aimless haimed
    · rcases exists_with_arg.1 ⟨m, rfl, harg⟩ with haimed | hnumbered | ⟨hcommand, hle⟩
      · exact .aimed haimed hn
      · exact .numbered hnumbered hn
      · rw [hcommand]
        exact .canKeep hn hle
  · -- Of every data string the command and the number belong to a move.
    have hplain : ∀ {command}, command ∈ plainCommands ∨ command ∈ aimedCommands →
        ∃ m, parse? command = some m := by
      intro command h
      obtain ⟨m, rfl, harg⟩ := exists_without_arg.2 h
      exact ⟨m, parse?_eq_some_iff.2 (.inl ⟨harg, rfl⟩)⟩
    have hcolon : ∀ {command n digits}, Text.IsNumeral digits n → command ∈ aimedCommands ∨
        command ∈ numberedCommands ∨ command = "can_keep" ∧ n ≤ 1 →
        ∃ m, parse? (command ++ ":" ++ String.ofList digits) = some m := by
      intro command n digits hn h
      obtain ⟨m, rfl, harg⟩ := exists_with_arg.2 h
      exact ⟨m, parse?_eq_some_iff.2 (.inr ⟨n, digits, harg, hn, rfl⟩)⟩
    intro h
    cases h with
    | plain h => exact hplain (.inl h)
    | aimless h => exact hplain (.inr h)
    | aimed h hn => exact hcolon hn (.inl h)
    | numbered h hn => exact hcolon hn (.inr (.inl h))
    | canKeep hn hle => exact hcolon hn (.inr (.inr ⟨rfl, hle⟩))

/-! ## Leading zeros -/

/-- Nothing follows a colon where there is none. -/
theorem argument_of_plain (h : ∀ ch ∈ s.toList, (ch != ':') = true) : argument s = [] := by
  rw [argument, List.dropWhile_eq_nil_iff.2 h, List.tail_nil]

/-- A string without a colon cannot be made shorter. -/
theorem shortened_of_plain (h : ∀ ch ∈ s.toList, (ch != ':') = true) : shortened s = s := by
  rw [shortened, List.dropWhile_eq_nil_iff.2 h]

section Colon

variable (h : ∀ ch ∈ command.toList, (ch != ':') = true)
include h

/-- What follows the first colon follows the command. -/
theorem argument_of_colon : argument (command ++ ":" ++ String.ofList digits) = digits := by
  rw [argument, toList_colon, List.dropWhile_append_of_pos h]
  rfl

/-- The zeros that are left out follow the command. -/
theorem shortened_of_colon : shortened (command ++ ":" ++ String.ofList digits) =
    command ++ ":" ++ String.ofList (Text.trimZeros digits) := by
  rw [shortened, toList_colon, List.takeWhile_append_of_pos h, List.dropWhile_append_of_pos h]
  apply String.toList_inj.1
  rw [toList_colon]
  simp

end Colon

/-- The data of the move that a string stands for is the string without leading zeros. -/
theorem data_of_parse? (h : parse? s = some m) : m.data = shortened s := by
  have hcommand := m.ne_colon_of_mem_command
  rcases parse?_eq_some_iff.1 h with ⟨harg, rfl⟩ | ⟨n, digits, harg, hn, rfl⟩
  · rw [shortened_of_plain hcommand, data_of_none harg]
  · rw [shortened_of_colon hcommand, ← Text.toDigits_ofDigitChars hn.ne_nil hn.digits, hn.value,
      data_of_some harg]

/-- A string that stands for a move is short unless its number begins with a zero that could be left
out. -/
theorem shortened_eq_self_iff (h : parse? s = some m) :
    shortened s = s ↔ ∀ c rest, argument s ≠ '0' :: c :: rest := by
  have hcommand := m.ne_colon_of_mem_command
  rcases parse?_eq_some_iff.1 h with ⟨harg, rfl⟩ | ⟨n, digits, harg, hn, rfl⟩
  · rw [shortened_of_plain hcommand, argument_of_plain hcommand]
    exact ⟨fun _ _ _ => nofun, fun _ => rfl⟩
  · rw [shortened_of_colon hcommand, argument_of_colon hcommand, ← Text.trimZeros_eq_self_iff]
    refine ⟨fun heq => ?_, fun heq => congrArg (m.command ++ ":" ++ String.ofList ·) heq⟩
    have hlists := congrArg String.toList heq
    rw [toList_colon, toList_colon] at hlists
    exact (List.cons.inj (List.append_cancel_left hlists)).2

/-- A move that a string stands for has a word for a number. -/
theorem arg_lt_of_parse? (h : parse? s = some m) (harg : m.arg = some n) : n < Text.wordLimit := by
  rcases parse?_eq_some_iff.1 h with ⟨hnone, -⟩ | ⟨n', digits, hsome, hn, -⟩
  · cases harg.symm.trans hnone
  · cases harg.symm.trans hsome
    exact hn.lt

/-- Data strings stand for the same move if they are the same once they are made short. -/
theorem parse?_eq_iff (hs : IsData s) (ht : IsData t) :
    parse? s = parse? t ↔ shortened s = shortened t := by
  obtain ⟨m, hm⟩ := Option.isSome_iff_exists.1 (isSome_parse?_iff.2 hs)
  obtain ⟨m', hm'⟩ := Option.isSome_iff_exists.1 (isSome_parse?_iff.2 ht)
  rw [hm, hm', ← data_of_parse? hm, ← data_of_parse? hm']
  refine ⟨fun heq => congrArg data (Option.some.inj heq), fun heq => ?_⟩
  -- The data tells the move, whose number is a word.
  rw [← parse?_data fun n => arg_lt_of_parse? hm, heq, parse?_data fun n => arg_lt_of_parse? hm']

/-- The data of every move whose number is a word stands for the move. The strings that stand for a
move are those of the grammar. The data of the move that a string stands for is the string without
the leading zeros of its number, and so it is the string itself unless there are any; and strings of
the grammar stand for the same move exactly if they differ in such zeros alone. -/
theorem data_strings_understood :
    (∀ m : Move, (∀ n, m.arg = some n → n < Text.wordLimit) → parse? m.data = some m) ∧
    (∀ s, (parse? s).isSome = true ↔ IsData s) ∧
    (∀ s m, parse? s = some m → m.data = shortened s ∧
      (m.data = s ↔ ∀ c rest, argument s ≠ '0' :: c :: rest)) ∧
    ∀ s t, IsData s → IsData t → (parse? s = parse? t ↔ shortened s = shortened t) := by
  refine ⟨fun m => parse?_data, fun s => isSome_parse?_iff, fun s m h => ⟨data_of_parse? h, ?_⟩,
    fun s t => parse?_eq_iff⟩
  rw [data_of_parse? h]
  exact shortened_eq_self_iff h

/-- A move against the eighth seat is typed with two zeros too many. -/
theorem data_strings_understood_zeros :
    parse? "coup:007" = some (coup (some 7)) ∧ IsData "coup:007" ∧
      (coup (some 7)).data = shortened "coup:007" ∧ (coup (some 7)).data ≠ "coup:007" ∧
      parse? (coup (some 7)).data = some (coup (some 7)) := by
  obtain ⟨hread, hgrammar, hshort, -⟩ := data_strings_understood
  have hparse : parse? "coup:007" = some (coup (some 7)) := by decide
  obtain ⟨hdata, hself⟩ := hshort _ _ hparse
  refine ⟨hparse, (hgrammar _).1 (by rw [hparse]; rfl), hdata, fun heq => ?_, hread _ ?_⟩
  · exact hself.1 heq '0' ['7'] (by decide)
  · rintro n ⟨⟩
    decide

end Move

end CoupTable
