import Mathlib.Data.List.TakeWhile
import CoupTable.Session
import CoupTable.Proofs.Transcripts

/-!
# Lines of a session

What a line presses can be recorded: the player is a word, and as the line was trimmed there is
something to be pressed behind its first blank.
-/

namespace CoupTable

namespace Text

variable {cs word rest : List Char}

/-- What is trimmed away to nothing has nothing but blanks. -/
theorem forall_isBlank_of_trim (h : trim cs = []) : ∀ c ∈ cs, isBlank c = true := by
  rw [trim, List.reverse_eq_nil_iff, List.dropWhile_eq_nil_iff] at h
  simp only [List.mem_reverse] at h
  rw [← List.dropWhile_eq_nil_iff]
  -- What is left in front begins with no blank, and has nothing else.
  by_contra hne
  have hhead := List.head_dropWhile_not isBlank hne
  rw [h _ (List.head_mem hne)] at hhead
  cases hhead

/-- What was trimmed does not end in a blank. -/
theorem isBlank_getLast_trim (h : trim cs ≠ []) : isBlank ((trim cs).getLast h) = false := by
  unfold trim at h ⊢
  rw [List.getLast_reverse]
  exact List.head_dropWhile_not isBlank _

/-- What stands after the first blank comes to the end. -/
theorem splitAtBlank?_eq_some (h : splitAtBlank? cs = some (word, rest)) :
    ∃ c, isBlank c = true ∧ cs = word ++ c :: rest := by
  induction cs generalizing word with
  | nil => cases h
  | cons c cs ih =>
    unfold splitAtBlank? at h
    split at h
    next hblank =>
      cases h
      exact ⟨c, hblank, rfl⟩
    next =>
      obtain ⟨⟨word', rest'⟩, hsplit, heq⟩ := Option.map_eq_some_iff.1 h
      cases heq
      obtain ⟨b, hblank, rfl⟩ := ih hsplit
      exact ⟨b, hblank, rfl⟩

/-- Where something was trimmed there is more than blanks behind the first blank. -/
theorem trim_ne_nil_of_splitAtBlank? (h : splitAtBlank? (trim cs) = some (word, rest)) :
    trim rest ≠ [] := by
  intro hrest
  obtain ⟨c, hblank, hcs⟩ := splitAtBlank?_eq_some h
  have hne : trim cs ≠ [] := by
    rw [hcs]
    exact List.append_ne_nil_of_right_ne_nil _ (List.cons_ne_nil _ _)
  have hlast := isBlank_getLast_trim hne
  have hmem : (trim cs).getLast hne ∈ c :: rest := by
    simp only [hcs, List.getLast_append_of_ne_nil _ (List.cons_ne_nil c rest)]
    exact List.getLast_mem _
  have hall : ∀ b ∈ c :: rest, isBlank b = true :=
    List.forall_mem_cons.2 ⟨hblank, forall_isBlank_of_trim hrest⟩
  rw [hall _ hmem] at hlast
  cases hlast

end Text

/-- What a line presses can be recorded: the seat is a word, and there are data. -/
theorem Line.eq_press {text : String} {seat : Nat} {data : String}
    (h : ofString text = .press seat data) : seat < Text.wordLimit ∧ data ≠ "" := by
  unfold ofString at h
  dsimp only at h
  split at h
  next => cases h
  next => cases h
  next => cases h
  next =>
    split at h
    next => cases h
    next word rest hsplit =>
      split at h
      next n hword =>
        cases h
        refine ⟨Text.word?_lt hword, fun hempty => ?_⟩
        refine Text.trim_ne_nil_of_splitAtBlank? hsplit ?_
        rw [← String.toList_ofList (l := Text.trim rest), hempty]
        rfl
      next => cases h

end CoupTable
