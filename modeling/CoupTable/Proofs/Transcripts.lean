import CoupTable.Proofs.DataStrings
import CoupTable.Proofs.Tables
import CoupTable.Transcript.Table

/-!
# Transcripts are read as they were written

A transcript is written as a table with one row for each event, and reading the row of an event
gives the event, as long as its numbers are words. Only a text without characters is not told from
one that is missing (`Event.kept`), and so an event may be read that lacks what its kind needs: then
the reading stops.
-/

namespace CoupTable

namespace Text

variable {n : Nat} {cs : List Char}

/-- A hexadecimal numeral for a word stands for a word. -/
theorem hexWord?_lt (h : hexWord? cs = some n) : n < wordLimit := by
  unfold hexWord? at h
  split at h
  next => cases h
  next => simpa using (Option.filter_eq_some_iff.1 h).2

end Text

open Text (decode? encode wordLimit word? hexWord? dropPlus)
open Text.Csv (Field Record)

/-! ## Fields -/

/-- A numeral in a field stands for a word. -/
theorem fieldWord?_lt {cs : List Char} {n : Nat} (h : fieldWord? cs = some n) : n < wordLimit := by
  unfold fieldWord? at h
  split at h
  · exact Text.hexWord?_lt h
  · exact Text.word?_lt h

/-- The digits of a word in a field stand for the word. -/
theorem fieldWord?_toString {n : Nat} (h : n < wordLimit) :
    fieldWord? (toString n).toList = some n := by
  have hdigit : ∀ c ∈ Nat.toDigits 10 n, c.isDigit = true := fun c hc =>
    Nat.isDigit_of_mem_toDigits (by decide) (by decide) hc
  have hword := Text.word?_toDigits h
  rw [Nat.toString_eq_repr, Nat.toList_repr]
  generalize Nat.toDigits 10 n = digits at hdigit hword
  -- Neither the `x` of a hexadecimal numeral nor a plus sign is a digit.
  have hplus : dropPlus digits = digits := by
    unfold dropPlus
    split
    next => cases hdigit '+' List.mem_cons_self
    next => rfl
  unfold fieldWord?
  split
  next => cases hdigit 'x' (List.mem_cons_of_mem _ List.mem_cons_self)
  next => rw [hplus, hword]

/-- The number of a field is a word. -/
theorem numberOfField?_lt {s : String} {m : Option Nat} {n : Nat} (h : numberOfField? s = some m)
    (hm : m = some n) : n < wordLimit := by
  subst hm
  unfold numberOfField? at h
  split at h
  next => cases h
  next =>
    obtain ⟨n', hn', heq⟩ := Option.map_eq_some_iff.1 h
    cases heq
    exact fieldWord?_lt hn'

/-- A number that may be missing is read as it was written. -/
theorem numberOfField?_getD {m : Option Nat} (h : ∀ n, m = some n → n < wordLimit) :
    numberOfField? ((m.map toString).getD "") = some m := by
  cases m with
  | none => rfl
  | some n =>
    have hne : (toString n).isEmpty = false := by simp
    simp only [Option.map_some, Option.getD_some, numberOfField?, hne, Bool.false_eq_true, if_false,
      fieldWord?_toString (h n rfl)]

/-- A text that may be missing is read as it was written, unless it has no characters. -/
theorem textOfField_getD (d : Option String) : textOfField (d.getD "") = d.filter (· != "") := by
  cases d with
  | none => rfl
  | some text =>
    by_cases hempty : text = ""
    · subst hempty
      rfl
    · simp [textOfField, hempty, Option.filter_some]

/-- A kind of event is read as it was written. -/
theorem kindOfField?_name (kind : Event.Kind) : kindOfField? kind.name = some kind := by
  cases kind <;> decide

/-! ## Rows -/

namespace Event

/-- What a table keeps of an event: a text without characters is written as if there were none. -/
def kept (e : Event) : Event := { e with data := e.data.filter (· != "") }

/-- The numbers of the event are words. -/
structure HasWords (e : Event) : Prop where
  /-- So is the player. -/
  player : ∀ n, e.player = some n → n < wordLimit
  /-- So are the milliseconds. -/
  millis : ∀ n, e.millis = some n → n < wordLimit

variable {e : Event}

/-- A table keeps an event as it is if it has no text or one with characters. -/
theorem kept_eq_self : e.kept = e ↔ e.data ≠ some "" := by
  obtain ⟨kind, player, data, millis⟩ := e
  cases data with
  | none => simp [kept]
  | some text => by_cases hempty : text = "" <;> simp [kept, hempty]

end Event

/-- The header of a written table. -/
def headerRecord : Record := Column.all.map fun c => encode c.name

/-- A field that is a text is read as the text. -/
theorem mapM_decode?_encode (texts : List String) :
    (texts.map encode).mapM decode? = some texts := by
  induction texts with
  | nil => rfl
  | cons s texts ih =>
    rw [List.map_cons, List.mapM_cons, Text.decode?_encode, ih]
    rfl

/-- The header of a written table names the columns. -/
theorem columnsOfHeader_headerRecord :
    columnsOfHeader headerRecord = (Column.all.map some, true) := by
  have hnames : headerRecord.mapM decode? = some (Column.all.map Column.name) := by
    rw [headerRecord, ← mapM_decode?_encode, List.map_map]
    rfl
  have hcolumns : (Column.all.map Column.name).map Column.ofName? = Column.all.map some := by
    decide
  rw [columnsOfHeader, hnames]
  exact congrArg (·, true) hcolumns

/-- A row with a field for each column has the event that its fields give. -/
theorem eventOfFields?_all (kind player data millis : String) :
    eventOfFields? (Column.all.map some) [kind, player, data, millis] =
      (kindOfField? kind).bind fun kind => (numberOfField? player).bind fun player =>
        (numberOfField? millis).map fun millis => ⟨kind, player, textOfField data, millis⟩ := by
  have hkind : fieldsOf (Column.all.map some) [kind, player, data, millis] .kind = [kind] := rfl
  have hplayer : fieldsOf (Column.all.map some) [kind, player, data, millis] .player = [player] :=
    rfl
  have hdata : fieldsOf (Column.all.map some) [kind, player, data, millis] .data = [data] := rfl
  have hmillis : fieldsOf (Column.all.map some) [kind, player, data, millis] .millis = [millis] :=
    rfl
  have honce : ¬(Column.all.any fun c =>
      (fieldsOf (Column.all.map some) [kind, player, data, millis] c).length > 1) = true :=
    Bool.false_ne_true
  unfold eventOfFields?
  rw [if_neg honce]
  simp only [hkind, hplayer, hdata, hmillis, List.head?_cons, Option.map_some, Option.getD_some,
    Option.bind_some]
  cases kindOfField? kind with
  | none => rfl
  | some kind =>
    cases numberOfField? player with
    | none => rfl
    | some player => cases numberOfField? millis <;> rfl

/-- The row of an event is read as what a table keeps of the event. -/
theorem eventOfRecord?_toRecord {e : Event} (h : e.HasWords) :
    eventOfRecord? headerRecord e.toRecord = some e.kept := by
  have hfields : e.toRecord.mapM decode? = some [e.kind.name, (e.player.map toString).getD "",
      e.data.getD "", (e.millis.map toString).getD ""] :=
    mapM_decode?_encode [_, _, _, _]
  have hevent := eventOfFields?_all e.kind.name ((e.player.map toString).getD "")
    (e.data.getD "") ((e.millis.map toString).getD "")
  rw [kindOfField?_name, numberOfField?_getD h.player, numberOfField?_getD h.millis,
    textOfField_getD] at hevent
  unfold eventOfRecord?
  rw [hfields, columnsOfHeader_headerRecord]
  exact hevent

/-! ## Transcripts -/

/-- The rows of some events are read as what a table keeps of them, up to the first that lacks what
its kind needs. -/
theorem eventsOfRecords_toRecord {t : Transcript} (h : ∀ e ∈ t, e.HasWords) (row : Nat) :
    eventsOfRecords headerRecord row (t.map (·.toRecord)) =
      match (t.map Event.kept).findIdx? (!·.isWellFormed) with
      | some i => .error (.malformedEvent (row + i))
      | none => .ok (t.map Event.kept) := by
  induction t generalizing row with
  | nil => rfl
  | cons e t ih =>
    obtain ⟨he, ht⟩ := List.forall_mem_cons.1 h
    rw [List.map_cons, eventsOfRecords, eventOfRecord?_toRecord he, List.map_cons,
      List.findIdx?_cons]
    dsimp only
    cases e.kept.isWellFormed with
    | false => rfl
    | true =>
      rw [if_pos rfl, ih ht, Bool.not_true, if_neg Bool.false_ne_true]
      cases (t.map Event.kept).findIdx? (!·.isWellFormed) with
      | none => rfl
      | some i =>
        rw [Option.map_some]
        dsimp only
        rw [Nat.add_assoc, Nat.add_comm 1 i]
        rfl

namespace Transcript

/-- The table of a transcript with events is read row by row. -/
theorem decode_write {t : Transcript} (hne : t ≠ []) :
    Text.Csv.decode (write t) = headerRecord :: t.map (·.toRecord) := by
  have hwrite : write t = Text.Csv.encode (headerRecord :: t.map (·.toRecord)) := by
    rw [write, if_neg (by simpa using hne)]
    rfl
  rw [hwrite]
  refine Text.Csv.decode_encode (List.forall_mem_cons.2 ⟨?_, ?_⟩) rfl
  · exact ⟨List.cons_ne_nil _ _, fun heq => nomatch congrArg List.length heq⟩
  · intro record hrecord
    obtain ⟨e, -, rfl⟩ := List.mem_map.1 hrecord
    exact ⟨List.cons_ne_nil _ _, fun heq => nomatch congrArg List.length heq⟩

/-- A written transcript is read as what a table keeps of it, if every event has what its kind needs
then; otherwise the reading stops at the first that lacks it. -/
theorem read_write {t : Transcript} (h : ∀ e ∈ t, e.HasWords) :
    read (write t) =
      match (t.map Event.kept).findIdx? (!·.isWellFormed) with
      | some i => .error (.malformedEvent i)
      | none => .ok (t.map Event.kept) := by
  by_cases hne : t = []
  · subst hne
    rfl
  · rw [read, decode_write hne]
    simpa using eventsOfRecords_toRecord h 0

end Transcript

/-! ## What is read from any table -/

/-- An event that was read has words for its numbers, and no text without characters. -/
structure Event.IsReadable (e : Event) : Prop extends e.HasWords where
  /-- A text has characters. -/
  data : e.data ≠ some ""

namespace Event

/-- A press is readable if the player is a word and something was pressed. -/
theorem isReadable_press {seat : Nat} {data : String} (hseat : seat < wordLimit)
    (hdata : data ≠ "") : (press seat data).IsReadable where
  player n hn := by
    cases hn
    exact hseat
  millis := nofun
  data heq := hdata (Option.some.inj heq)

/-- A wait is always readable, as it is cut to a word. -/
theorem isReadable_wait (time : Nat) : (wait time).IsReadable where
  player := nofun
  millis n hn := by
    cases hn
    exact Nat.mod_lt _ (by decide)
  data := nofun

end Event

/-- The number of a field that may be missing is a word. -/
theorem lt_of_numberOfField? {s : Option String} {m : Option Nat}
    (h : (s.map numberOfField?).getD (some none) = some m) : ∀ n, m = some n → n < wordLimit := by
  intro n hm
  cases s with
  | none =>
    cases h
    cases hm
  | some s => exact numberOfField?_lt h hm

/-- A text that was read has characters. -/
theorem textOfField_ne_empty (s : String) : textOfField s ≠ some "" := by
  intro h
  unfold textOfField at h
  split at h
  next => cases h
  next hne => exact hne (by rw [Option.some.inj h]; rfl)

/-- An event that the fields of a row give is readable. -/
theorem isReadable_of_eventOfFields? {columns : List (Option Column)} {fields : List String}
    {e : Event} (h : eventOfFields? columns fields = some e) : e.IsReadable := by
  unfold eventOfFields? at h
  split at h
  next => cases h
  next =>
    obtain ⟨kind, -, h⟩ := Option.bind_eq_some_iff.1 h
    obtain ⟨player, hplayer, h⟩ := Option.bind_eq_some_iff.1 h
    obtain ⟨millis, hmillis, h⟩ := Option.bind_eq_some_iff.1 h
    cases h
    refine ⟨⟨lt_of_numberOfField? hplayer, lt_of_numberOfField? hmillis⟩, fun hdata => ?_⟩
    obtain ⟨s, -, hs⟩ := Option.bind_eq_some_iff.1 hdata
    exact textOfField_ne_empty s hs

/-- So is the event of a row. -/
theorem isReadable_of_eventOfRecord? {header record : Record} {e : Event}
    (h : eventOfRecord? header record = some e) : e.IsReadable := by
  unfold eventOfRecord? at h
  by_cases hlength : record.length ≠ header.length
  · rw [if_pos hlength] at h
    cases h
  · rw [if_neg hlength] at h
    obtain ⟨fields, -, h⟩ := Option.bind_eq_some_iff.1 h
    dsimp only at h
    split at h
    next => cases h
    next => exact isReadable_of_eventOfFields? h

/-- The events of some rows are readable and have what their kinds need. -/
theorem isReadable_of_eventsOfRecords {header : Record} {rows : List Record} {row : Nat}
    {t : Transcript} (h : eventsOfRecords header row rows = .ok t) :
    ∀ e ∈ t, e.isWellFormed = true ∧ e.IsReadable := by
  induction rows generalizing row t with
  | nil =>
    cases h
    exact List.forall_mem_nil _
  | cons record rows ih =>
    unfold eventsOfRecords at h
    split at h
    next => cases h
    next e he =>
      split at h
      next hformed =>
        cases hrest : eventsOfRecords header (row + 1) rows with
        | error reason =>
          rw [hrest] at h
          cases h
        | ok rest =>
          rw [hrest] at h
          cases h
          exact List.forall_mem_cons.2 ⟨⟨hformed, isReadable_of_eventOfRecord? he⟩, ih hrest⟩
      next => cases h

namespace Transcript

variable {t : Transcript} {bytes : List UInt8}

/-- The events of a table are readable and have what their kinds need. -/
theorem isReadable_of_read (h : read bytes = .ok t) :
    ∀ e ∈ t, e.isWellFormed = true ∧ e.IsReadable := by
  unfold read at h
  split at h
  next =>
    cases h
    exact List.forall_mem_nil _
  next => exact isReadable_of_eventsOfRecords h

/-- A transcript is read as it was written if each event has what its kind needs, and no text is
without characters. -/
theorem read_write_of_isReadable (h : ∀ e ∈ t, e.isWellFormed = true ∧ e.IsReadable) :
    read (write t) = .ok t := by
  have hkept : t.map Event.kept = t :=
    (List.map_congr_left fun e he => Event.kept_eq_self.2 (h e he).2.data).trans (List.map_id t)
  have hnone : t.findIdx? (!·.isWellFormed) = none := by
    rw [List.findIdx?_eq_none_iff]
    exact fun e he => by rw [(h e he).1, Bool.not_true]
  rw [read_write fun e he => (h e he).2.toHasWords, hkept, hnone]

/-- Only such a transcript is read as it was written. -/
theorem of_read_write (h : read (write t) = .ok t) :
    ∀ e ∈ t, e.isWellFormed = true ∧ e.data ≠ some "" :=
  fun e he => (isReadable_of_read h e he).imp_right (·.data)

/-! ## The result -/

/-- Written and read again, a transcript comes back but for texts without characters, which are
gone, unless an event lacks what its kind needs then: the first such event is refused by its number.
So a transcript comes back as it was exactly if no event lacks anything and no text is without
characters. Whatever can be read at all comes back as it was once it is written. -/
theorem written_and_read (t : Transcript) (h : ∀ e ∈ t, e.HasWords) :
    read (write t) = (match (t.map Event.kept).findIdx? (!·.isWellFormed) with
      | some i => .error (.malformedEvent i)
      | none => .ok (t.map Event.kept)) ∧
    (read (write t) = .ok t ↔ ∀ e ∈ t, e.isWellFormed = true ∧ e.data ≠ some "") ∧
    ∀ bytes t', read bytes = .ok t' → read (write t') = .ok t' := by
  refine ⟨read_write h, ⟨of_read_write, fun hformed => ?_⟩, fun bytes t' hread => ?_⟩
  · refine read_write_of_isReadable fun e he => ⟨(hformed e he).1, ?_⟩
    exact { h e he with data := (hformed e he).2 }
  · exact read_write_of_isReadable (isReadable_of_read hread)

/-- A press with commas, quotes, line ends and letters beyond ASCII comes back, and so does a wait.
After them a press without characters is refused, as it comes back without a text. -/
theorem written_and_read_emptied :
    read (write [.press 5 "steal:1, \"x\"\r\n☠", .wait 60000000000,
      ⟨.press, some 1, some "", none⟩]) = .error (.malformedEvent 2) ∧
    read (write [.press 5 "steal:1, \"x\"\r\n☠", .wait 60000000000])
      = .ok [.press 5 "steal:1, \"x\"\r\n☠", .wait 60000000000] := by
  have hpress : (Event.press 5 "steal:1, \"x\"\r\n☠").IsReadable :=
    Event.isReadable_press (by decide) (by decide)
  have hwait := Event.isReadable_wait 60000000000
  have hempty : Event.HasWords ⟨.press, some 1, some "", none⟩ :=
    ⟨fun n hn => by cases hn; decide, nofun⟩
  constructor
  · refine (written_and_read _ ?_).1
    simpa using ⟨hpress.toHasWords, hwait.toHasWords, hempty⟩
  · refine (written_and_read _ ?_).2.1.2 ?_
    · simpa using ⟨hpress.toHasWords, hwait.toHasWords⟩
    · simpa using ⟨⟨rfl, hpress.data⟩, rfl, hwait.data⟩

end Transcript

end CoupTable
