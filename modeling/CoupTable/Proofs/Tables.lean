import CoupTable.Text.Csv

/-!
# Tables are read as they were written

A reader takes in what was written field by field: behind a field as it is written it holds the
bytes of the field, whatever they are, and a comma or a line end then ends the field
(`readAll_encodeField`). From the fields of a line it puts the record together, and from the lines
the table. The only records that do not come back are those that are written as an empty line,
which have no field, or one without bytes.
-/

namespace CoupTable.Text.Csv

variable {r : Reader} {f : Field} {fs : List Field} {record : Record} {rows : List Record}
  {bytes : List UInt8} {b : UInt8}

/-- A byte as it is written between quotes. -/
def escape (b : UInt8) : List UInt8 := if b == quote then [quote, quote] else [b]

namespace Reader

/-- Reads some bytes. -/
def readAll (r : Reader) (bytes : List UInt8) : Reader := bytes.foldl read r

/-- Some bytes are read one after the other. -/
theorem readAll_cons (r : Reader) (b : UInt8) (bytes : List UInt8) :
    r.readAll (b :: bytes) = (r.read b).readAll bytes := rfl

/-- Some bytes are read after others. -/
theorem readAll_append (r : Reader) (xs ys : List UInt8) :
    r.readAll (xs ++ ys) = (r.readAll xs).readAll ys :=
  List.foldl_append

/-- The reader stands before a field. -/
def IsBefore (r : Reader) : Prop :=
  (r.place = .recordStart ∨ r.place = .fieldStart) ∧ r.field = []

/-- The reader stands where a comma or a line end ends a field. It may stand before one, which is
empty then, but a line end before a record would be an empty line. -/
def IsBehind (r : Reader) (b : UInt8) : Prop :=
  r.place = .fieldStart ∨ r.place = .plain ∨ r.place = .quoteSeen ∨
    r.place = .recordStart ∧ isLineEnd b = false

/-! ## Fields -/

/-- Between quotes, escaped bytes are read as they were. -/
theorem readAll_escape (hplace : r.place = .quoted) (f : Field) :
    r.readAll (f.flatMap escape) = { r with field := f.reverse ++ r.field } := by
  induction f generalizing r with
  | nil => rfl
  | cons b f ih =>
    have hb : r.readAll (escape b) = r.take .quoted b := by
      unfold escape
      by_cases hquote : b = quote
      · subst hquote
        simp [readAll, read, hplace, take]
      · simp [readAll, read, hplace, hquote]
    rw [List.flatMap_cons, readAll_append, hb, ih rfl, take, ← hplace]
    simp

/-- Bytes that need no quotes are read as they are. -/
theorem readAll_plain (hplace : r.place = .plain) (hplain : needsQuotes f = false) :
    r.readAll f = { r with field := f.reverse ++ r.field } := by
  induction f generalizing r with
  | nil => rfl
  | cons b f ih =>
    simp only [needsQuotes, List.any_cons, Bool.or_eq_false_iff] at hplain
    obtain ⟨⟨⟨hcomma, -⟩, hend⟩, hrest⟩ := hplain
    have hb : r.read b = r.take .plain b := by
      simp only [read, hplace, readPlain, hcomma, hend, Bool.false_eq_true, if_false]
    rw [readAll_cons, hb, ih rfl hrest, take, ← hplace]
    simp

/-- Behind a field as it is written, the reader holds the field. -/
theorem readAll_encodeField (h : r.IsBefore) (f : Field) (hb : f = [] → r.IsBehind b) :
    ∃ place, r.readAll (encodeField f) = { r with place, field := f.reverse } ∧
      IsBehind { r with place, field := f.reverse } b := by
  obtain ⟨hplace, hfield⟩ := h
  have hfirst : ∀ b, isLineEnd b = false → r.read b = r.readFirst b := fun b hb => by
    rcases hplace with hplace | hplace
    · simp [read, hplace, hb]
    · simp [read, hplace]
  unfold encodeField
  split
  next =>
    -- The quotes are opened, and behind the field there is one that may close them.
    have hopen : r.read quote = { r with place := .quoted } := by
      rw [hfirst quote (by decide), readFirst, beq_self_eq_true, if_pos rfl]
    refine ⟨.quoteSeen, ?_, .inr (.inr (.inl rfl))⟩
    rw [List.cons_append, readAll_cons, hopen, readAll_append]
    change (readAll _ (f.flatMap escape)).readAll [quote] = _
    rw [readAll_escape rfl, hfield, List.append_nil]
    rfl
  next hplain =>
    rw [Bool.not_eq_true] at hplain
    cases f with
    | nil =>
      have hsame : { r with field := [] } = r := by rw [← hfield]
      exact ⟨r.place, hsame.symm, by rw [List.reverse_nil, hsame]; exact hb rfl⟩
    | cons b f =>
      have hplain' := hplain
      simp only [needsQuotes, List.any_cons, Bool.or_eq_false_iff] at hplain
      obtain ⟨⟨⟨hcomma, hquote⟩, hend⟩, hrest⟩ := hplain
      have hb : r.read b = r.take .plain b := by
        rw [hfirst b hend]
        simp only [readFirst, readPlain, hquote, hcomma, hend, Bool.false_eq_true, if_false]
      refine ⟨.plain, ?_, .inr (.inl rfl)⟩
      rw [readAll_cons, hb, readAll_plain rfl hrest, take, hfield]
      simp

/-- A comma behind a field ends it. -/
theorem read_comma (h : r.IsBehind comma) : r.read comma = r.endField := by
  rcases h with h | h | h | ⟨h, -⟩ <;> simp [read, h, readFirst, readPlain, comma, quote, isLineEnd]

/-- A line end behind a field ends the record. -/
theorem read_lineEnd (h : r.IsBehind 0x0A) : r.read 0x0A = r.endRecord := by
  rcases h with h | h | h | ⟨h, hend⟩
  · simp [read, h, readFirst, readPlain, comma, quote, isLineEnd]
  · simp [read, h, readPlain, comma, isLineEnd]
  · simp [read, h, readPlain, comma, quote, isLineEnd]
  · cases hend

/-! ## Records -/

/-- The fields of a line are read as they were, up to the end of the line. -/
theorem readAll_fields (h : r.IsBefore) (hb : f = [] → fs = [] → r.IsBehind 0x0A) :
    r.readAll (List.intercalate [comma] ((f :: fs).map encodeField) ++ [0x0A])
      = { records := (r.fields.reverse ++ f :: fs) :: r.records } := by
  induction fs generalizing r f with
  | nil =>
    obtain ⟨place, hread, hbehind⟩ := readAll_encodeField (b := 0x0A) h f fun hf => hb hf rfl
    have hone : List.intercalate [comma] ([f].map encodeField) = encodeField f := by
      simp [List.intercalate]
    rw [hone, readAll_append, hread, readAll_cons, read_lineEnd hbehind]
    simp [endRecord, readAll]
  | cons f' fs ih =>
    have hcomma : f = [] → r.IsBehind comma := fun _ =>
      h.1.elim (fun hplace => .inr (.inr (.inr ⟨hplace, rfl⟩))) .inl
    obtain ⟨place, hread, hbehind⟩ := readAll_encodeField h f hcomma
    have hmore : List.intercalate [comma] ((f :: f' :: fs).map encodeField)
        = encodeField f ++ comma :: List.intercalate [comma] ((f' :: fs).map encodeField) := by
      simp [List.intercalate]
    rw [hmore, List.append_assoc, List.cons_append, readAll_append, hread, readAll_cons,
      read_comma hbehind, ih ⟨.inr rfl, rfl⟩ fun _ _ => .inl rfl]
    simp [endField]

end Reader

/-- The record is not written as an empty line. -/
def IsShown (record : Record) : Prop := record ≠ [] ∧ record ≠ [[]]

/-- A record is read as it was. -/
theorem readAll_encodeRecord (h : IsShown record) (records : List Record) :
    Reader.readAll { records } (encodeRecord record) = { records := record :: records } := by
  cases record with
  | nil => exact absurd rfl h.1
  | cons f fs =>
    refine Reader.readAll_fields ⟨.inl rfl, rfl⟩ fun hf hfs => ?_
    subst hf hfs
    exact absurd rfl h.2

/-! ## Tables -/

/-- The records of a table are read as they were. -/
theorem readAll_encode (h : ∀ record ∈ rows, IsShown record) (records : List Record) :
    Reader.readAll { records } (encode rows) = { records := rows.reverse ++ records } := by
  induction rows generalizing records with
  | nil => rfl
  | cons record rows ih =>
    obtain ⟨hrecord, hrows⟩ := List.forall_mem_cons.1 h
    have hmore : encode (record :: rows) = encodeRecord record ++ encode rows := rfl
    rw [hmore, Reader.readAll_append, readAll_encodeRecord hrecord, ih hrows, List.reverse_cons,
      List.append_assoc]
    rfl

/-- A table is read as it was written, if it does not begin with the mark that is dropped, and none
of its records is written as an empty line. -/
theorem decode_encode (h : ∀ record ∈ rows, IsShown record)
    (hmark : dropMark (encode rows) = encode rows) : decode (encode rows) = rows := by
  rw [decode, hmark]
  change (Reader.readAll { records := [] } (encode rows)).finish = rows
  rw [readAll_encode h, Reader.finish, List.append_nil, List.reverse_reverse]

end CoupTable.Text.Csv
