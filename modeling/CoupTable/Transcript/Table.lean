import CoupTable.Refusal
import CoupTable.Text.Csv
import CoupTable.Text.Utf8
import CoupTable.Transcript.Event

/-!
# Transcripts as tables

A transcript is kept as a comma-separated table with a header and one row for each event.

## Main definitions

* `Transcript.write`: the table of a transcript.
* `Transcript.read`: the transcript of a table, or the first row that is none.
-/

namespace CoupTable

open Text (decode? encode word? hexWord? dropPlus)
open Text.Csv (Field Record)

/-- The columns of a transcript. -/
inductive Column where
  /-- What happened. -/
  | kind
  /-- Who pressed. -/
  | player
  /-- What was pressed. -/
  | data
  /-- How long was waited. -/
  | millis
deriving DecidableEq, Repr

namespace Column

/-- Every column, in the order in which they are written. -/
def all : List Column := [.kind, .player, .data, .millis]

/-- The name of the column in the header. -/
def name : Column → String
  | kind => "kind"
  | player => "player"
  | data => "data"
  | millis => "millis"

/-- The column of that name. -/
def ofName? (s : String) : Option Column := all.find? (·.name == s)

end Column

/-- The name of a kind of event. -/
def Event.Kind.name : Event.Kind → String
  | press => "press"
  | wait => "wait"

/-! ## Writing -/

/-- The field of a number that may be missing. -/
def numberField (n : Option Nat) : Field := encode ((n.map toString).getD "")

/-- The row of an event. -/
def Event.toRecord (e : Event) : Record :=
  [encode e.kind.name, numberField e.player, encode (e.data.getD ""), numberField e.millis]

/-- The table of a transcript; without events there is not even a header. -/
def Transcript.write (t : Transcript) : List UInt8 :=
  if t.isEmpty then []
  else Text.Csv.encode ((Column.all.map fun c => encode c.name) :: t.map (·.toRecord))

/-! ## Reading -/

/-- The number in a field: decimal, or hexadecimal behind `0x`. -/
def fieldWord? (cs : List Char) : Option Nat :=
  match cs with
  | '0' :: 'x' :: digits => hexWord? (dropPlus digits)
  | digits => word? (dropPlus digits)

/-- The number in a field, which may be empty, or `none` where there is something else. -/
def numberOfField? (s : String) : Option (Option Nat) :=
  if s.isEmpty then some none else (fieldWord? s.toList).map some

/-- The text in a field, where there is any. -/
def textOfField (s : String) : Option String := if s.isEmpty then none else some s

/-- The kind in a field. -/
def kindOfField? (s : String) : Option Event.Kind :=
  [Event.Kind.press, Event.Kind.wait].find? (·.name == s)

/-- What a header says about each field of a row. A header that is no text names nothing, and the
fields then go by their places. -/
def columnsOfHeader (header : Record) : List (Option Column) × Bool :=
  match header.mapM decode? with
  | some names => (names.map Column.ofName?, true)
  | none => (Column.all.map some, false)

/-- The fields of a column in a row. -/
def fieldsOf (columns : List (Option Column)) (fields : List String) (c : Column) : List String :=
  ((columns.zip fields).filter (·.1 == some c)).map (·.2)

/-- The event of a row of text. A column may not come twice, and `kind` may not be missing. -/
def eventOfFields? (columns : List (Option Column)) (fields : List String) : Option Event := do
  if Column.all.any fun c => (fieldsOf columns fields c).length > 1 then none
  let field (c : Column) := (fieldsOf columns fields c).head?
  let kind ← (field .kind).bind kindOfField?
  let player ← ((field .player).map numberOfField?).getD (some none)
  let millis ← ((field .millis).map numberOfField?).getD (some none)
  return { kind, player, data := (field .data).bind textOfField, millis }

/-- The event of a row, which must have as many fields as the header. -/
def eventOfRecord? (header : Record) (r : Record) : Option Event := do
  if r.length ≠ header.length then none
  let fields ← r.mapM decode?
  let (columns, named) := columnsOfHeader header
  if !named && fields.length < columns.length then none
  eventOfFields? columns fields

/-- The events of the rows from number `row` on. -/
def eventsOfRecords (header : Record) : Nat → List Record → Except Refusal Transcript
  | _, [] => .ok []
  | row, r :: rows =>
    match eventOfRecord? header r with
    | none => .error .table
    | some e =>
      if e.isWellFormed then do
        let rest ← eventsOfRecords header (row + 1) rows
        return e :: rest
      else .error (.malformedEvent row)

/-- The transcript of a table, or what is wrong with its first bad row. -/
def Transcript.read (bytes : List UInt8) : Except Refusal Transcript :=
  match Text.Csv.decode bytes with
  | [] => .ok []
  | header :: rows => eventsOfRecords header 0 rows

end CoupTable
