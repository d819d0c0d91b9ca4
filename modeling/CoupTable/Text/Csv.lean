/-!
# Comma-separated tables

A table is a list of records, a record a list of fields. Fields are bytes; whether they are text is
for the reader of the table to say. A field may stand between quotes, and must where it holds a
comma, a quote or a line end; a quote inside quotes is doubled.

The reader takes every input. A quote counts only at the beginning of a field, what follows a
closing quote is appended to the field, quotes that are never closed run to the end of the input,
and empty lines are no records.
-/

namespace CoupTable.Text.Csv

/-- The bytes of a field. -/
abbrev Field := List UInt8

/-- The fields of one line. -/
abbrev Record := List Field

/-- The byte that separates fields. -/
def comma : UInt8 := 0x2C

/-- The byte that quotes fields. -/
def quote : UInt8 := 0x22

/-- Whether the byte ends a line. -/
def isLineEnd (b : UInt8) : Bool := b == 0x0A || b == 0x0D

/-! ## Writing -/

/-- Whether a field has to be quoted. -/
def needsQuotes (f : Field) : Bool := f.any fun b => b == comma || b == quote || isLineEnd b

/-- A field as it is written. -/
def encodeField (f : Field) : List UInt8 :=
  if needsQuotes f then
    quote :: f.flatMap (fun b => if b == quote then [quote, quote] else [b]) ++ [quote]
  else f

/-- A record as it is written, with its line end. -/
def encodeRecord (r : Record) : List UInt8 :=
  List.intercalate [comma] (r.map encodeField) ++ [0x0A]

/-- A table as it is written. -/
def encode (rows : List Record) : List UInt8 := rows.flatMap encodeRecord

/-! ## Reading -/

/-- Where a reader stands. -/
inductive Place where
  /-- Before a record. -/
  | recordStart
  /-- Before a field. -/
  | fieldStart
  /-- In a field, outside quotes. -/
  | plain
  /-- In a field, between quotes. -/
  | quoted
  /-- Behind a quote between quotes: the end of them, or the first of two. -/
  | quoteSeen
deriving DecidableEq, Repr

/-- A reader: where it stands and what it has read, the newest first. -/
structure Reader where
  /-- Where the reader stands. -/
  place : Place := .recordStart
  /-- The bytes of the field that it is in. -/
  field : List UInt8 := []
  /-- The fields of the record that it is in. -/
  fields : List Field := []
  /-- The records behind it. -/
  records : List Record := []
deriving DecidableEq, Repr

namespace Reader

/-- Adds a byte to the field. -/
def take (r : Reader) (place : Place) (b : UInt8) : Reader :=
  { r with place, field := b :: r.field }

/-- Ends the field. -/
def endField (r : Reader) : Reader :=
  { r with place := .fieldStart, field := [], fields := r.field.reverse :: r.fields }

/-- Ends the field and the record. -/
def endRecord (r : Reader) : Reader :=
  { records := (r.field.reverse :: r.fields).reverse :: r.records }

/-- Reads a byte outside quotes that is no quote, or one that counts for itself. -/
def readPlain (r : Reader) (b : UInt8) : Reader :=
  if b == comma then r.endField
  else if isLineEnd b then r.endRecord
  else r.take .plain b

/-- Reads a byte at the beginning of a field. -/
def readFirst (r : Reader) (b : UInt8) : Reader :=
  if b == quote then { r with place := .quoted } else r.readPlain b

/-- Reads a byte. -/
def read (r : Reader) (b : UInt8) : Reader :=
  match r.place with
  | .recordStart => if isLineEnd b then r else r.readFirst b
  | .fieldStart => r.readFirst b
  | .plain => r.readPlain b
  | .quoted => if b == quote then { r with place := .quoteSeen } else r.take .quoted b
  | .quoteSeen => if b == quote then r.take .quoted b else r.readPlain b

/-- Ends the reading. -/
def finish (r : Reader) : List Record :=
  match r.place with
  | .recordStart => r.records.reverse
  | _ => r.endRecord.records.reverse

end Reader

/-- The bytes without the mark that some programs put in front of UTF-8 text. -/
def dropMark : List UInt8 → List UInt8
  | 0xEF :: 0xBB :: 0xBF :: rest => rest
  | bytes => bytes

/-- The records of a table. -/
def decode (bytes : List UInt8) : List Record :=
  ((dropMark bytes).foldl Reader.read {}).finish

end CoupTable.Text.Csv
