import CoupTable.Text.Json.Token

/-!
# JSON values

A JSON text holds one value. Objects keep their members in order and with repetitions; what a
repeated key means is for the reader of the object to say. Values may be nested to any depth: the
open objects and arrays lie on a stack.
-/

namespace CoupTable.Text

/-- A JSON value. -/
inductive Json where
  /-- The value `null`. -/
  | null
  /-- A truth value. -/
  | bool (b : Bool)
  /-- A number, known only if it is written as a plain word. -/
  | number (word : Option Nat)
  /-- A string, known only if it is text. -/
  | string (text : Option String)
  /-- An array. -/
  | array (items : List Json)
  /-- An object. Keys are strings, known only if they are text. -/
  | object (members : List (Option String × Json))

namespace Json

/-- An object or array that is being read, with what it holds so far, the newest first. -/
inductive Open where
  /-- An array. -/
  | array (items : List Json)
  /-- An object, with the key whose value is due. -/
  | object (members : List (Option String × Json)) (key : Option String)

/-- What may come next. -/
inductive Due where
  /-- A value. -/
  | value
  /-- A value, or the end of an array that has none yet. -/
  | firstItem
  /-- A key. -/
  | key
  /-- A key, or the end of an object that has none yet. -/
  | firstKey
  /-- The colon behind a key. -/
  | colon
  /-- What may stand behind a value. -/
  | afterValue
deriving DecidableEq, Repr

/-- A reader: the objects and arrays that it is in, the innermost first, what may come next, and
the value once it is read. -/
structure Builder where
  /-- The open objects and arrays. -/
  opened : List Open := []
  /-- What may come next. -/
  due : Due := .value
  /-- The value of the whole text. -/
  result : Option Json := .none

namespace Builder

/-- Takes in a finished value. -/
def add (s : Builder) (v : Json) : Builder :=
  match s.opened with
  | [] => { s with due := .afterValue, result := some v }
  | .array items :: rest => { s with opened := .array (v :: items) :: rest, due := .afterValue }
  | .object members key :: rest =>
    { s with opened := .object ((key, v) :: members) key :: rest, due := .afterValue }

/-- Begins an object or array. -/
def enter (s : Builder) (o : Open) (due : Due) : Builder :=
  { s with opened := o :: s.opened, due }

/-- Ends the innermost object or array. -/
def leave? (s : Builder) (isObject : Bool) : Option Builder :=
  match s.opened, isObject with
  | .array items :: rest, false => some ({ s with opened := rest }.add (.array items.reverse))
  | .object members _ :: rest, true =>
    some ({ s with opened := rest }.add (.object members.reverse))
  | _, _ => none

/-- Takes in the first token of a value. -/
def readValue? (s : Builder) (t : Token) : Option Builder :=
  match t with
  | .null => some (s.add .null)
  | .bool b => some (s.add (.bool b))
  | .number word => some (s.add (.number word))
  | .string text => some (s.add (.string text))
  | .bracket true => some (s.enter (.array []) .firstItem)
  | .brace true => some (s.enter (.object [] none) .firstKey)
  | _ => none

/-- Takes in a key. -/
def readKey? (s : Builder) (t : Token) : Option Builder :=
  match s.opened, t with
  | .object members _ :: rest, .string key =>
    some { s with opened := .object members key :: rest, due := .colon }
  | _, _ => none

/-- Takes in the comma behind a value. -/
def readComma? (s : Builder) : Option Builder :=
  match s.opened with
  | .array _ :: _ => some { s with due := .value }
  | .object _ _ :: _ => some { s with due := .key }
  | [] => none

/-- Takes in a token. -/
def read? (s : Builder) (t : Token) : Option Builder :=
  match s.due, t with
  | .firstItem, .bracket false => s.leave? false
  | .firstKey, .brace false => s.leave? true
  | .value, _ | .firstItem, _ => s.readValue? t
  | .key, _ | .firstKey, _ => s.readKey? t
  | .colon, .colon => some { s with due := .value }
  | .colon, _ => none
  | .afterValue, .bracket false => s.leave? false
  | .afterValue, .brace false => s.leave? true
  | .afterValue, .comma => s.readComma?
  | .afterValue, _ => none

end Builder

/-- The value of a text, if it is JSON. -/
def parse? (bytes : List UInt8) : Option Json := do
  let tokens ← tokens? bytes
  let s ← tokens.foldlM Builder.read? {}
  if s.opened.isEmpty then s.result else none

/-! ## Reading values -/

/-- The number, if it is a word. -/
def word? : Json → Option Nat
  | number word => word
  | _ => none

/-- The items of an array. -/
def items? : Json → Option (List Json)
  | array items => some items
  | _ => none

/-- Reads a value that may be `null`. -/
def nullable? {α : Type} (read : Json → Option α) : Json → Option (Option α)
  | null => some none
  | v => (read v).map some

/-- The name that stands for a constant: a string, or an object whose only key has the value
`null`. -/
def constant? : Json → Option String
  | string name => name
  | object [(name, null)] => name
  | _ => none

end Json

end CoupTable.Text
