import CoupTable.Text.Numeral
import CoupTable.Text.Utf8

/-!
# JSON tokens

The tokens of a JSON text, read byte by byte. White space is the four characters that JSON knows,
and nothing else may stand between tokens: no mark in front of the text, no comments.

Strings must not hold raw control characters or unknown escapes. Whether they are text at all is
left open here, since a value that nobody asks for may hold bytes that are no UTF-8, or half of a
surrogate pair: such a string is a token without a text.
-/

namespace CoupTable.Text.Json

/-- A token. -/
inductive Token where
  /-- An opening or closing brace. -/
  | brace (opens : Bool)
  /-- An opening or closing bracket. -/
  | bracket (opens : Bool)
  /-- A colon. -/
  | colon
  /-- A comma. -/
  | comma
  /-- The word `null`. -/
  | null
  /-- The words `true` and `false`. -/
  | bool (b : Bool)
  /-- A number, with its value if it is written as a plain word. -/
  | number (word : Option Nat)
  /-- A string, with its text if it has one. -/
  | string (text : Option String)
deriving DecidableEq, Repr

/-! ## Numbers -/

/-- How far into a number the lexer is. -/
inductive NumberPart where
  /-- Behind the sign. -/
  | sign
  /-- Behind a leading zero. -/
  | zero
  /-- Among the digits in front of the point. -/
  | whole
  /-- Behind the point. -/
  | point
  /-- Among the digits behind the point. -/
  | fraction
  /-- Behind the `e`. -/
  | exponentMark
  /-- Behind the sign of the exponent. -/
  | exponentSign
  /-- Among the digits of the exponent. -/
  | exponent
deriving DecidableEq, Repr

namespace NumberPart

/-- Whether a number may end here. -/
def isComplete : NumberPart → Bool
  | zero | whole | fraction | exponent => true
  | sign | point | exponentMark | exponentSign => false

/-- Where the character leads, if it goes on with the number. -/
def next? (part : NumberPart) (c : Char) : Option NumberPart :=
  let isMark := c == 'e' || c == 'E'
  match part with
  | sign => if c == '0' then some zero else if c.isDigit then some whole else none
  | zero => if c == '.' then some point else if isMark then some exponentMark else none
  | whole =>
    if c.isDigit then some whole
    else if c == '.' then some point
    else if isMark then some exponentMark
    else none
  | point => if c.isDigit then some fraction else none
  | fraction =>
    if c.isDigit then some fraction else if isMark then some exponentMark else none
  | exponentMark =>
    if c.isDigit then some exponent
    else if c == '+' || c == '-' then some exponentSign
    else none
  | exponentSign | exponent => if c.isDigit then some exponent else none

end NumberPart

/-! ## Strings -/

/-- A string that is being read. -/
structure Draft where
  /-- The bytes so far, the newest first. -/
  bytes : List UInt8 := []
  /-- The first half of a surrogate pair, while the second is due. -/
  high : Option Nat := none
  /-- Whether all surrogates so far came in pairs. -/
  paired : Bool := true
deriving DecidableEq, Repr

namespace Draft

/-- The draft without a second half that is due. -/
def unpair (d : Draft) : Draft := { d with high := none, paired := d.paired && d.high.isNone }

/-- Adds a byte. -/
def push (d : Draft) (b : UInt8) : Draft := { d.unpair with bytes := b :: d.unpair.bytes }

/-- Adds a character. -/
def pushChar (d : Draft) (code : Nat) : Draft :=
  { d with bytes := (encode (String.singleton (Char.ofNat code))).reverse ++ d.bytes }

/-- Adds the code unit of an escape. -/
def pushUnit (d : Draft) (unit : Nat) : Draft :=
  let isHigh := 0xD800 ≤ unit && unit < 0xDC00
  let isLow := 0xDC00 ≤ unit && unit < 0xE000
  match d.high with
  | some high =>
    if isLow then
      { d with high := none }.pushChar (0x10000 + (high - 0xD800) * 0x400 + (unit - 0xDC00))
    else if isHigh then { d with high := some unit, paired := false }
    else d.unpair.pushChar unit
  | none =>
    if isHigh then { d with high := some unit }
    else if isLow then { d with paired := false }
    else d.pushChar unit

/-- The text of the finished string, if it is one. -/
def text? (d : Draft) : Option String :=
  if d.unpair.paired then decode? d.bytes.reverse else none

end Draft

/-- How far into an escape the lexer is. -/
inductive Escape where
  /-- Not in an escape. -/
  | none
  /-- Behind the backslash. -/
  | opened
  /-- Behind some hexadecimal digits of a code unit, with their value. -/
  | unit (digits value : Nat)
deriving DecidableEq, Repr

/-- The byte of an escape of one letter. -/
def shortEscape? (c : Char) : Option UInt8 :=
  match c with
  | '"' => some 0x22
  | '\\' => some 0x5C
  | '/' => some 0x2F
  | 'b' => some 0x08
  | 'f' => some 0x0C
  | 'n' => some 0x0A
  | 'r' => some 0x0D
  | 't' => some 0x09
  | _ => .none

/-! ## The lexer -/

/-- What the lexer is in the middle of. -/
inductive Mode where
  /-- Between tokens. -/
  | between
  /-- In a word, with its letters so far, the newest first. -/
  | word (letters : List Char)
  /-- In a number, with its characters so far, the newest first. -/
  | number (part : NumberPart) (digits : List Char)
  /-- In a string. -/
  | string (draft : Draft) (escape : Escape)
deriving DecidableEq, Repr

/-- A lexer: what it is in the middle of, and the tokens behind it, the newest first. -/
structure Lexer where
  /-- What the lexer is in the middle of. -/
  mode : Mode := .between
  /-- The tokens so far. -/
  tokens : List Token := []
deriving DecidableEq, Repr

namespace Lexer

/-- Ends a token. -/
def emit (l : Lexer) (t : Token) : Lexer := { mode := .between, tokens := t :: l.tokens }

/-- Ends a word or a number, where one may end here. A string may not. -/
def close? (l : Lexer) : Option Lexer :=
  match l.mode with
  | .between => some l
  | .word letters =>
    match String.ofList letters.reverse with
    | "null" => some (l.emit .null)
    | "true" => some (l.emit (.bool true))
    | "false" => some (l.emit (.bool false))
    | _ => none
  | .number part digits =>
    if part.isComplete then some (l.emit (.number (word? digits.reverse))) else none
  | .string _ _ => none

/-- Begins a token. -/
def begin? (l : Lexer) (c : Char) : Option Lexer :=
  match c with
  | ' ' | '\t' | '\n' | '\r' => some l
  | '\x7b' => some (l.emit (.brace true))
  | '\x7d' => some (l.emit (.brace false))
  | '[' => some (l.emit (.bracket true))
  | ']' => some (l.emit (.bracket false))
  | ':' => some (l.emit .colon)
  | ',' => some (l.emit .comma)
  | '"' => some { l with mode := .string {} .none }
  | '-' => some { l with mode := .number .sign ['-'] }
  | _ =>
    if c.isLower then some { l with mode := .word [c] }
    else (NumberPart.sign.next? c).map fun part => { l with mode := .number part [c] }

/-- Reads a byte of a string. -/
def readString? (l : Lexer) (draft : Draft) (escape : Escape) (b : UInt8) : Option Lexer :=
  let c := Char.ofNat b.toNat
  match escape with
  | .none =>
    if c == '"' then some (l.emit (.string draft.text?))
    else if c == '\\' then some { l with mode := .string draft .opened }
    else if b < 0x20 then none
    else some { l with mode := .string (draft.push b) .none }
  | .opened =>
    if c == 'u' then some { l with mode := .string draft (.unit 0 0) }
    else (shortEscape? c).map fun byte => { l with mode := .string (draft.push byte) .none }
  | .unit digits value =>
    (hexDigit? c).map fun d =>
      let value := 16 * value + d
      if digits = 3 then { l with mode := .string (draft.pushUnit value) .none }
      else { l with mode := .string draft (.unit (digits + 1) value) }

/-- Reads a byte. -/
def read? (l : Lexer) (b : UInt8) : Option Lexer :=
  let c := Char.ofNat b.toNat
  match l.mode with
  | .between => l.begin? c
  | .word letters =>
    if c.isLower then some { l with mode := .word (c :: letters) }
    else l.close?.bind (·.begin? c)
  | .number part digits =>
    match part.next? c with
    | some part => some { l with mode := .number part (c :: digits) }
    | none => l.close?.bind (·.begin? c)
  | .string draft escape => l.readString? draft escape b

end Lexer

/-- The tokens of a text, if it consists of tokens. -/
def tokens? (bytes : List UInt8) : Option (List Token) := do
  let l ← bytes.foldlM Lexer.read? {}
  let l ← l.close?
  return l.tokens.reverse

end CoupTable.Text.Json
