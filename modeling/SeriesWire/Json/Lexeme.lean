import SeriesWire.Json.Numeral

/-! The lexical elements of JSON texts.
A text is read character by character; numbers and escapes are kept as written, so that whoever
ignores a value need not understand it.
-/

namespace SeriesWire.Json

/-- A part of a string: a character that stands for itself, or an escaped UTF-16 unit. -/
inductive Letter where
  | plain (c : Char)
  | escaped (unit : Nat)
  deriving DecidableEq, Repr

namespace Letter

def isHigh (unit : Nat) : Bool :=
  0xD800 ≤ unit ∧ unit < 0xDC00

def isLow (unit : Nat) : Bool :=
  0xDC00 ≤ unit ∧ unit < 0xE000

/-- The characters of a string. An escaped high surrogate needs an escaped low one behind it, and
no low one stands alone. -/
def decode? : List Letter → Option (List Char)
  | [] => some []
  | .plain c :: rest => (decode? rest).map (c :: ·)
  | .escaped high :: .escaped low :: rest =>
    if isHigh high then
      if isLow low then
        let scalar := 0x10000 + (high - 0xD800) * 0x400 + (low - 0xDC00)
        (decode? rest).map (Char.ofNat scalar :: ·)
      else none
    else if isLow high then none
    else (decode? (.escaped low :: rest)).map (Char.ofNat high :: ·)
  | .escaped unit :: rest =>
    if isHigh unit || isLow unit then none else (decode? rest).map (Char.ofNat unit :: ·)

end Letter

inductive Lexeme where
  | openObject
  | closeObject
  | openArray
  | closeArray
  | comma
  | colon
  | null
  | bool (value : Bool)
  | number (value : Numeral)
  | string (letters : List Letter)
  deriving DecidableEq, Repr

/-- What the characters since the last complete element belong to, the latest first. -/
inductive LexMode where
  | between
  | word (chars : List Char)
  | number (chars : List Char)
  | string (letters : List Letter)
  | escape (letters : List Letter)
  | unicode (letters : List Letter) (missing : Nat) (value : Nat)

/-- The complete elements, the latest first, and the one that is being read. -/
structure Lexing where
  read : List Lexeme
  mode : LexMode

namespace Lexing

def start : Lexing :=
  ⟨[], .between⟩

def push (lexing : Lexing) (lexeme : Lexeme) : Lexing :=
  ⟨lexeme :: lexing.read, .between⟩

def wordLexeme? (word : String) : Option Lexeme :=
  match word with
  | "null" => some .null
  | "true" => some (.bool true)
  | "false" => some (.bool false)
  | _ => none

/-- Ends a word or a number. A string ends only at its quote. -/
def settle (lexing : Lexing) : Option Lexing :=
  match lexing.mode with
  | .between => some lexing
  | .word chars => (wordLexeme? (String.ofList chars.reverse)).map lexing.push
  | .number chars => (Numeral.ofChars? chars.reverse).map fun n => lexing.push (.number n)
  | _ => none

def isSpace (c : Char) : Bool :=
  c = ' ' || c = '\n' || c = '\r' || c = '\t'

def isNumberChar (c : Char) : Bool :=
  c.isDigit || c = '-' || c = '+' || c = '.' || c = 'e' || c = 'E'

/-- A character between elements. -/
def begin (lexing : Lexing) (c : Char) : Option Lexing :=
  if isSpace c then some lexing
  else if c = '\x7b' then some (lexing.push .openObject)
  else if c = '\x7d' then some (lexing.push .closeObject)
  else if c = '[' then some (lexing.push .openArray)
  else if c = ']' then some (lexing.push .closeArray)
  else if c = ',' then some (lexing.push .comma)
  else if c = ':' then some (lexing.push .colon)
  else if c = '"' then some { lexing with mode := .string [] }
  else if c.isDigit || c = '-' then some { lexing with mode := .number [c] }
  else if c.isLower then some { lexing with mode := .word [c] }
  else none

/-- The unit that a one-character escape stands for. -/
def shortEscape? (c : Char) : Option Nat :=
  if c = '"' || c = '\\' || c = '/' then some c.toNat
  else if c = 'b' then some 8
  else if c = 'f' then some 12
  else if c = 'n' then some 10
  else if c = 'r' then some 13
  else if c = 't' then some 9
  else none

def hexValue? (c : Char) : Option Nat :=
  if c.isDigit then some (c.toNat - '0'.toNat)
  else if 'a' ≤ c ∧ c ≤ 'f' then some (c.toNat - 'a'.toNat + 10)
  else if 'A' ≤ c ∧ c ≤ 'F' then some (c.toNat - 'A'.toNat + 10)
  else none

def step (lexing : Lexing) (c : Char) : Option Lexing :=
  match lexing.mode with
  | .between => lexing.begin c
  | .word chars =>
    if c.isLower then some { lexing with mode := .word (c :: chars) }
    else lexing.settle.bind (·.begin c)
  | .number chars =>
    if isNumberChar c then some { lexing with mode := .number (c :: chars) }
    else lexing.settle.bind (·.begin c)
  | .string letters =>
    if c = '"' then some (lexing.push (.string letters.reverse))
    else if c = '\\' then some { lexing with mode := .escape letters }
    else if c.toNat < 32 then none
    else some { lexing with mode := .string (.plain c :: letters) }
  | .escape letters =>
    if c = 'u' then some { lexing with mode := .unicode letters 3 0 }
    else (shortEscape? c).map fun unit => { lexing with mode := .string (.escaped unit :: letters) }
  | .unicode letters missing value =>
    (hexValue? c).map fun digit =>
      let value := value * 16 + digit
      match missing with
      | 0 => { lexing with mode := .string (.escaped value :: letters) }
      | missing + 1 => { lexing with mode := .unicode letters missing value }

end Lexing

/-- The lexical elements of a text, in order. -/
def lexemes? (text : String) : Option (List Lexeme) := do
  let lexing ← text.toList.foldlM Lexing.step Lexing.start
  return (← lexing.settle).read.reverse

end SeriesWire.Json
