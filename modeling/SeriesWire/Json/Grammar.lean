/-! The grammar of JSON texts, apart from whoever writes or reads them.
A text is a list of characters, and each predicate holds of the texts that one production derives.
Blanks are allowed wherever the standard allows them: around brackets, commas and colons.
-/

namespace SeriesWire.Json.Grammar

def Blank (text : List Char) : Prop :=
  ∀ c ∈ text, c = ' ' ∨ c = '\t' ∨ c = '\n' ∨ c = '\r'

-----------------------------------------------------------------------------------------
-- Numbers
-----------------------------------------------------------------------------------------

def Digits (text : List Char) : Prop :=
  text ≠ [] ∧ ∀ c ∈ text, c.isDigit

/-- The digits before the point. A zero in front stands alone. -/
inductive Whole : List Char → Prop
  | zero : Whole ['0']
  | led {first : Char} {rest : List Char} (digit : first.isDigit) (filled : first ≠ '0')
    (digits : ∀ c ∈ rest, c.isDigit)
    : Whole (first :: rest)

inductive Fraction : List Char → Prop
  | none : Fraction []
  | digits {text : List Char} (digits : Digits text) : Fraction ('.' :: text)

inductive Exponent : List Char → Prop
  | none : Exponent []
  | digits {letter : Char} {sign text : List Char} (letter_eq : letter = 'e' ∨ letter = 'E')
    (sign_eq : sign = [] ∨ sign = ['+'] ∨ sign = ['-']) (digits : Digits text)
    : Exponent (letter :: (sign ++ text))

inductive Number : List Char → Prop
  | of {sign whole fraction exponent : List Char} (sign_eq : sign = [] ∨ sign = ['-'])
    (before : Whole whole) (behind : Fraction fraction) (scale : Exponent exponent)
    : Number (sign ++ whole ++ fraction ++ exponent)

-----------------------------------------------------------------------------------------
-- Strings
-----------------------------------------------------------------------------------------

def isHex (c : Char) : Bool :=
  c.isDigit || ('a' ≤ c && c ≤ 'f') || ('A' ≤ c && c ≤ 'F')

/-- What may stand between quotes: quotes, backslashes and control characters only escaped. -/
inductive Characters : List Char → Prop
  | nil : Characters []
  | plain {c : Char} {rest : List Char} (printed : 32 ≤ c.toNat) (unquoted : c ≠ '"')
    (unescaped : c ≠ '\\') (more : Characters rest)
    : Characters (c :: rest)
  | escape {c : Char} {rest : List Char} (short : c ∈ ['"', '\\', '/', 'b', 'f', 'n', 'r', 't'])
    (more : Characters rest)
    : Characters ('\\' :: c :: rest)
  | unit {digits rest : List Char} (four : digits.length = 4) (hex : digits.all isHex)
    (more : Characters rest)
    : Characters ('\\' :: 'u' :: (digits ++ rest))

inductive Quoted : List Char → Prop
  | of {text : List Char} (characters : Characters text) : Quoted ('"' :: (text ++ ['"']))

-----------------------------------------------------------------------------------------
-- Values
-----------------------------------------------------------------------------------------

mutual

/-- One value, without blanks around it. -/
inductive Value : List Char → Prop
  | null : Value ['n', 'u', 'l', 'l']
  | true : Value ['t', 'r', 'u', 'e']
  | false : Value ['f', 'a', 'l', 's', 'e']
  | number {text : List Char} (number : Number text) : Value text
  | string {text : List Char} (quoted : Quoted text) : Value text
  | emptyArray {text : List Char} (blank : Blank text) : Value ('[' :: (text ++ [']']))
  | array {text : List Char} (elements : Elements text) : Value ('[' :: (text ++ [']']))
  | emptyObject {text : List Char} (blank : Blank text)
    : Value ('\x7b' :: (text ++ ['\x7d']))
  | object {text : List Char} (members : Members text)
    : Value ('\x7b' :: (text ++ ['\x7d']))

/-- A value with blanks around it; a whole text is one of these. -/
inductive Element : List Char → Prop
  | of {before text after : List Char} (left : Blank before) (value : Value text)
    (right : Blank after)
    : Element (before ++ text ++ after)

/-- Elements with a comma between every two, at least one. -/
inductive Elements : List Char → Prop
  | last {text : List Char} (element : Element text) : Elements text
  | cons {text rest : List Char} (element : Element text) (more : Elements rest)
    : Elements (text ++ ',' :: rest)

inductive Member : List Char → Prop
  | of {before name after text : List Char} (left : Blank before) (named : Quoted name)
    (right : Blank after) (element : Element text)
    : Member (before ++ name ++ after ++ ':' :: text)

/-- Members with a comma between every two, at least one. -/
inductive Members : List Char → Prop
  | last {text : List Char} (member : Member text) : Members text
  | cons {text rest : List Char} (member : Member text) (more : Members rest)
    : Members (text ++ ',' :: rest)

end

end SeriesWire.Json.Grammar
