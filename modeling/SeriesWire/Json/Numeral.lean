import SeriesWire.Number.Binary64

/-! JSON numbers as written, and the values they stand for.
Integers that fit 64 bits stay exact. Any other number keeps the leading digits that fit 64 bits and
is scaled by a power of ten in one or two rounded steps.
-/

namespace SeriesWire.Json

/-- The digits of a number as written. -/
structure Numeral where
  negative : Bool
  whole : List Nat
  fraction : Option (List Nat)
  /-- The sign of the exponent, negative when true, and its digits. -/
  exponent : Option (Bool × List Nat)
  deriving DecidableEq, Repr

/-- What a number stands for. -/
inductive Quantity where
  | int (value : Int)
  | double (value : Binary64)
  deriving DecidableEq, Repr

namespace Numeral

def digitValue (c : Char) : Nat :=
  c.toNat - '0'.toNat

/-- The leading digits of a text and what follows them. -/
def digits (cs : List Char) : List Nat × List Char :=
  ((cs.takeWhile Char.isDigit).map digitValue, cs.dropWhile Char.isDigit)

/-- An exponent without its letter: a sign if any and at least one digit. -/
def exponentOf? (cs : List Char) : Option (Bool × List Nat) :=
  let negative := cs.head? == some '-'
  let signed := negative || cs.head? == some '+'
  let (ds, rest) := digits (if signed then cs.drop 1 else cs)
  if ds.isEmpty || !rest.isEmpty then none else some (negative, ds)

/-- The number written by exactly these characters: no leading zeros, and digits on both sides of a
point. -/
def ofChars? (cs : List Char) : Option Numeral := do
  let negative := cs.head? == some '-'
  let (whole, rest) := digits (if negative then cs.drop 1 else cs)
  if whole.isEmpty || (whole.head? == some 0 && 1 < whole.length) then none
  let (fraction, rest) ← match rest with
    | '.' :: rest =>
      let (ds, rest) := digits rest
      if ds.isEmpty then none else some (some ds, rest)
    | rest => some (none, rest)
  match rest with
  | [] => return { negative, whole, fraction, exponent := none }
  | c :: rest =>
    if c = 'e' || c = 'E' then
      return { negative, whole, fraction, exponent := some (← exponentOf? rest) }
    else none

/-- Digits read so far as a significand below `2 ^ 64` and a power of ten; once a digit does not
fit, no later one is looked at. -/
structure Leading where
  significand : Nat
  exponent : Int
  full : Bool

/-- A digit before the point: one that does not fit still multiplies by ten. -/
def Leading.wholeDigit (r : Leading) (digit : Nat) : Leading :=
  if r.full || UInt64.size ≤ r.significand * 10 + digit then
    { r with exponent := r.exponent + 1, full := true }
  else { r with significand := r.significand * 10 + digit }

/-- A digit behind the point: one that does not fit is dropped. -/
def Leading.fractionDigit (r : Leading) (digit : Nat) : Leading :=
  if r.full || UInt64.size ≤ r.significand * 10 + digit then { r with full := true }
  else { r with significand := r.significand * 10 + digit, exponent := r.exponent - 1 }

def digitsValue (ds : List Nat) : Nat :=
  ds.foldl (fun n d => n * 10 + d) 0

/-- The double nearest to a power of ten up to `10 ^ 308`. -/
def powerOfTen (exponent : Nat) : Binary64 :=
  (Binary64.ofQuotient? false (Nat.pow 10 exponent) 1).getD .zero

/-- `x * 10 ^ exponent` for a double of at most twenty digits before the point, by one rounded
multiplication or at most two rounded divisions; nothing when it overflows. Below `10 ^ -616`
nothing is left of it. -/
def scale? (x : Binary64) (exponent : Int) : Option Binary64 :=
  if 308 < exponent then if x.significand = 0 then some x else none
  else if 0 ≤ exponent then x.mul? (powerOfTen exponent.toNat)
  else if -308 ≤ exponent then x.div? (powerOfTen (-exponent).toNat)
  else if exponent < -616 then some .zero
  else (x.div? (powerOfTen 308)).bind fun y => y.div? (powerOfTen (-exponent - 308).toNat)

/-- The value of a number, or nothing when it overflows. Minus zero is a double. -/
def quantity? (n : Numeral) : Option Quantity :=
  let whole := n.whole.foldl Leading.wholeDigit ⟨0, 0, false⟩
  let signed (x : Binary64) : Quantity := .double (if n.negative then x.neg else x)
  if n.fraction.isNone && n.exponent.isNone && !whole.full then
    if !n.negative then some (.int whole.significand)
    else if whole.significand = 0 || -Int64.minValue.toInt < whole.significand then
      some (signed (.ofInt whole.significand))
    else some (.int (-whole.significand))
  else
    -- A digit behind the point may fit where one before it did not.
    let all := (n.fraction.getD []).foldl Leading.fractionDigit { whole with full := false }
    let exponent : Int := match n.exponent with
      | none => 0
      | some (negative, ds) => if negative then -(digitsValue ds : Int) else digitsValue ds
    (scale? (.ofInt all.significand) (all.exponent + exponent)).map signed

end Numeral

end SeriesWire.Json
