/-! Doubles are kept as their 64 bits and computed with in exact natural arithmetic.
A finite double is a signed significand times a power of two, and every operation rounds its
exact result once, to the nearest double with ties to the even significand.
-/

namespace SeriesWire

/-- A double in the binary interchange format. -/
structure Binary64 where
  bits : UInt64
  deriving DecidableEq, Repr

namespace Binary64

/-- The weight of the sign bit, the highest of 64. -/
abbrev signBit : Nat :=
  0x8000000000000000

/-- The weight of the leading significand bit, which a normal double leaves out. The exponent
field begins there. -/
abbrev leadingBit : Nat :=
  0x10000000000000

def isNegative (x : Binary64) : Bool :=
  signBit ≤ x.bits.toNat

def exponentField (x : Binary64) : Nat :=
  x.bits.toNat / leadingBit % 2048

def fraction (x : Binary64) : Nat :=
  x.bits.toNat % leadingBit

def isFinite (x : Binary64) : Bool :=
  x.exponentField != 2047

def isNaN (x : Binary64) : Bool :=
  x.exponentField == 2047 && x.fraction != 0

/-- The integer significand, with the leading bit of a normal double. -/
def significand (x : Binary64) : Nat :=
  if x.exponentField = 0 then x.fraction else leadingBit + x.fraction

/-- The power of two that a unit of the significand is worth. -/
def unitExponent (x : Binary64) : Int :=
  (max 1 x.exponentField : Nat) - 1075

/-- The nearest integer to `num / den`; a half goes to the even neighbour. -/
def nearestEven (num den : Nat) : Nat :=
  let low := num / den
  match compare (2 * (num % den)) den with
  | .lt => low
  | .gt => low + 1
  | .eq => low + low % 2

/-- The power of two that a unit of the significand is worth for a double near `num / den`:
the quotient is one to two leading bits of units, or the unit is the smallest one. -/
def unitFor (num den : Nat) : Int :=
  -- The quotient lies between one and four leading bits of units of `2 ^ guess`.
  let guess : Int := (num.log2 : Int) - den.log2 - 53
  let fits : Bool := num <<< (-guess).toNat < 2 * leadingBit * (den <<< guess.toNat)
  max (-1074) (if fits then guess else guess + 1)

/-- The double nearest to `num / den` with the given sign, or nothing when the quotient rounds
past the largest finite one. The significand's carry moves into the exponent by itself, because
the fields are adjacent. -/
def ofQuotient? (negative : Bool) (num den : Nat) : Option Binary64 :=
  let magnitude :=
    if num = 0 then 0
    else
      let unit := unitFor num den
      (unit + 1074).toNat * leadingBit
        + nearestEven (num <<< (-unit).toNat) (den <<< unit.toNat)
  if magnitude < 2047 * leadingBit then
    some ⟨UInt64.ofNat (magnitude + if negative then signBit else 0)⟩
  else none

/-- Two to the power `e` as a quotient of natural numbers. -/
def powerOfTwo (e : Int) : Nat × Nat :=
  (1 <<< e.toNat, 1 <<< (-e).toNat)

/-- The rounded product of two finite doubles. -/
def mul? (x y : Binary64) : Option Binary64 :=
  let scale := powerOfTwo (x.unitExponent + y.unitExponent)
  ofQuotient? (x.isNegative != y.isNegative) (x.significand * y.significand * scale.1) scale.2

/-- The rounded quotient of two finite doubles; the divisor is not zero. -/
def div? (x y : Binary64) : Option Binary64 :=
  let scale := powerOfTwo (x.unitExponent - y.unitExponent)
  ofQuotient? (x.isNegative != y.isNegative) (x.significand * scale.1) (y.significand * scale.2)

def zero : Binary64 :=
  ⟨0⟩

/-- The double with the other sign. -/
def neg (x : Binary64) : Binary64 :=
  ⟨x.bits ^^^ 0x8000000000000000⟩

/-- The double nearest to an integer of at most 64 bits. -/
def ofInt (n : Int) : Binary64 :=
  (ofQuotient? (n < 0) n.natAbs 1).getD zero

end Binary64

end SeriesWire
