import SeriesWire.Number.Binary64

/-! The shortest decimal that reads back as a given double.
The reals that round to a double form an interval; the coarsest decimal grid with a point in it
gives the digits, and of two points the nearer one is taken.
-/

namespace SeriesWire

/-- The number `digits * 10 ^ exponent`. -/
structure Decimal where
  digits : Nat
  exponent : Int
  deriving DecidableEq, Repr

namespace Decimal

/-- The number of decimal digits of a natural number; zero has one. -/
def width (n : Nat) : Nat :=
  (Nat.toDigits 10 n).length

/-- The largest power of ten not above the positive quotient `num / den`. -/
def floorLog (num den : Nat) : Int :=
  if den ≤ num then (width (num / den) : Int) - 1
  else
    let places := width (den / num)
    if den = num * Nat.pow 10 (places - 1) then 1 - (places : Int) else -(places : Int)

/-- The same number with trailing zeros of `digits` moved into the exponent, at most `places` of
them. -/
def trim : (places : Nat) → Decimal → Decimal
  | 0, d => d
  | places + 1, d =>
    if d.digits % 10 = 0 then trim places ⟨d.digits / 10, d.exponent + 1⟩ else d

/-- The reals that round to one positive double, in quarters of its unit: the double itself is
`middle` quarters, the interval runs from `low` to `high`, and it has its ends when `closed`. -/
structure Basin where
  low : Nat
  middle : Nat
  high : Nat
  closed : Bool
  /-- The power of two that a quarter unit is worth. -/
  quarter : Int

/-- Half a unit on both sides, but only a quarter below a power of two, where the doubles
underneath lie twice as dense. -/
def Basin.of (x : Binary64) : Basin :=
  let m := x.significand
  let dense := x.fraction = 0 ∧ 1 < x.exponentField
  { low := 4 * m - if dense then 1 else 2
    middle := 4 * m
    high := 4 * m + 2
    closed := m % 2 = 0
    quarter := x.unitExponent - 2 }

/-- The multiple of `10 ^ exponent` in the interval that is nearest to its middle, if there is
one; a tie goes to the even multiple. Both sides are scaled to natural numbers. -/
def Basin.nearestOn (b : Basin) (exponent : Int) : Option Decimal :=
  let step := Nat.pow 10 exponent.toNat <<< (-b.quarter).toNat
  let quarter := Nat.pow 10 (-exponent).toNat <<< b.quarter.toNat
  let inside (n : Nat) : Bool :=
    if b.closed then b.low * quarter ≤ n * step ∧ n * step ≤ b.high * quarter
    else b.low * quarter < n * step ∧ n * step < b.high * quarter
  -- If any multiple lies in the interval, so does one of the middle's two neighbours.
  let below := b.middle * quarter / step
  let rest := b.middle * quarter % step
  match inside below, inside (below + 1) with
  | false, false => none
  | true, false => some ⟨below, exponent⟩
  | false, true => some ⟨below + 1, exponent⟩
  | true, true =>
    match compare (2 * rest) step with
    | .lt => some ⟨below, exponent⟩
    | .gt => some ⟨below + 1, exponent⟩
    | .eq => some ⟨below + below % 2, exponent⟩

/-- The shortest decimal that reads back as the finite double `x` without its sign. Seventeen
digits always suffice. -/
def shortest (x : Binary64) : Decimal :=
  if x.significand = 0 then ⟨0, 0⟩
  else
    let b := Basin.of x
    let top := floorLog (b.middle <<< b.quarter.toNat) (1 <<< (-b.quarter).toNat)
    let found := (List.range 17).findSome? fun (i : Nat) => b.nearestOn (top - i)
    trim 17 (found.getD ⟨0, 0⟩)

end Decimal

end SeriesWire
