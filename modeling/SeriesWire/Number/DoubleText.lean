import SeriesWire.Number.Shortest

/-! How a finite double is laid out as text.
The digits come from `Decimal.shortest`; this module only places the point and the exponent.
-/

namespace SeriesWire

/-- Where a number's text changes from positional to scientific. -/
structure DoubleLayout where
  /-- The least decimal exponent that is written positionally. -/
  least : Int
  /-- The greatest decimal exponent that is written positionally. -/
  greatest : Int

/-- JSON numbers are positional from `0.00001` up to sixteen digits before the point. -/
def DoubleLayout.json : DoubleLayout :=
  { least := -5, greatest := 15 }

/-- The digits `ds` with the point after the digit of weight `10 ^ leading`, at least one digit on
both sides. -/
def positional (ds : List Char) (leading : Int) : List Char :=
  if leading < 0 then
    '0' :: '.' :: List.replicate (-leading - 1).toNat '0' ++ ds
  else
    let whole := leading.toNat + 1
    let rest := ds.drop whole
    (ds.take whole).rightpad whole '0' ++ '.' :: if rest.isEmpty then ['0'] else rest

/-- One digit before the point and a signed exponent when it is positive. -/
def scientific (ds : List Char) (leading : Int) : List Char :=
  let rest := ds.drop 1
  ds.take 1 ++ (if rest.isEmpty then [] else '.' :: rest)
    ++ 'e' :: (if leading < 0 then '-' else '+') :: Nat.toDigits 10 leading.natAbs

/-- The text of a finite double, a zero with its sign. -/
def DoubleLayout.text (layout : DoubleLayout) (x : Binary64) : String :=
  let d := Decimal.shortest x
  let ds := Nat.toDigits 10 d.digits
  let leading := d.exponent + ds.length - 1
  let body :=
    if layout.least ≤ leading ∧ leading ≤ layout.greatest then positional ds leading
    else scientific ds leading
  String.ofList (if x.isNegative then '-' :: body else body)

end SeriesWire
