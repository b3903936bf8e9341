import Ambient.Decimal.Binary64

/-!
# Shortest decimals

The decimal with the fewest digits that reads back as a given double, and of those the one nearest
to it.  The search runs over the grids `10 ^ e` from coarse to fine: if any point of a grid reads
back, one of the value's two neighbours on that grid does, so only these are tried.
-/

namespace Ambient.Binary64

/-- A positive decimal `digits · 10 ^ exponent`. -/
structure Decimal where
  digits : Nat
  exponent : Int
  deriving DecidableEq, Repr

/-- The value, and the bounds of the numbers that round to it, as numerators over one denominator.
`closed` says whether the bounds themselves round to the value. -/
structure Interval where
  low : Nat
  value : Nat
  high : Nat
  denominator : Nat
  closed : Bool

/-- The numbers that round to `significand · 2 ^ exponent`.  The gap below is half as wide where
the significand is the least of its exponent. -/
def interval (significand : Nat) (exponent : Int) : Interval :=
  let below := if significand == leastSignificand && minExponent < exponent then 1 else 2
  let factor : Nat × Nat :=
    match exponent with
    | .ofNat n => (twoTo n, 4)
    | .negSucc n => (1, 4 * twoTo (n + 1))
  { low := (4 * significand - below) * factor.1
    value := 4 * significand * factor.1
    high := (4 * significand + 2) * factor.1
    denominator := factor.2
    closed := significand % 2 == 0 }

/-- The grid point next to the value on the grid `10 ^ exponent`, if one reads back: the nearer of
the two neighbours, the upper one in a tie. -/
def gridPoint? (i : Interval) (exponent : Int) : Option Decimal :=
  let (unit, scale) : Nat × Nat :=
    match exponent with
    | .ofNat n => (i.denominator * tenTo n, 1)
    | .negSucc n => (i.denominator, tenTo (n + 1))
  let value := i.value * scale
  let lower := value / unit
  let upper := lower + 1
  let lowerReads : Bool := lower != 0 &&
    (if i.closed then decide (i.low * scale ≤ lower * unit)
     else decide (i.low * scale < lower * unit))
  let upperReads : Bool :=
    if i.closed then decide (upper * unit ≤ i.high * scale)
    else decide (upper * unit < i.high * scale)
  if lowerReads && (!upperReads || 2 * (value - lower * unit) < unit) then
    some ⟨lower, exponent⟩
  else if upperReads then some ⟨upper, exponent⟩
  else none

/-- Tries `steps` grids, each ten times finer than the one before. -/
def searchGrids (i : Interval) : Nat → Int → Decimal
  | 0, exponent => ⟨0, exponent⟩
  | steps + 1, exponent =>
    match gridPoint? i exponent with
    | some decimal => decimal
    | none => searchGrids i steps (exponent - 1)

/-- The shortest decimal that reads back as `significand · 2 ^ exponent`, the nearest of its length.
The first grid is coarser than the value, and seventeen digits always suffice. -/
def shortest (significand : Nat) (exponent : Int) : Decimal :=
  let i := interval significand exponent
  let first : Int :=
    (Nat.toDigits 10 i.high).length - (Nat.toDigits 10 i.denominator).length + 1
  searchGrids i 24 first

/-- A positive decimal in positional notation: zeros fill the places up to the point. -/
def Decimal.positional (d : Decimal) : String :=
  let digits := Nat.toDigits 10 d.digits
  match d.exponent with
  | .ofNat n => String.ofList (digits ++ List.replicate n '0')
  | .negSucc n =>
    let places := n + 1
    let padded := List.replicate (places + 1 - digits.length) '0' ++ digits
    let whole := padded.take (padded.length - places)
    String.ofList (whole ++ '.' :: padded.drop (padded.length - places))

/-- The text of a double: the shortest digits that read back, never an exponent, and no point in a
whole number. -/
def toText : Binary64 → String
  | .nan => "NaN"
  | .infinity negative => (if negative then "-" else "") ++ "inf"
  | .finite negative significand exponent =>
    (if negative then "-" else "") ++
      (if significand == 0 then "0" else (shortest significand exponent).positional)

end Ambient.Binary64
