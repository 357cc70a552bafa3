/-!
# Shortest decimals of binary numbers

A binary64 number stands for every real number that rounds to it.  Among the decimals in that
interval this module finds one with the fewest digits, and of those the nearest to the number
itself.  The search looks at coarser and coarser decimal grids in exact natural-number arithmetic:
if any point of a grid lies in the interval, so does one of the two grid points next to the number.

A decimal is then written out by position, or with one digit in front of the point and an exponent.
-/

namespace SubstLisp

/-- The number `coefficient * 10 ^ exponent`. -/
structure Decimal where
  coefficient : Nat
  exponent : Int
deriving DecidableEq, Inhabited

/-- The reals that round to one binary number, in multiples of `1 / scale`. -/
structure RoundingInterval where
  low : Nat
  centre : Nat
  high : Nat
  scale : Nat
  /-- Whether the two ends themselves round to the centre. -/
  closed : Bool
deriving DecidableEq

namespace RoundingInterval

/-- The reals that round to `mantissa * 2 ^ exponent` in binary64.  Numbers next to it lie one unit
of the last place away, except that below a power of two they lie twice as close, unless the power
is the least one with a full mantissa.  Ends go to the number with the even mantissa. -/
def ofBinary (mantissa : Nat) (exponent : Int) : RoundingInterval :=
  let quarter := Nat.pow 2 (exponent - 2).toNat
  let below := if mantissa = Nat.pow 2 52 ∧ -1074 < exponent then 1 else 2
  { low := (4 * mantissa - below) * quarter
    centre := 4 * mantissa * quarter
    high := (4 * mantissa + 2) * quarter
    scale := Nat.pow 2 (2 - exponent).toNat
    closed := mantissa % 2 = 0 }

/-- Whether `numerator / denominator` lies in the interval. -/
def contains (interval : RoundingInterval) (numerator denominator : Nat) : Bool :=
  let point := numerator * interval.scale
  let low := interval.low * denominator
  let high := interval.high * denominator
  if interval.closed then low ≤ point && point ≤ high else low < point && point < high

/-- The multiple of `10 ^ exponent` that lies in the interval and is nearest to its centre, if there
is one.  Of two that are equally near it is the greater. -/
def nearestOnGrid? (interval : RoundingInterval) (exponent : Int) : Option Decimal :=
  let unit := Nat.pow 10 exponent.toNat
  let denominator := Nat.pow 10 (-exponent).toNat
  let centre := interval.centre * denominator
  let step := unit * interval.scale
  let lower := centre / step
  let upper := lower + 1
  match interval.contains (lower * unit) denominator,
      interval.contains (upper * unit) denominator with
  | true, true =>
      some ⟨if centre - lower * step < upper * step - centre then lower else upper, exponent⟩
  | true, false => some ⟨lower, exponent⟩
  | false, true => some ⟨upper, exponent⟩
  | false, false => none

end RoundingInterval

namespace Decimal

def exactly (mantissa : Nat) (exponent : Int) : Decimal :=
  if 0 ≤ exponent then ⟨mantissa * Nat.pow 2 exponent.toNat, 0⟩
  else ⟨mantissa * Nat.pow 5 (-exponent).toNat, exponent⟩

/-- An exponent whose power of ten exceeds every power of two up to `2 ^ bits`. -/
def exponentAbove (bits : Int) : Int :=
  bits * 30103 / 100000 + 1

/-- The decimal with the fewest digits among those that round to `mantissa * 2 ^ exponent`, for a
positive mantissa in binary64.  Twenty-five grids suffice, since seventeen digits tell any two
numbers apart. -/
def shortest (mantissa : Nat) (exponent : Int) : Decimal :=
  let interval := RoundingInterval.ofBinary mantissa exponent
  let top := exponentAbove (mantissa.log2 + 1 + exponent)
  ((List.range 25).findSome? fun (finer : Nat) => interval.nearestOnGrid? (top - finer)).getD
    (exactly mantissa exponent)

/-- The digits of the coefficient, without leading zeros. -/
def digits (decimal : Decimal) : List Char :=
  Nat.toDigits 10 decimal.coefficient

def zeros (count : Nat) : List Char :=
  List.replicate count '0'

/-- A decimal written out by position: no exponent, and a point only before a fractional digit. -/
def positional (decimal : Decimal) : String :=
  let whole := decimal.digits.length + decimal.exponent
  if 0 ≤ decimal.exponent then
    String.ofList (decimal.digits ++ zeros decimal.exponent.toNat)
  else if 0 < whole then
    String.ofList (decimal.digits.take whole.toNat ++ '.' :: decimal.digits.drop whole.toNat)
  else
    String.ofList ('0' :: '.' :: zeros (-whole).toNat ++ decimal.digits)

/-- A decimal with one digit before the point, followed by `e` and the exponent that takes. -/
def scientific (decimal : Decimal) : String :=
  let exponent := decimal.digits.length - 1 + decimal.exponent
  let fraction := decimal.digits.drop 1
  String.ofList (decimal.digits.take 1) ++
    (if fraction.isEmpty then "" else String.ofList ('.' :: fraction)) ++
    "e" ++ toString exponent

end Decimal

end SubstLisp
