namespace LinearProgram

/-!
# The shortest decimal of a binary number

A binary floating point number stands for all real numbers that round to it,
an interval around its own value whose ends belong to it exactly when its
significand is even.  Its shortest decimal is the decimal with the fewest
digits in this interval.  Among several of them it is the nearest one, and the
larger of two that are equally near.

The search runs over the decimal grids from coarse to fine.  If a grid has a
point in the interval, one of the two neighbours of the value on the grid lies
there, so no other point needs a test.  All comparisons are between natural
numbers.
-/

namespace Decimal

/-- A positive binary number `significand * 2 ^ exponent` together with the
distance to its lower neighbour. -/
structure BinaryNumber where
  significand : Nat
  exponent : Int
  /-- Whether the lower neighbour is half as far away as the upper one. -/
  narrowBelow : Bool
  deriving DecidableEq, Repr

/-- The number with the given bits, without its sign.  The bits must be those
of a finite number. -/
def BinaryNumber.ofBits (bits : UInt64) : BinaryNumber :=
  let field := ((bits >>> 52) &&& 0x7ff).toNat
  let fraction := (bits &&& 0xfffffffffffff).toNat
  if field = 0 then ⟨fraction, -1074, false⟩
  else ⟨Nat.pow 2 52 + fraction, (field : Int) - 1075, fraction = 0 && field ≠ 1⟩

/-- A decimal number `digits * 10 ^ exponent`. -/
structure DecimalNumber where
  digits : Nat
  exponent : Int
  deriving DecidableEq, Repr

/-- The number of decimal digits of a natural number. -/
def countDigits (value : Nat) : Nat :=
  (Nat.toDigits 10 value).length

/-- The places of a number around a decimal grid, all in the same unit, which
is a common fraction of a quarter of the last binary place and of the step of
the grid. -/
structure Ruler where
  /-- Where the interval of the number begins. -/
  low : Nat
  /-- Where the number itself lies. -/
  value : Nat
  /-- Where the interval of the number ends. -/
  high : Nat
  /-- Whether the ends belong to the interval. -/
  closed : Bool
  /-- The step of the grid. -/
  step : Nat

/-- The places of a binary number around the multiples of a power of ten. -/
def BinaryNumber.ruler (number : BinaryNumber) (power : Int) : Ruler :=
  let quarter := number.exponent - 2
  let unit := Nat.pow 2 quarter.toNat * Nat.pow 10 (-power).toNat
  let center := 4 * number.significand
  { low := (center - if number.narrowBelow then 1 else 2) * unit
    value := center * unit
    high := (center + 2) * unit
    closed := number.significand % 2 = 0
    step := Nat.pow 10 power.toNat * Nat.pow 2 (-quarter).toNat }

/-- Whether a multiple of the step lies in the interval. -/
def Ruler.holds (ruler : Ruler) (multiple : Nat) : Bool :=
  let place := multiple * ruler.step
  if ruler.closed then ruler.low ≤ place && place ≤ ruler.high
  else ruler.low < place && place < ruler.high

/-- The multiple of the step in the interval that is nearest to the value, the
larger one of two that are equally near. -/
def Ruler.nearest? (ruler : Ruler) : Option Nat :=
  let below := ruler.value / ruler.step
  let above := below + 1
  match ruler.holds below, ruler.holds above with
  | true, true => if 2 * ruler.value < (below + above) * ruler.step then some below else some above
  | true, false => some below
  | false, true => some above
  | false, false => none

/-- The number of digits before the decimal point, or minus the number of
zeros that follow it directly. -/
def BinaryNumber.magnitude (number : BinaryNumber) : Int :=
  let numerator := number.significand * Nat.pow 2 number.exponent.toNat
  let denominator := Nat.pow 2 (-number.exponent).toNat
  if denominator ≤ numerator then countDigits (numerator / denominator)
  else
    let zeros := countDigits (denominator / numerator) - 1
    if denominator ≤ numerator * Nat.pow 10 zeros then 1 - (zeros : Int) else -(zeros : Int)

/-- The same decimal number without zeros at the end of its digits. -/
def DecimalNumber.stripped : Nat → DecimalNumber → DecimalNumber
  | 0, number => number
  | steps + 1, number =>
    if number.digits % 10 = 0 then stripped steps ⟨number.digits / 10, number.exponent + 1⟩
    else number

/-- The decimal with exactly the value of a binary number. -/
def BinaryNumber.exact (number : BinaryNumber) : DecimalNumber :=
  if 0 ≤ number.exponent then ⟨number.significand * Nat.pow 2 number.exponent.toNat, 0⟩
  else ⟨number.significand * Nat.pow 5 (-number.exponent).toNat, number.exponent⟩

/-- The nearest decimal in the interval on the first of the grids that has one
there.  Seventeen digits always suffice; the exact decimal ends the search in
any case. -/
def BinaryNumber.shortest (number : BinaryNumber) : DecimalNumber :=
  let magnitude := number.magnitude
  let found := (List.range 17).findSome? fun (more : Nat) =>
    let power := magnitude - 1 - (more : Int)
    (number.ruler power).nearest?.map fun multiple => DecimalNumber.mk multiple power
  let decimal := found.getD number.exact
  decimal.stripped (countDigits decimal.digits)

end Decimal

end LinearProgram
