import UtxoLedger.Number.Binary64
import UtxoLedger.Number.Digits

/-!
# Shortest decimal text

The text of a floating point number has the fewest significant digits that
read back as the same number, and of those the nearest to it. Numbers from
`1e-5` up to `1e16` are written out; others have an exponent with its sign.
-/

namespace UtxoLedger.Number

namespace Magnitude

/-- The number, and the ends of the interval of reals that round to it, as multiples of a
quarter of its last place. -/
structure Interval where
  low : Nat
  middle : Nat
  high : Nat
  /-- Whether the ends belong to the interval. -/
  closed : Bool

def interval (number : Magnitude) : Interval :=
  let atPower := number.mantissa = Nat.pow 2 52 && leastExponent < number.exponent
  { low := 4 * number.mantissa - (if atPower then 1 else 2)
    middle := 4 * number.mantissa
    high := 4 * number.mantissa + 2
    closed := number.mantissa % 2 = 0 }

/-- A decimal number: significant digits and the power of ten of the last one. -/
structure Decimal where
  significand : Nat
  exponent : Int

/-- The factors that bring decimal units and quarters of the last place to one scale. -/
def scales (number : Magnitude) (exponent : Int) : Nat × Nat :=
  let binary := number.exponent - 2
  ((if 0 ≤ exponent then Nat.pow 10 exponent.toNat else 1) *
      (if binary < 0 then Nat.pow 2 (-binary).toNat else 1),
    (if exponent < 0 then Nat.pow 10 (-exponent).toNat else 1) *
      (if 0 ≤ binary then Nat.pow 2 binary.toNat else 1))

/-- The decimal number with the given last power of ten that reads back as the number, the
nearer one of two, the even one of a tie. -/
def onGrid? (number : Magnitude) (exponent : Int) : Option Decimal :=
  let (unit, quarter) := number.scales exponent
  let range := number.interval
  let value := range.middle * quarter
  let inside (candidate : Nat) : Bool :=
    let point := candidate * unit
    if range.closed then range.low * quarter ≤ point && point ≤ range.high * quarter
    else range.low * quarter < point && point < range.high * quarter
  let below := value / unit
  let above := below + 1
  let underBelow := value - below * unit
  let overAbove := above * unit - value
  let belowIsNearer :=
    underBelow < overAbove || (underBelow = overAbove && below % 2 = 0)
  if inside below && (belowIsNearer || !inside above) then some ⟨below, exponent⟩
  else if inside above then some ⟨above, exponent⟩
  else none

/-- The power of ten of the first significant digit of a positive number. -/
def decimalExponent (number : Magnitude) : Int :=
  let (top, bottom) := number.toRatio
  if bottom ≤ top then (digits 10 (top / bottom)).length - 1
  else
    let places := (digits 10 (bottom / top)).length
    if bottom ≤ top * Nat.pow 10 (places - 1) then 1 - (places : Int) else -(places : Int)

/-- Tries one significant digit more at a time; seventeen always suffice. -/
def shortestFrom (number : Magnitude) (first : Int) : (fuel count : Nat) → Decimal
  | 0, _ => ⟨0, 0⟩
  | fuel + 1, count =>
      match number.onGrid? (first + 1 - (count : Int)) with
      | some decimal => decimal
      | none => shortestFrom number first fuel (count + 1)

/-- The shortest decimal number that reads back as the number, zero aside. -/
def shortest (number : Magnitude) : Decimal :=
  number.shortestFrom number.decimalExponent 18 1

/-- The text of the significant digits with a point and an exponent where needed. -/
def Decimal.text (decimal : Decimal) : String :=
  let all := (digits 10 decimal.significand).map fun digit => Char.ofNat (48 + digit)
  let written := (all.reverse.dropWhile (· = '0')).reverse
  let point : Int := all.length + decimal.exponent
  let zeros (count : Int) := List.replicate count.toNat '0'
  if -5 < point && point ≤ 0 then
    String.ofList ("0.".toList ++ zeros (-point) ++ written)
  else if 0 < point && point ≤ 16 then
    if written.length ≤ point.toNat then
      String.ofList (written ++ zeros (point - written.length) ++ ".0".toList)
    else
      String.ofList (written.take point.toNat ++ '.' :: written.drop point.toNat)
  else
    let fraction := match written.drop 1 with
      | [] => []
      | rest => '.' :: rest
    let power := point - 1
    let sign := if power < 0 then "e-" else "e+"
    String.ofList (written.take 1 ++ fraction) ++ sign ++ toString power.natAbs

end Magnitude

/-- The shortest text that reads back as the number. -/
def Binary64.text (number : Binary64) : String :=
  (if number.isNegative then "-" else "") ++
    (if number.magnitude.mantissa = 0 then "0.0" else number.magnitude.shortest.text)

end UtxoLedger.Number
