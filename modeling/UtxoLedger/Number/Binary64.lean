/-!
# Binary floating point numbers of 64 bits

A finite number of this format is a sign and `mantissa * 2 ^ exponent`, the
mantissa below `2 ^ 53`. Ratios are rounded to the nearest such number, a tie
going to the even mantissa, in exact integer arithmetic; a ratio past the
largest finite number has no rounding.
-/

namespace UtxoLedger.Number

/-- A finite number of the format, by absolute value. -/
structure Magnitude where
  mantissa : Nat
  exponent : Int
  deriving DecidableEq, Repr

/-- A finite number of the format. -/
structure Binary64 where
  isNegative : Bool
  magnitude : Magnitude
  deriving DecidableEq, Repr

namespace Magnitude

/-- The exponent of the smallest numbers. -/
def leastExponent : Int := -1074

/-- The exponent of the largest numbers. -/
def mostExponent : Int := 971

def zero : Magnitude := ⟨0, leastExponent⟩

/-- The quotient nearest to a ratio, a tie going to the even one. -/
def nearestQuotient (numerator denominator : Nat) : Nat :=
  let quotient := numerator / denominator
  let twice := 2 * (numerator % denominator)
  if denominator < twice || (twice = denominator && quotient % 2 = 1) then quotient + 1
  else quotient

/-- The greatest power of two, by exponent, that is at most a positive ratio. -/
def binaryExponent (numerator denominator : Nat) : Int :=
  let guess : Int := (numerator.log2 : Int) - denominator.log2
  let isAtLeast :=
    if 0 ≤ guess then denominator * Nat.pow 2 guess.toNat ≤ numerator
    else denominator ≤ numerator * Nat.pow 2 (-guess).toNat
  if isAtLeast then guess else guess - 1

/-- The number nearest to a ratio, unless that is past the largest one. -/
def ofRatio? (numerator denominator : Nat) : Option Magnitude :=
  if numerator = 0 then some zero
  else
    let exponent := max (binaryExponent numerator denominator - 52) leastExponent
    let mantissa :=
      if 0 ≤ exponent then nearestQuotient numerator (denominator * Nat.pow 2 exponent.toNat)
      else nearestQuotient (numerator * Nat.pow 2 (-exponent).toNat) denominator
    let rounded : Magnitude :=
      if mantissa = Nat.pow 2 53 then ⟨Nat.pow 2 52, exponent + 1⟩ else ⟨mantissa, exponent⟩
    if mostExponent < rounded.exponent then none else some rounded

def ofNat? (number : Nat) : Option Magnitude := ofRatio? number 1

/-- The number as an exact ratio. -/
def toRatio (number : Magnitude) : Nat × Nat :=
  if 0 ≤ number.exponent then (number.mantissa * Nat.pow 2 number.exponent.toNat, 1)
  else (number.mantissa, Nat.pow 2 (-number.exponent).toNat)

/-- The rounded product. -/
def mul? (first second : Magnitude) : Option Magnitude :=
  let (firstOver, firstUnder) := first.toRatio
  let (secondOver, secondUnder) := second.toRatio
  ofRatio? (firstOver * secondOver) (firstUnder * secondUnder)

/-- The rounded quotient by a number other than zero. -/
def div? (first second : Magnitude) : Option Magnitude :=
  let (firstOver, firstUnder) := first.toRatio
  let (secondOver, secondUnder) := second.toRatio
  ofRatio? (firstOver * secondUnder) (firstUnder * secondOver)

/-! ## Decimal numbers

A decimal number of at most 64 significant bits is rounded in steps: the
significant digits, then a product or quotient with a rounded power of ten.
-/

/-- The largest power of ten used in one step. -/
def powerLimit : Nat := 308

/-- Scales a number down by powers of ten, `powerLimit` of them at a time. -/
def scaleDown : (fuel exponent : Nat) → Magnitude → Option Magnitude
  | 0, _, _ => some zero
  | fuel + 1, exponent, number =>
      if exponent ≤ powerLimit then do number.div? (← ofNat? (Nat.pow 10 exponent))
      else if number.mantissa = 0 then some number
      else do
        let smaller ← number.div? (← ofNat? (Nat.pow 10 powerLimit))
        scaleDown fuel (exponent - powerLimit) smaller

/-- The number written by significant digits and a power of ten, unless it is past the
largest one. -/
def ofDecimal? (significand : Nat) (exponent : Int) : Option Magnitude := do
  let number ← ofNat? significand
  if 0 ≤ exponent then
    if exponent.toNat ≤ powerLimit then number.mul? (← ofNat? (Nat.pow 10 exponent.toNat))
    else if number.mantissa = 0 then some number
    else none
  else scaleDown 5 (-exponent).toNat number

end Magnitude

end UtxoLedger.Number
