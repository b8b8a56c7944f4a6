import UtxoLedger.Cbor.Codec
import UtxoLedger.Json.Reader
import UtxoLedger.Saturating

/-!
# Fractions and execution units

Prices and margins are fractions of two words. A fraction of an amount is
rounded down, and a fraction without denominator counts as zero.
-/

namespace UtxoLedger

/-- A fraction that is not negative. -/
structure Rational where
  numerator : UInt64
  denominator : UInt64
  deriving DecidableEq, Repr, Inhabited

namespace Rational

/-- The whole part of the fraction of an amount, at most the largest word. -/
def mulFloor (fraction : Rational) (amount : UInt64) : UInt64 :=
  UInt64.saturate (fraction.numerator.toNat * amount.toNat / fraction.denominator.toNat)

theorem mulFloor_mono (fraction : Rational) {first second : UInt64} (least : first ≤ second) :
    fraction.mulFloor first ≤ fraction.mulFloor second :=
  UInt64.saturate_mono
    (Nat.div_le_div_right (Nat.mul_le_mul_left _ (UInt64.le_iff_toNat_le.1 least)))

/-! ## In words of 128 bits -/

/-- The product of the numerator and an amount. -/
def product (fraction : Rational) (amount : UInt64) : BitVec 128 :=
  fraction.numerator.toBitVec.setWidth 128 * amount.toBitVec.setWidth 128

/-- The whole part of the fraction of an amount. A quotient that is too large for 64 bits becomes
the largest word. -/
def mulFloorInWords (fraction : Rational) (amount : UInt64) : UInt64 :=
  if fraction.denominator = 0 then 0
  else
    let quotient := fraction.product amount / fraction.denominator.toBitVec.setWidth 128
    if quotient.toNat < bound64 then .ofBitVec (quotient.setWidth 64) else .ofNat wordMax

theorem toNat_setWidth_word (word : UInt64) :
    (word.toBitVec.setWidth 128).toNat = word.toNat := by
  have small := word.toNat_lt
  rw [BitVec.toNat_setWidth, UInt64.toNat_toBitVec]
  omega

/-- The product of two words of 64 bits does not exceed one of 128 bits. -/
theorem toNat_product (fraction : Rational) (amount : UInt64) :
    (fraction.product amount).toNat = fraction.numerator.toNat * amount.toNat := by
  have most : fraction.numerator.toNat * amount.toNat < 2 ^ 64 * 2 ^ 64 :=
    Nat.mul_lt_mul'' fraction.numerator.toNat_lt amount.toNat_lt
  rw [product, BitVec.toNat_mul, toNat_setWidth_word, toNat_setWidth_word]
  exact Nat.mod_eq_of_lt most

theorem mulFloorInWords_eq (fraction : Rational) (amount : UInt64) :
    fraction.mulFloorInWords amount = fraction.mulFloor amount := by
  unfold mulFloorInWords mulFloor UInt64.saturate
  by_cases free : fraction.denominator = 0
  · rw [if_pos free, free, UInt64.toNat_zero, Nat.div_zero]
    rfl
  · have quotient : (fraction.product amount /
        fraction.denominator.toBitVec.setWidth 128).toNat =
        fraction.numerator.toNat * amount.toNat / fraction.denominator.toNat := by
      rw [BitVec.toNat_udiv, toNat_product, toNat_setWidth_word]
    rw [if_neg free]
    dsimp only
    rw [quotient]
    split
    next fits =>
      apply UInt64.toNat_inj.1
      rw [UInt64.toNat_ofBitVec, BitVec.toNat_setWidth, quotient]
      rfl
    next => rfl

/-! ## Wire and document form -/

/-- The tag of a fraction. -/
def formTag : UInt64 := 30

open Cbor in
instance : Codec Rational where
  encode fraction :=
    Encoder.tag formTag ++ Encoder.array 2 ++ encode fraction.numerator ++
      encode fraction.denominator
  decode := do
    let start ← Decoder.position
    let tag ← Decoder.tag
    if tag ≠ formTag then
      Decoder.failAt start
        (.rejected s!"expected tag 30 for rational number, found {tag}")
    else if (← Decoder.array) ≠ some 2 then
      Decoder.failAt start (.rejected "rational number must have 2 elements")
    else
      let numerator ← decode
      let denominator ← decode
      return ⟨numerator, denominator⟩

def toJson (fraction : Rational) : Json :=
  .object [("numerator", .ofWord fraction.numerator), ("denominator", .ofWord fraction.denominator)]

def jsonReader : Json.Reader Rational :=
  .record
    [⟨"numerator",
        fun fraction => (fun word => { fraction with numerator := word }) <$> .word, false⟩,
      ⟨"denominator",
        fun fraction => (fun word => { fraction with denominator := word }) <$> .word, false⟩]
    false default

end Rational

end UtxoLedger
