import Mathlib.Algebra.Order.Floor.Semifield
import Mathlib.Data.Rat.Floor
import UtxoLedger.Fee

/-!
# The fee as a formula

Units cost the whole part of their number times a price. The costs are added
word by word, and each step stops at the largest word. What a step cuts off is
beyond the largest word already, so the fee is the exact sum, or the largest
word where that is less.
-/

namespace UtxoLedger

namespace Rational

/-- The fraction as a number; without a denominator it is zero. -/
def value (fraction : Rational) : ℚ := fraction.numerator.toNat / fraction.denominator.toNat

theorem floor_value_mul (fraction : Rational) (amount : UInt64) :
    ⌊fraction.value * amount.toNat⌋₊ =
      fraction.numerator.toNat * amount.toNat / fraction.denominator.toNat := by
  have joined : fraction.value * amount.toNat =
      ((fraction.numerator.toNat * amount.toNat : ℕ) : ℚ) / fraction.denominator.toNat := by
    rw [value, Nat.cast_mul, div_mul_eq_mul_div]
  rw [joined, Nat.floor_div_eq_div]

theorem toNat_mulFloor (fraction : Rational) (amount : UInt64) :
    (fraction.mulFloor amount).toNat = min ⌊fraction.value * amount.toNat⌋₊ wordMax := by
  rw [mulFloor, UInt64.toNat_saturate, floor_value_mul]

theorem mulFloor_of_free {fraction : Rational} (free : fraction.denominator = 0)
    (amount : UInt64) : fraction.mulFloor amount = 0 := by
  rw [mulFloor, free, UInt64.toNat_zero, Nat.div_zero]
  rfl

end Rational

namespace ProtocolParameters

variable (parameters : ProtocolParameters) (size steps memory : UInt64)

theorem toNat_fee :
    (parameters.fee size steps memory).toNat =
      min (parameters.minFeeConstant.toNat + parameters.minFeeCoefficient.toNat * size.toNat +
        ⌊parameters.priceStep.value * steps.toNat⌋₊ +
        ⌊parameters.priceMem.value * memory.toNat⌋₊) wordMax := by
  simp only [fee, UInt64.toNat_saturatingAdd, UInt64.toNat_saturatingMul, Rational.toNat_mulFloor]
  omega

/-- The fee is the exact formula up to the largest word. It grows with the size and the units, so
the fee of what the protocol accepts is at most the largest fee. -/
theorem fee_exact :
    (parameters.fee size steps memory).toNat =
        min (parameters.minFeeConstant.toNat + parameters.minFeeCoefficient.toNat * size.toNat +
          ⌊parameters.priceStep.value * steps.toNat⌋₊ +
          ⌊parameters.priceMem.value * memory.toNat⌋₊) wordMax ∧
      (∀ price ∈ [parameters.priceStep, parameters.priceMem], ∀ amount,
        (price.product amount).toNat = price.numerator.toNat * amount.toNat ∧
          price.mulFloorInWords amount = price.mulFloor amount ∧
          (price.denominator = 0 → price.mulFloor amount = 0)) ∧
      (∀ larger moreSteps more, size ≤ larger → steps ≤ moreSteps → memory ≤ more →
        parameters.fee size steps memory ≤ parameters.fee larger moreSteps more) ∧
      (size ≤ parameters.maxTxSize → steps ≤ parameters.maxTxExSteps →
        memory ≤ parameters.maxTxExMem → parameters.fee size steps memory ≤ parameters.maxFee) := by
  refine ⟨parameters.toNat_fee size steps memory, ?_, ?_, ?_⟩
  · intro price _ amount
    exact ⟨price.toNat_product amount, price.mulFloorInWords_eq amount,
      fun free => Rational.mulFloor_of_free free amount⟩
  · intro larger moreSteps more sizes times spaces
    exact parameters.fee_mono sizes times spaces
  · intro sizes times spaces
    exact parameters.fee_mono sizes times spaces

/-- A price per step that alone exceeds the largest word, and a price without denominator. -/
def Sample.steep : ProtocolParameters :=
  { preset with priceStep := ⟨18446744073709551615, 1⟩, priceMem := ⟨577, 0⟩ }

theorem fee_exact_steep :
    preset.fee 200 10000000 1000 = 164959 ∧
      preset.fee 200 10000000 1000 ≤ preset.fee 201 10000000 2000 ∧
      preset.fee 200 10000000 1000 ≤ preset.maxFee ∧
      Sample.steep.fee 200 2 1000 ≤ Sample.steep.maxFee ∧
      (Sample.steep.priceStep.product 18446744073709551615).toNat =
        340282366920938463426481119284349108225 ∧
      Sample.steep.priceMem.mulFloor 1000 = 0 := by
  obtain ⟨_, _, grows, bounded⟩ := fee_exact preset 200 10000000 1000
  obtain ⟨_, words, _, boundedSteep⟩ := fee_exact Sample.steep 200 2 1000
  obtain ⟨product, _, _⟩ := words Sample.steep.priceStep (by decide) 18446744073709551615
  obtain ⟨_, _, free⟩ := words Sample.steep.priceMem (by decide) 1000
  exact ⟨by decide, grows _ _ _ (by decide) (by decide) (by decide),
    bounded (by decide) (by decide) (by decide), boundedSteep (by decide) (by decide) (by decide),
    product, free rfl⟩

end ProtocolParameters

end UtxoLedger
