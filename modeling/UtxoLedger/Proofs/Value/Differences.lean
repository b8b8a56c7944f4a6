import UtxoLedger.Proofs.Value.Sums

/-!
# Differences of values

A bundle is subtracted by adding the opposite of every quantity that it lists.
The least signed word has no opposite among the signed words, and the nearest
one is one too small. So a difference that is a signed word is exact unless
the least word is taken away, and then it is one too small.
-/

namespace UtxoLedger

theorem toInt_saturatingNeg_of_least {word : Int64} (least : word.toInt = signedMin) :
    word.saturatingNeg.toInt = -word.toInt - 1 := by
  rw [Int64.toInt_saturatingNeg, least]
  decide

namespace MultiAsset

variable {first second : MultiAsset} {asset : Asset}

theorem quantity_sub_of_least (least : second.quantity asset = signedMin)
    (fits : IsSigned (first.quantity asset - second.quantity asset)) :
    (first - second).quantity asset = first.quantity asset - second.quantity asset - 1 := by
  have opposite : (second.get asset).saturatingNeg.toInt = -second.quantity asset - 1 :=
    toInt_saturatingNeg_of_least least
  have lower : signedMin ≤ first.quantity asset := (first.get asset).signedMin_le_toInt
  rw [quantity, get_sub, toInt_saturatingAdd_of_isSigned, opposite]
  · change first.quantity asset + (-second.quantity asset - 1) = _
    omega
  · obtain ⟨_, upper⟩ := fits
    rw [opposite, IsSigned]
    change signedMin ≤ first.quantity asset + (-second.quantity asset - 1) ∧
      first.quantity asset + (-second.quantity asset - 1) ≤ signedMax
    rw [least] at upper ⊢
    unfold signedMin signedMax bound63 at *
    omega

theorem quantity_sub_eq_iff (fits : IsSigned (first.quantity asset - second.quantity asset)) :
    (first - second).quantity asset = first.quantity asset - second.quantity asset ↔
      second.quantity asset ≠ signedMin := by
  by_cases least : second.quantity asset = signedMin
  · rw [quantity_sub_of_least least fits]
    omega
  · exact iff_of_true (quantity_sub least fits) least

/-- A bundle without the least word cancels itself. -/
theorem isEmpty_sub_self_iff (bundle : MultiAsset) :
    (bundle - bundle).isEmpty = true ↔ ∀ asset, bundle.quantity asset ≠ signedMin := by
  rw [isEmpty_iff_quantity]
  refine forall_congr' fun asset => ?_
  have nothing : bundle.quantity asset - bundle.quantity asset = 0 := Int.sub_self _
  have fits : IsSigned (bundle.quantity asset - bundle.quantity asset) :=
    nothing.symm ▸ isSigned_zero
  rw [← quantity_sub_eq_iff fits, nothing]

/-- What is added can be taken away again unless it is the least word. -/
theorem plus_sub_cancel_iff
    (fits : ∀ asset, IsSigned (first.quantity asset + second.quantity asset)) :
    first + second - second = first ↔ ∀ asset, second.quantity asset ≠ signedMin := by
  have told : first + second - second = first ↔
      ∀ asset, (first + second - second).quantity asset = first.quantity asset :=
    ⟨fun same asset => congrArg (quantity · asset) same,
      fun same => ext_get fun asset => Int64.toInt_inj.1 (same asset)⟩
  rw [told]
  refine forall_congr' fun asset => ?_
  have back : (first + second).quantity asset - second.quantity asset = first.quantity asset := by
    rw [quantity_plus (fits asset)]
    omega
  have word : IsSigned ((first + second).quantity asset - second.quantity asset) :=
    back.symm ▸ isSigned_toInt (first.get asset)
  rw [← quantity_sub_eq_iff word, back]

end MultiAsset

namespace Value

theorem coin_plus_sub_cancel {first second : Value}
    (fits : first.coin.toNat + second.coin.toNat < bound64) :
    (first + second - second).coin = first.coin := by
  have sum : (first + second).coin.toNat = first.coin.toNat + second.coin.toNat :=
    toNat_saturatingAdd_of_lt fits
  have left : (first + second - second).coin.toNat =
      (first + second).coin.toNat - second.coin.toNat :=
    UInt64.toNat_saturatingSub _ _
  apply UInt64.toNat_inj.1
  omega

/-- A difference that is a signed word is exact unless the least word is taken away. -/
theorem sub_exact_iff (first second : Value) :
    (∀ asset, IsSigned (first.quantity asset - second.quantity asset) →
        ((first - second).quantity asset = first.quantity asset - second.quantity asset ↔
          second.quantity asset ≠ signedMin)) ∧
      (first - second).coin.toNat = first.coin.toNat - second.coin.toNat ∧
      ((first - first).assets.isEmpty = true ↔ ∀ asset, first.quantity asset ≠ signedMin) ∧
      (first.coin.toNat + second.coin.toNat < bound64 →
        (∀ asset, IsSigned (first.quantity asset + second.quantity asset)) →
          (first + second - second = first ↔ ∀ asset, second.quantity asset ≠ signedMin)) := by
  refine ⟨fun asset fits => MultiAsset.quantity_sub_eq_iff fits, UInt64.toNat_saturatingSub _ _,
    MultiAsset.isEmpty_sub_self_iff first.assets, fun fitsCoin fits => ?_⟩
  have coin := coin_plus_sub_cancel fitsCoin
  constructor
  · intro same
    exact (MultiAsset.plus_sub_cancel_iff fits).1 (congrArg assets same)
  · intro above
    exact congrArg₂ Value.mk coin ((MultiAsset.plus_sub_cancel_iff fits).2 above)

/-! ### The least word -/

namespace Sample

def token : Asset := ⟨⟨.replicate 28 1⟩, .empty⟩

/-- Coin and a quantity of one asset. -/
def amount (coin : UInt64) (quantity : Int64) : Value :=
  ⟨coin, MultiAsset.empty.add token quantity⟩

theorem quantity_amount (coin : UInt64) (quantity : Int64) (asset : Asset) :
    (amount coin quantity).quantity asset = if asset = token then quantity.toInt else 0 :=
  MultiAsset.quantity_add_empty token asset quantity

theorem quantity_amount_ne {quantity : Int64} (above : quantity.toInt ≠ signedMin)
    (coin : UInt64) (asset : Asset) : (amount coin quantity).quantity asset ≠ signedMin := by
  rw [quantity_amount]
  split
  · exact above
  · decide

end Sample

section

open Sample

/-- More can be taken away than is there. -/
theorem sub_exact_iff_lowered :
    (amount 9 5 - amount 4 7).quantity token = -2 ∧
      (amount 9 5 - amount 9 5).assets.isEmpty = true ∧
      amount 9 5 + amount 4 7 - amount 4 7 = amount 9 5 := by
  obtain ⟨exact, _, cancels, restores⟩ := sub_exact_iff (amount 9 5) (amount 4 7)
  have five : ∀ asset, (amount 9 5).quantity asset ≠ signedMin := quantity_amount_ne (by decide) 9
  have seven : ∀ asset, (amount 4 7).quantity asset ≠ signedMin := quantity_amount_ne (by decide) 4
  have sums (asset : Asset) :
      IsSigned ((amount 9 5).quantity asset + (amount 4 7).quantity asset) := by
    rw [quantity_amount, quantity_amount]
    split
    · exact isSigned_toInt 12
    · exact isSigned_zero
  have difference : (amount 9 5).quantity token - (amount 4 7).quantity token = -2 := by
    decide +kernel
  refine ⟨?_, cancels.2 five, (restores (by decide) sums).2 seven⟩
  rw [(exact token (difference ▸ isSigned_toInt (-2))).2 (seven token), difference]

/-- The difference from the least word is a signed word, but it is not reached. -/
theorem sub_inexact_of_least :
    IsSigned ((amount 0 (-1)).quantity token - (amount 0 Int64.minValue).quantity token) ∧
      (amount 0 (-1)).quantity token - (amount 0 Int64.minValue).quantity token =
        9223372036854775807 ∧
      (amount 0 (-1) - amount 0 Int64.minValue).quantity token = 9223372036854775806 ∧
      (amount 0 Int64.minValue - amount 0 Int64.minValue).assets.isEmpty = false ∧
      amount 0 1 + amount 0 Int64.minValue - amount 0 Int64.minValue ≠ amount 0 1 := by
  have exact : (amount 0 (-1)).quantity token - (amount 0 Int64.minValue).quantity token =
      9223372036854775807 := by decide +kernel
  refine ⟨exact ▸ isSigned_toInt 9223372036854775807, exact, ?_, ?_, ?_⟩ <;> decide +kernel

end

end Value

end UtxoLedger
