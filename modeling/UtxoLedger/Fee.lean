import UtxoLedger.Parameters
import UtxoLedger.Transaction.Output

/-!
# Fees and least amounts

The fee of a transaction grows with its size and with the units its scripts
may take. An output has to carry coin in proportion to the size of its wire
form; an older rule counts the words of its assets. Sums and products stop at
the largest word.
-/

namespace UtxoLedger

namespace ProtocolParameters

/-- The least fee of a transaction of `size` bytes with the given units. -/
def fee (parameters : ProtocolParameters) (size steps memory : UInt64) : UInt64 :=
  ((parameters.minFeeConstant.saturatingAdd
    (parameters.minFeeCoefficient.saturatingMul size)).saturatingAdd
      (parameters.priceStep.mulFloor steps)).saturatingAdd
        (parameters.priceMem.mulFloor memory)

theorem fee_mono (parameters : ProtocolParameters) {size larger steps moreSteps memory more : UInt64}
    (sizes : size ≤ larger) (times : steps ≤ moreSteps) (spaces : memory ≤ more) :
    parameters.fee size steps memory ≤ parameters.fee larger moreSteps more := by
  have base : parameters.minFeeConstant.saturatingAdd
        (parameters.minFeeCoefficient.saturatingMul size) ≤
      parameters.minFeeConstant.saturatingAdd
        (parameters.minFeeCoefficient.saturatingMul larger) :=
    UInt64.saturatingAdd_mono UInt64.le_rfl (UInt64.saturatingMul_mono _ sizes)
  exact UInt64.saturatingAdd_mono
    (UInt64.saturatingAdd_mono base (parameters.priceStep.mulFloor_mono times))
    (parameters.priceMem.mulFloor_mono spaces)

/-- The fee of the largest transaction that the protocol accepts. -/
def maxFee (parameters : ProtocolParameters) : UInt64 :=
  parameters.fee parameters.maxTxSize parameters.maxTxExSteps parameters.maxTxExMem

end ProtocolParameters

namespace MultiAsset

/-- The number of words of eight bytes that a bundle takes. A name under several policies counts
once. -/
def wordCount (bundle : MultiAsset) : Nat :=
  let names := (bundle.entries.map (·.1.name)).eraseDups
  let bytes :=
    12 * bundle.assetCount + (names.flatMap (·.bytes)).length + 28 * bundle.policyCount
  6 + (bytes + 7) / 8

end MultiAsset

namespace Value

/-- The least coin of an output under the older rule. -/
def minCoinByWords (amount : Value) (parameters : ProtocolParameters) (hasDatum : Bool) : UInt64 :=
  if amount.isPureCoin then parameters.minUtxo
  else
    let words := 27 + amount.assets.wordCount + (if hasDatum then 10 else 0)
    UInt64.saturate (words * parameters.coinsPerUtxoWord.toNat)

end Value

namespace TransactionOutput

/-- The coin that is assumed where an output has none yet. -/
def assumedCoin : UInt64 := 1000000

/-- The output whose wire form is charged: in the map form, and with coin. -/
def charged (output : TransactionOutput) : TransactionOutput :=
  let coin := if output.amount.coin = 0 then assumedCoin else output.amount.coin
  { output with amount := { output.amount with coin := coin }, format := .postAlonzo }

/-- The least coin of an output; 160 bytes are charged on top of its size. -/
def minCoin (output : TransactionOutput) (parameters : ProtocolParameters) : UInt64 :=
  let size := (Cbor.encode output.charged).length
  UInt64.saturate ((160 + size) * parameters.coinsPerUtxoByte.toNat)

end TransactionOutput

end UtxoLedger
