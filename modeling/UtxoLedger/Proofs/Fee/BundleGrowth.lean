import Mathlib.Data.List.Flatten
import Mathlib.Data.List.Perm.Subperm
import UtxoLedger.Fee
import UtxoLedger.Proofs.Wire.Lengths

/-!
# Least coin and the bundle

An output needs more coin when it carries more assets. Under the rule by size
each further entry costs a byte at least; only a price beyond the largest word
hides it. Under the rule by words a bundle takes no fewer words than one that
lies inside it, since names are counted once wherever they occur.
-/

namespace UtxoLedger

/-! ## Names that are counted once -/

theorem nodup_eraseDups {α : Type} [DecidableEq α] : (items : List α) → items.eraseDups.Nodup
  | [] => List.nodup_nil
  | first :: rest => by
      rw [List.eraseDups_cons]
      refine List.nodup_cons.2 ⟨fun again => ?_, nodup_eraseDups _⟩
      have kept := (List.mem_filter.1 (List.mem_eraseDups.1 again)).2
      simp at kept
termination_by items => items.length
decreasing_by exact Nat.lt_succ_of_le (List.length_filter_le _ rest)

theorem length_flatMap_le_of_subset {α β : Type} (content : α → List β) {first second : List α}
    (once : first.Nodup) (within : first ⊆ second) :
    (first.flatMap content).length ≤ (second.flatMap content).length := by
  obtain ⟨same, perm, inside⟩ := once.subperm within
  calc (first.flatMap content).length
      = (same.flatMap content).length := (perm.flatMap_right content).length_eq.symm
    _ ≤ (second.flatMap content).length := (inside.flatMap content).length_le

namespace MultiAsset

variable {first second : MultiAsset}

theorem wordCount_le (within : first.entries ⊆ second.entries) :
    first.wordCount ≤ second.wordCount := by
  have assets := assetCount_le within
  have policies := policyCount_le within
  have sameNames : (first.entries.map (·.1.name)).eraseDups ⊆
      (second.entries.map (·.1.name)).eraseDups := by
    intro name listed
    exact List.mem_eraseDups.2 (List.map_subset _ within (List.mem_eraseDups.1 listed))
  have names := length_flatMap_le_of_subset (fun name : AssetName => name.bytes)
    (nodup_eraseDups _) sameNames
  unfold wordCount
  dsimp only
  omega

end MultiAsset

namespace Value

/-- By words, a bundle needs no less coin than one inside it that is not empty. -/
theorem minCoinByWords_le {first second : MultiAsset} (within : first.entries ⊆ second.entries)
    (mixed : first.isEmpty = false) (coin : UInt64) (parameters : ProtocolParameters)
    (hasDatum : Bool) :
    (⟨coin, first⟩ : Value).minCoinByWords parameters hasDatum ≤
      (⟨coin, second⟩ : Value).minCoinByWords parameters hasDatum := by
  have alsoMixed : ¬ second.isEmpty = true := fun nothing =>
    Bool.eq_false_iff.1 mixed (MultiAsset.isEmpty_of_within within nothing)
  have words := MultiAsset.wordCount_le within
  unfold minCoinByWords isPureCoin
  rw [if_neg (Bool.eq_false_iff.1 mixed), if_neg alsoMixed]
  refine UInt64.saturate_mono (Nat.mul_le_mul_right _ ?_)
  exact Nat.add_le_add_right (Nat.add_le_add_left words 27) _

end Value

namespace TransactionOutput

variable (output : TransactionOutput) (parameters : ProtocolParameters) {first second : MultiAsset}

/-- The output with other assets. -/
def withAssets (assets : MultiAsset) : TransactionOutput :=
  { output with amount := { output.amount with assets := assets } }

/-- The exact price of the bytes that are charged for an output. -/
def price : Nat :=
  (160 + (Cbor.encode output.charged).length) * parameters.coinsPerUtxoByte.toNat

theorem toNat_minCoin :
    (output.minCoin parameters).toNat = min (output.price parameters) wordMax :=
  UInt64.toNat_saturate _

/-- Every entry that is added is charged a byte at least. -/
theorem length_charged_le (within : first.entries ⊆ second.entries) :
    (Cbor.encode (output.withAssets first).charged).length + second.assetCount ≤
      (Cbor.encode (output.withAssets second).charged).length + first.assetCount := by
  obtain ⟨base, length⟩ := output.exists_length_encode_inMapForm
  let coin := if output.amount.coin = 0 then assumedCoin else output.amount.coin
  have charged (assets : MultiAsset) : (output.withAssets assets).charged =
      ({ output with amount := ⟨coin, assets⟩ } : TransactionOutput).inMapForm := rfl
  have values := Value.length_encode_le coin within
  rw [charged, charged, length, length]
  omega

theorem price_le (within : first.entries ⊆ second.entries) :
    (output.withAssets first).price parameters ≤ (output.withAssets second).price parameters := by
  have length := output.length_charged_le within
  have count := MultiAsset.assetCount_le within
  refine Nat.mul_le_mul_right _ ?_
  omega

theorem price_lt (within : first.entries ⊆ second.entries)
    (more : first.assetCount < second.assetCount) (priced : 0 < parameters.coinsPerUtxoByte) :
    (output.withAssets first).price parameters < (output.withAssets second).price parameters := by
  have length := output.length_charged_le within
  refine Nat.mul_lt_mul_of_pos_right ?_ (UInt64.lt_iff_toNat_lt.1 priced)
  omega

/-- The least coin grows with the bundle, strictly where entries are added and their price does
not stop at the largest word. -/
theorem minCoin_grows (within : first.entries ⊆ second.entries) :
    (output.withAssets first).minCoin parameters ≤ (output.withAssets second).minCoin parameters ∧
      (first.assetCount < second.assetCount → 0 < parameters.coinsPerUtxoByte →
        (output.withAssets first).price parameters < (output.withAssets second).price parameters ∧
          ((output.withAssets first).minCoin parameters <
              (output.withAssets second).minCoin parameters ↔
            (output.withAssets first).price parameters < wordMax)) ∧
      first.wordCount ≤ second.wordCount ∧
      (first.isEmpty = false → ∀ coin hasDatum,
        (⟨coin, first⟩ : Value).minCoinByWords parameters hasDatum ≤
          (⟨coin, second⟩ : Value).minCoinByWords parameters hasDatum) := by
  refine ⟨UInt64.saturate_mono (output.price_le parameters within), fun more priced => ?_,
    MultiAsset.wordCount_le within, fun mixed coin hasDatum =>
      Value.minCoinByWords_le within mixed coin parameters hasDatum⟩
  have dearer := output.price_lt parameters within more priced
  refine ⟨dearer, ?_⟩
  rw [UInt64.lt_iff_toNat_lt, toNat_minCoin, toNat_minCoin]
  omega

/-! ### A second policy -/

namespace Sample

def token : Asset := ⟨⟨.replicate 28 1⟩, .empty⟩

def other : Asset := ⟨⟨.replicate 28 2⟩, .empty⟩

def single : MultiAsset := MultiAsset.empty.add token 5

def double : MultiAsset := single.add other 7

def payment : TransactionOutput :=
  .plain (.shelley ⟨.testnet, .key ⟨.replicate 28 7⟩, .none⟩) .zero

end Sample

theorem minCoin_grows_double :
    Sample.single.entries ⊆ Sample.double.entries ∧
      (Sample.payment.withAssets Sample.single).minCoin .preset <
        (Sample.payment.withAssets Sample.double).minCoin .preset ∧
      (⟨0, Sample.single⟩ : Value).minCoinByWords .preset true ≤
        (⟨0, Sample.double⟩ : Value).minCoinByWords .preset true := by
  have within : Sample.single.entries ⊆ Sample.double.entries := by
    intro entry listed
    have all : ∀ entry ∈ Sample.single.entries, entry ∈ Sample.double.entries := by
      decide +kernel
    exact all entry listed
  obtain ⟨_, grows, _, words⟩ := Sample.payment.minCoin_grows .preset within
  obtain ⟨_, strictly⟩ := grows (by decide +kernel) (by decide)
  exact ⟨within, strictly.2 (by decide +kernel), words (by decide +kernel) 0 true⟩

end TransactionOutput

end UtxoLedger
