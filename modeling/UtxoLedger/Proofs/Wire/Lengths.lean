import UtxoLedger.Proofs.Cbor.EncodedLength
import UtxoLedger.Proofs.Value.Inclusion
import UtxoLedger.Transaction.Output

/-!
# Lengths of bundles and outputs

A bundle is written as a map of maps. One that lies inside another is shorter
by a byte at least for every entry that it lacks: a new entry takes room
itself, and no head gets shorter as its number grows. The same is true of
values that hold the bundles, and an output is as much longer as its value is.
-/

namespace UtxoLedger

open Cbor

/-! ## Bundles -/

theorem AssetName.length_encode_pos (name : AssetName) : 0 < (encode name).length := by
  change 0 < (Encoder.head 2 name.bytes.length ++ name.bytes).length
  rw [List.length_append, Encoder.length_head]
  have head := Encoder.headLength_pos name.bytes.length
  omega

theorem length_encode_group_le {first second : OrderedMap AssetName Int64}
    (within : first.entries.Sublist second.entries) :
    (encode first).length + second.size ≤ (encode second).length + first.size := by
  have head := Encoder.headLength_mono within.length_le
  have matched : List.SublistForall₂ (· = ·) first.entries second.entries :=
    within.sublistForall₂
  have entries := sum_add_le_of_sublistForall₂
    (fun entry : AssetName × Int64 => (encode entry.1).length + (encode entry.2).length)
    (fun _ => 1) matched (fun _ _ same => same ▸ Nat.le_refl _)
    fun entry => Nat.le_add_right_of_le entry.1.length_encode_pos
  simp only [List.map_const', List.sum_replicate_nat, Nat.mul_one] at entries
  rw [length_encode_orderedMap, length_encode_orderedMap]
  unfold OrderedMap.size at head ⊢
  omega

theorem size_le_length_encode_group (group : OrderedMap AssetName Int64) :
    group.size ≤ (encode group).length := by
  have nothing : (OrderedMap.empty : OrderedMap AssetName Int64).entries.Sublist group.entries :=
    List.nil_sublist group.entries
  have grows := length_encode_group_le nothing
  have shortest : (encode (OrderedMap.empty : OrderedMap AssetName Int64)).length = 1 := rfl
  have none : (OrderedMap.empty : OrderedMap AssetName Int64).size = 0 := rfl
  omega

namespace MultiAsset

variable {first second : MultiAsset}

/-- Every entry that is added takes a byte at least. -/
theorem length_encode_le (within : first.entries ⊆ second.entries) :
    (encode first).length + second.assetCount ≤ (encode second).length + first.assetCount := by
  have head := Encoder.headLength_mono (policyCount_le within)
  have grows (inner outer : PolicyId × OrderedMap AssetName Int64)
      (inside : GroupWithin inner outer) :
      (encode inner.1).length + (encode inner.2).length + outer.2.size ≤
        (encode outer.1).length + (encode outer.2).length + inner.2.size := by
    have group := length_encode_group_le inside.entries
    rw [inside.policy]
    omega
  have groups := sum_add_le_of_sublistForall₂
    (fun group : PolicyId × OrderedMap AssetName Int64 =>
      (encode group.1).length + (encode group.2).length)
    (fun group => group.2.size) (groupsWithin within) grows
    fun group => Nat.le_add_left_of_le (size_le_length_encode_group group.2)
  change (encode first.policies).length + _ ≤ (encode second.policies).length + _
  rw [length_encode_orderedMap, length_encode_orderedMap, assetCount_eq_sum, assetCount_eq_sum]
  unfold policyCount at head
  omega

end MultiAsset

/-! ## Values -/

namespace Value

variable {first second : MultiAsset}

theorem encode_of_isEmpty {assets : MultiAsset} (pure : assets.isEmpty = true) (coin : UInt64) :
    encode (⟨coin, assets⟩ : Value) = encode coin :=
  if_pos pure

theorem encode_of_not_isEmpty {assets : MultiAsset} (mixed : ¬ assets.isEmpty = true)
    (coin : UInt64) :
    encode (⟨coin, assets⟩ : Value) = Encoder.array 2 ++ encode coin ++ encode assets :=
  if_neg mixed

theorem length_encode_le (coin : UInt64) (within : first.entries ⊆ second.entries) :
    (encode (⟨coin, first⟩ : Value)).length + second.assetCount ≤
      (encode (⟨coin, second⟩ : Value)).length + first.assetCount := by
  have bundles := MultiAsset.length_encode_le within
  by_cases pure : first.isEmpty = true
  · have none := MultiAsset.assetCount_of_isEmpty pure
    rw [encode_of_isEmpty pure]
    by_cases alsoPure : second.isEmpty = true
    · have noneEither := MultiAsset.assetCount_of_isEmpty alsoPure
      rw [encode_of_isEmpty alsoPure]
      omega
    · rw [encode_of_not_isEmpty alsoPure]
      simp only [List.length_append]
      omega
  · have mixed : ¬ second.isEmpty = true :=
      fun nothing => pure (MultiAsset.isEmpty_of_within within nothing)
    rw [encode_of_not_isEmpty pure, encode_of_not_isEmpty mixed]
    simp only [List.length_append]
    omega

end Value

/-! ## Outputs -/

namespace TransactionOutput

open Record (presentIn writeField)

/-- The length of an output in the map form depends on its value through the length of the value
alone. -/
theorem exists_length_encode_inMapForm (output : TransactionOutput) :
    ∃ base, ∀ amount,
      (encode ({ output with amount := amount } : TransactionOutput).inMapForm).length =
        base + (encode amount).length := by
  let others := presentIn (mapRecord.entries.drop 2) output
  let front := Encoder.map (others.length + 2) ++ writeField (0, encode output.address) ++
    Encoder.unsigned 1
  refine ⟨front.length + (others.flatMap writeField).length, fun amount => ?_⟩
  have present : presentIn mapRecord.entries
      ({ output with amount := amount } : TransactionOutput).inMapForm =
        (0, encode output.address) :: (1, encode amount) :: others := rfl
  have written : encode ({ output with amount := amount } : TransactionOutput).inMapForm =
      front ++ encode amount ++ others.flatMap writeField := by
    change mapRecord.encode ({ output with amount := amount } : TransactionOutput).inMapForm = _
    rw [Record.encode_eq, present]
    simp [front, writeField]
  rw [written, List.length_append, List.length_append]
  omega

end TransactionOutput

end UtxoLedger
