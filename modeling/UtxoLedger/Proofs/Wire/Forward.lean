import UtxoLedger.Proofs.Cbor.Embedding
import UtxoLedger.Transaction.Body

/-!
# Bodies are read forward

What a body is made of is read forward, so the body is: its reader goes over
bytes that stand at its cursor and stops right behind them. These are the bytes
of the body among those of a transaction.
-/

namespace UtxoLedger

open Cbor

/-! ## Names and addresses -/

instance {size : Nat} : ForwardCodec (Hash size) :=
  ⟨moves_checkedBytes (Hash.ofBytes size) HashSizeError.message⟩

instance : ForwardCodec AssetName :=
  ⟨moves_checkedBytes AssetName.ofBytes ValidationError.message⟩

instance : ForwardCodec Address :=
  ⟨moves_checkedBytes Address.ofBytes AddressError.message⟩

instance : ForwardCodec StakeAddress where
  moves_decode := by
    have address : Moves (decode : Decoder Address) := moves_decode
    refine moves_position.bind fun start => address.bind fun found => ?_
    cases found with
    | stake account => exact moves_pure account
    | byron | shelley => exact moves_failAt start _

instance : ForwardCodec Credential where
  moves_decode := by
    refine (moves_decodeCode _ _).bind fun code => ?_
    split <;> exact moves_decode.map _

instance : ForwardCodec NetworkId where
  moves_decode := by
    have index : Moves (decode : Decoder UInt32) := moves_decode
    exact index.bind fun _ => moves_ite (moves_pure _) (moves_ite (moves_pure _) (moves_fail _))

instance : ForwardCodec TransactionInput := ⟨Positional.moves_pair TransactionInput.mk⟩

/-! ## Values and outputs -/

instance : ForwardCodec MultiAsset where
  moves_decode := by
    refine moves_position.bind fun start => moves_decode.bind fun policies => ?_
    split
    next => exact moves_failAt start _
    next => exact moves_pure _

instance : ForwardCodec Value where
  moves_decode := by
    refine moves_kind.bind fun kind => ?_
    split
    next => exact moves_decode.map Value.ofCoin
    next => exact moves_decode.map Value.ofCoin
    next => exact moves_decode.map Value.ofCoin
    next => exact moves_decode.map Value.ofCoin
    next =>
      refine moves_position.bind fun start => (uses_openHead 4).moves.bind fun length => ?_
      refine moves_ite ?_ (moves_failAt start _)
      exact moves_decode.bind fun _ => moves_decode.bind fun _ => moves_pure _
    next => exact moves_fail _

instance : ForwardCodec Datum where
  moves_decode := by
    refine moves_position.bind fun start => (uses_openHead 4).moves.bind fun length => ?_
    refine moves_ite (moves_failAt start _) ((uses_head 0).moves.bind fun code => ?_)
    split
    next => exact moves_decode.map Datum.hash
    next =>
      exact moves_position.bind fun place => moves_embeddedBytes.bind fun _ =>
        (moves_orReject place _ _).map Datum.inline
    next => exact moves_failAt start _

namespace TransactionOutput

theorem moves_fields :
    ∀ entry ∈ mapRecord.entries, ∀ state, Moves (entry.read state) := by
  simp only [mapRecord, List.forall_mem_cons]
  exact ⟨fun _ => moves_decode.map _, fun _ => moves_decode.map _, fun _ => moves_decode.map _,
    fun _ => moves_decode.map _, List.forall_mem_nil _⟩

theorem moves_decodeLegacy : Moves decodeLegacy := by
  refine (moves_decodeHeader legacyLayout).bind fun length => ?_
  have hash : Moves (decode : Decoder (Hash 32)) := moves_decode
  refine moves_decode.bind fun address => moves_decode.bind fun amount => moves_ite ?_ ?_
  · exact (hash.map _).bind fun _ => moves_pure _
  · exact (moves_pure none).bind fun _ => moves_pure _

instance : ForwardCodec TransactionOutput where
  moves_decode := by
    refine moves_kind.bind fun kind => ?_
    split
    next => exact moves_decodeLegacy
    next => exact moves_decodeLegacy
    next => exact Record.moves_decode moves_fields blank
    next => exact Record.moves_decode moves_fields blank
    next => exact moves_fail _

end TransactionOutput

/-! ## Pools -/

instance : ForwardCodec Rational where
  moves_decode := by
    refine moves_position.bind fun start => ((uses_head 6).moves.map UInt64.ofNat).bind fun tag => ?_
    refine moves_ite (moves_failAt start _) ((uses_openHead 4).moves.bind fun length => ?_)
    refine moves_ite (moves_failAt start _) ?_
    exact moves_decode.bind fun _ => moves_decode.bind fun _ => moves_pure _

instance : ForwardCodec Relay where
  moves_decode := by
    refine (moves_decodeCode _ _).bind fun code => ?_
    split
    next =>
      exact moves_decode.bind fun _ => moves_decode.bind fun _ => moves_decode.bind fun _ =>
        moves_pure _
    next => exact moves_decode.bind fun _ => moves_decode.bind fun _ => moves_pure _
    next => exact moves_decode.bind fun _ => moves_pure _

instance : ForwardCodec PoolMetadata := ⟨Positional.moves_pair PoolMetadata.mk⟩

theorem PoolParameters.moves_decodeFields : Moves decodeFields := by
  unfold decodeFields
  repeat refine moves_decode.bind fun _ => ?_
  exact moves_pure _

/-! ## Votes -/

instance : ForwardCodec Anchor := ⟨Positional.moves_pair Anchor.mk⟩

instance : ForwardCodec DRep where
  moves_decode := by
    refine (moves_decodeCode _ _).bind fun code => ?_
    split
    next => exact moves_decode.map DRep.key
    next => exact moves_decode.map DRep.script
    next => exact moves_pure _
    next => exact moves_pure _

instance : ForwardCodec Vote where
  moves_decode := by
    have index : Moves (decode : Decoder UInt32) := moves_decode
    exact index.bind fun _ => moves_ite (moves_pure _)
      (moves_ite (moves_pure _) (moves_ite (moves_pure _) (moves_fail _)))

instance : ForwardCodec Voter where
  moves_decode := by
    refine (moves_decodeCode _ _).bind fun code => ?_
    split <;> exact moves_decode.map _

instance : ForwardCodec GovActionId where
  moves_decode := by
    have pair : Moves (decode : Decoder (Hash 32 × UInt64)) := moves_decode
    exact pair.bind fun ⟨transaction, index⟩ =>
      moves_position.bind fun place => moves_orReject place _ _

instance : ForwardCodec VotingProcedure where
  moves_decode := by
    have pair : Moves (decode : Decoder (Vote × Option Anchor)) := moves_decode
    exact pair.map _

/-! ## Actions -/

instance : ForwardCodec Constitution where
  moves_decode := by
    have pair : Moves (decode : Decoder (Anchor × Option (Hash 28))) := moves_decode
    exact pair.map _

instance : ForwardCodec GovAction where
  moves_decode := by
    refine (moves_decodeCode _ _).bind fun code => ?_
    split <;> repeat first | exact moves_pure _ | refine moves_decode.bind fun _ => ?_

instance : ForwardCodec ProposalProcedure where
  moves_decode :=
    Positional.moves_start.bind fun opened =>
      (Positional.moves_next 0 opened).bind fun ⟨_, left⟩ =>
        (Positional.moves_next 1 left).bind fun ⟨_, left⟩ =>
          (Positional.moves_next 2 left).bind fun ⟨_, left⟩ =>
            (Positional.moves_next 3 left).bind fun ⟨_, left⟩ =>
              (Positional.moves_finish left).bind fun _ => moves_pure _

/-! ## Certificates and bodies -/

instance : ForwardCodec Certificate where
  moves_decode := by
    refine (moves_decodeCode _ _).bind fun code => ?_
    unfold Certificate.decodeParts
    split
    case h_4 => exact PoolParameters.moves_decodeFields.bind fun _ => moves_pure _
    all_goals repeat first | exact moves_pure _ | refine moves_decode.bind fun _ => ?_

instance : ForwardCodec TransactionBody where
  moves_decode := by
    refine Record.moves_decode ?_ TransactionBody.blank
    simp only [TransactionBody.record, List.forall_mem_cons]
    and_intros
    all_goals first | exact fun _ => moves_decode.map _ | exact List.forall_mem_nil _

end UtxoLedger
