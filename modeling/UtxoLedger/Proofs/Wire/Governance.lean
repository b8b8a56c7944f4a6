import UtxoLedger.Governance.Action
import UtxoLedger.Proofs.Cbor.Skip
import UtxoLedger.Proofs.Wire.Funds

/-!
# Votes and proposals that survive

Votes are read back whatever they are. A proposal is when the accounts that
it names are readable and when the parameters that it changes are one item.
-/

namespace UtxoLedger

open Cbor

/-! ## Votes -/

instance : LawfulCodec Anchor where
  survives anchor :=
    reads_positional (by simp) ((survives anchor.url).next
      ((survives anchor.contentHash).next (reads_finish anchor)))

instance : ProperCodec Anchor :=
  ⟨fun _ => ⟨.array, announces_positional _, nofun, nofun⟩⟩

instance : LawfulCodec DRep where
  survives drep := by
    cases drep with
    | key hash => exact reads_alternative rfl (by decide) (survives hash) rfl
    | script hash => exact reads_alternative rfl (by decide) (survives hash) rfl
    | abstain => exact reads_union rfl (by decide) (by simp) (reads_pure _)
    | noConfidence => exact reads_union rfl (by decide) (by simp) (reads_pure _)

instance : LawfulCodec Vote where
  survives vote := by
    cases vote with
    | no => exact Reads.bind_last (survives (0 : UInt32)) (reads_pure _)
    | yes => exact Reads.bind_last (survives (1 : UInt32)) (reads_pure _)
    | abstain => exact Reads.bind_last (survives (2 : UInt32)) (reads_pure _)

instance : LawfulCodec Voter where
  survives voter := by
    cases voter with
    | committeeScript hash => exact reads_alternative rfl (by decide) (survives hash) rfl
    | committeeKey hash => exact reads_alternative rfl (by decide) (survives hash) rfl
    | drepScript hash => exact reads_alternative rfl (by decide) (survives hash) rfl
    | drepKey hash => exact reads_alternative rfl (by decide) (survives hash) rfl
    | stakePoolKey hash => exact reads_alternative rfl (by decide) (survives hash) rfl

instance : ProperCodec Voter where
  announces voter := by
    cases voter <;> exact ⟨.array, announces_union _ _, nofun, nofun⟩

/-- An index of 16 bits is one that fits. -/
theorem GovActionId.ofIndex_index (action : GovActionId) :
    ofIndex action.transaction action.index.toUInt64 = .ok action := by
  have fits := action.index.toNat_lt
  have same : action.index.toUInt64.toUInt16 = action.index := UInt16.toUInt16_toUInt64 _
  rw [ofIndex, UInt16.toNat_toUInt64, if_pos fits, same]

instance : LawfulCodec GovActionId where
  survives action := by
    have shape : encode action = encode (action.transaction, action.index.toUInt64) := by
      change _ ++ Encoder.unsigned action.index.toNat =
        _ ++ Encoder.unsigned action.index.toUInt64.toNat
      rw [UInt16.toNat_toUInt64]
    unfold Survives
    rw [shape]
    refine Reads.bind_last (survives _) (reads_position fun place => ?_)
    rw [GovActionId.ofIndex_index]
    exact reads_pure action

instance : ProperCodec GovActionId :=
  ⟨fun _ => ⟨.array, ((announces_array 2).append _).append _, nofun, nofun⟩⟩

instance : LawfulCodec VotingProcedure where
  survives procedure := Reads.map (survives (procedure.vote, procedure.anchor)) _

/-! ## Proposals -/

instance : LawfulCodec Constitution where
  survives constitution :=
    Reads.map (survives (constitution.anchor, constitution.guardrailScript)) _

namespace GovAction

/-- Changes of parameters are one item, and accounts that receive funds are readable. -/
def IsWellFormed : GovAction → Prop
  | parameterChange _ update _ => update.IsSingle
  | treasuryWithdrawals withdrawals _ => StakeAddress.AllReadable withdrawals
  | _ => True

theorem survives_of_isWellFormed {action : GovAction} (sound : action.IsWellFormed) :
    Survives action := by
  cases action with
  | parameterChange previous update policy =>
      have single := RawItem.survives_of_isSingle sound
      exact reads_union rfl (by decide) (by simp)
        ((survives previous).bind (single.bind ((survives policy).bind (reads_pure _))))
  | hardForkInitiation previous version =>
      exact reads_union rfl (by decide) (by simp)
        ((survives previous).bind ((survives version).bind (reads_pure _)))
  | treasuryWithdrawals withdrawals policy =>
      have readable := StakeAddress.survives_of_allReadable sound
      exact reads_union rfl (by decide) (by simp)
        (readable.bind ((survives policy).bind (reads_pure _)))
  | noConfidence previous => exact reads_alternative rfl (by decide) (survives previous) rfl
  | updateCommittee previous removed added threshold =>
      exact reads_union rfl (by decide) (by simp)
        ((survives previous).bind ((survives removed).bind ((survives added).bind
          ((survives threshold).bind (reads_pure _)))))
  | newConstitution previous constitution =>
      exact reads_union rfl (by decide) (by simp)
        ((survives previous).bind ((survives constitution).bind (reads_pure _)))
  | information => exact reads_union rfl (by decide) (by simp) (reads_pure _)

end GovAction

/-- The account that the deposit returns to is readable, and the action is well formed. -/
structure ProposalProcedure.IsWellFormed (proposal : ProposalProcedure) : Prop where
  rewardAccount : proposal.rewardAccount.IsReadable
  action : proposal.action.IsWellFormed

theorem ProposalProcedure.survives_of_isWellFormed {proposal : ProposalProcedure}
    (sound : proposal.IsWellFormed) : Survives proposal := by
  have account := StakeAddress.survives_of_isReadable sound.rewardAccount
  have action := GovAction.survives_of_isWellFormed sound.action
  exact reads_positional (by simp) ((survives proposal.deposit).next (account.next (action.next
    ((survives proposal.anchor).next (reads_finish proposal)))))

instance : ProperCodec ProposalProcedure :=
  ⟨fun _ => ⟨.array, announces_positional _, nofun, nofun⟩⟩

end UtxoLedger
