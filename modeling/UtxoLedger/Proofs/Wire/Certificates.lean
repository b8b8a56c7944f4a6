import UtxoLedger.Certificate
import UtxoLedger.Proofs.Wire.Governance

/-!
# Certificates that survive

Every certificate is read back behind its own code. The only part that a
decoder may refuse is the reward account of a stake pool.
-/

namespace UtxoLedger

open Cbor

/-! ## Stake pools -/

instance : LawfulCodec Relay where
  survives relay := by
    cases relay with
    | hostAddress socket ipv4 ipv6 =>
        exact reads_union rfl (by decide) (by simp)
          ((survives socket).bind ((survives ipv4).bind ((survives ipv6).bind (reads_pure _))))
    | hostName socket name =>
        exact reads_union rfl (by decide) (by simp)
          ((survives socket).bind ((survives name).bind (reads_pure _)))
    | multiHostName name => exact reads_alternative rfl (by decide) (survives name) rfl

instance : ProperCodec Relay where
  announces relay := by
    cases relay <;> exact ⟨.array, announces_union _ _, nofun, nofun⟩

instance : LawfulCodec PoolMetadata where
  survives metadata :=
    reads_positional (by simp) ((survives metadata.url).next
      ((survives metadata.hash).next (reads_finish metadata)))

instance : ProperCodec PoolMetadata :=
  ⟨fun _ => ⟨.array, announces_positional _, nofun, nofun⟩⟩

/-- The fields of a registration are read back when its reward account is readable. -/
theorem PoolParameters.reads_decodeFields {parameters : PoolParameters}
    (readable : parameters.rewardAccount.IsReadable) :
    Reads decodeFields parameters.encodeFields.flatten parameters := by
  have account := StakeAddress.survives_of_isReadable readable
  refine (survives parameters.operator).bind ?_
  refine (survives parameters.vrfKeyHash).bind ?_
  refine (survives parameters.pledge).bind ?_
  refine (survives parameters.cost).bind ?_
  refine (survives parameters.margin).bind ?_
  refine account.bind ?_
  refine (survives parameters.owners).bind ?_
  refine (survives parameters.relays).bind ?_
  refine (survives parameters.metadata).bind ?_
  exact reads_pure parameters

namespace Certificate

/-- The reward account of a pool that is registered is readable. -/
def IsWellFormed : Certificate → Prop
  | poolRegistration parameters => parameters.rewardAccount.IsReadable
  | _ => True

/-! ## Codes and parts -/

/-- As many parts are written as the code stands for. -/
theorem partCount_code (certificate : Certificate) :
    partCount certificate.code = some certificate.parts.length := by
  cases certificate <;> rfl

theorem length_parts_lt (certificate : Certificate) : certificate.parts.length < 24 := by
  cases certificate <;> simp [parts, PoolParameters.encodeFields]

theorem code_lt (certificate : Certificate) : certificate.code < 24 := by
  cases certificate <;> simp [code]

/-- The parts behind a code are read as the certificate that they were written for. -/
theorem reads_decodeParts {certificate : Certificate} (sound : certificate.IsWellFormed) :
    Reads (decodeParts certificate.code) certificate.parts.flatten certificate := by
  cases certificate with
  | stakeRegistration credential => exact (survives credential).bind (reads_pure _)
  | stakeDeregistration credential => exact (survives credential).bind (reads_pure _)
  | stakeDelegation credential pool =>
      exact (survives credential).bind ((survives pool).bind (reads_pure _))
  | poolRegistration parameters =>
      exact (PoolParameters.reads_decodeFields sound).bind_last (reads_pure _)
  | poolRetirement pool epoch =>
      exact (survives pool).bind ((survives epoch).bind (reads_pure _))
  | register credential deposit =>
      exact (survives credential).bind ((survives deposit).bind (reads_pure _))
  | deregister credential deposit =>
      exact (survives credential).bind ((survives deposit).bind (reads_pure _))
  | voteDelegation credential drep =>
      exact (survives credential).bind ((survives drep).bind (reads_pure _))
  | stakeVoteDelegation credential pool drep =>
      exact (survives credential).bind ((survives pool).bind ((survives drep).bind (reads_pure _)))
  | registerStakeDelegation credential pool deposit =>
      exact (survives credential).bind
        ((survives pool).bind ((survives deposit).bind (reads_pure _)))
  | registerVoteDelegation credential drep deposit =>
      exact (survives credential).bind
        ((survives drep).bind ((survives deposit).bind (reads_pure _)))
  | registerStakeVoteDelegation credential pool drep deposit =>
      exact (survives credential).bind ((survives pool).bind
        ((survives drep).bind ((survives deposit).bind (reads_pure _))))
  | authorizeCommitteeHot cold hot =>
      exact (survives cold).bind ((survives hot).bind (reads_pure _))
  | resignCommitteeCold cold anchor =>
      exact (survives cold).bind ((survives anchor).bind (reads_pure _))
  | registerDRep credential deposit anchor =>
      exact (survives credential).bind
        ((survives deposit).bind ((survives anchor).bind (reads_pure _)))
  | deregisterDRep credential deposit =>
      exact (survives credential).bind ((survives deposit).bind (reads_pure _))
  | updateDRep credential anchor =>
      exact (survives credential).bind ((survives anchor).bind (reads_pure _))

theorem survives_of_isWellFormed {certificate : Certificate}
    (sound : certificate.IsWellFormed) : Survives certificate :=
  reads_union certificate.partCount_code certificate.code_lt certificate.length_parts_lt
    (reads_decodeParts sound)

end Certificate

instance : ProperCodec Certificate :=
  ⟨fun _ => ⟨.array, announces_union _ _, nofun, nofun⟩⟩

end UtxoLedger
