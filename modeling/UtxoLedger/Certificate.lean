import UtxoLedger.Governance.Voting
import UtxoLedger.Pool.Basic

/-!
# Certificates

Certificates register and deregister stake, pools, representatives and
committee members, and delegate stake and votes. Each is written as the array
of its code and its parts.
-/

namespace UtxoLedger

inductive Certificate where
  | stakeRegistration (credential : Credential)
  | stakeDeregistration (credential : Credential)
  | stakeDelegation (credential : Credential) (pool : Hash 28)
  | poolRegistration (parameters : PoolParameters)
  | poolRetirement (pool : Hash 28) (epoch : UInt64)
  | register (credential : Credential) (deposit : UInt64)
  | deregister (credential : Credential) (deposit : UInt64)
  | voteDelegation (credential : Credential) (drep : DRep)
  | stakeVoteDelegation (credential : Credential) (pool : Hash 28) (drep : DRep)
  | registerStakeDelegation (credential : Credential) (pool : Hash 28) (deposit : UInt64)
  | registerVoteDelegation (credential : Credential) (drep : DRep) (deposit : UInt64)
  | registerStakeVoteDelegation (credential : Credential) (pool : Hash 28) (drep : DRep)
      (deposit : UInt64)
  | authorizeCommitteeHot (cold hot : Credential)
  | resignCommitteeCold (cold : Credential) (anchor : Option Anchor)
  | registerDRep (credential : Credential) (deposit : UInt64) (anchor : Option Anchor)
  | deregisterDRep (credential : Credential) (deposit : UInt64)
  | updateDRep (credential : Credential) (anchor : Option Anchor)
  deriving DecidableEq

namespace Certificate

def code : Certificate → Nat
  | stakeRegistration _ => 0
  | stakeDeregistration _ => 1
  | stakeDelegation _ _ => 2
  | poolRegistration _ => 3
  | poolRetirement _ _ => 4
  | register _ _ => 7
  | deregister _ _ => 8
  | voteDelegation _ _ => 9
  | stakeVoteDelegation _ _ _ => 10
  | registerStakeDelegation _ _ _ => 11
  | registerVoteDelegation _ _ _ => 12
  | registerStakeVoteDelegation _ _ _ _ => 13
  | authorizeCommitteeHot _ _ => 14
  | resignCommitteeCold _ _ => 15
  | registerDRep _ _ _ => 16
  | deregisterDRep _ _ => 17
  | updateDRep _ _ => 18

/-- The credential that the certificate acts upon. -/
def credential? : Certificate → Option Credential
  | stakeRegistration credential => some credential
  | stakeDeregistration credential => some credential
  | stakeDelegation credential _ => some credential
  | poolRegistration _ => none
  | poolRetirement _ _ => none
  | register credential _ => some credential
  | deregister credential _ => some credential
  | voteDelegation credential _ => some credential
  | stakeVoteDelegation credential _ _ => some credential
  | registerStakeDelegation credential _ _ => some credential
  | registerVoteDelegation credential _ _ => some credential
  | registerStakeVoteDelegation credential _ _ _ => some credential
  | authorizeCommitteeHot cold _ => some cold
  | resignCommitteeCold cold _ => some cold
  | registerDRep credential _ _ => some credential
  | deregisterDRep credential _ => some credential
  | updateDRep credential _ => some credential

/-! ## Wire form -/

open Cbor in
/-- The wire forms of the parts in order. -/
def parts : Certificate → List Bytes
  | stakeRegistration credential => [encode credential]
  | stakeDeregistration credential => [encode credential]
  | stakeDelegation credential pool => [encode credential, encode pool]
  | poolRegistration parameters => parameters.encodeFields
  | poolRetirement pool epoch => [encode pool, encode epoch]
  | register credential deposit => [encode credential, encode deposit]
  | deregister credential deposit => [encode credential, encode deposit]
  | voteDelegation credential drep => [encode credential, encode drep]
  | stakeVoteDelegation credential pool drep => [encode credential, encode pool, encode drep]
  | registerStakeDelegation credential pool deposit =>
      [encode credential, encode pool, encode deposit]
  | registerVoteDelegation credential drep deposit =>
      [encode credential, encode drep, encode deposit]
  | registerStakeVoteDelegation credential pool drep deposit =>
      [encode credential, encode pool, encode drep, encode deposit]
  | authorizeCommitteeHot cold hot => [encode cold, encode hot]
  | resignCommitteeCold cold anchor => [encode cold, encode anchor]
  | registerDRep credential deposit anchor =>
      [encode credential, encode deposit, encode anchor]
  | deregisterDRep credential deposit => [encode credential, encode deposit]
  | updateDRep credential anchor => [encode credential, encode anchor]

/-- The number of parts behind each code. -/
def partCount (code : Nat) : Option Nat :=
  if code ≤ 1 then some 1
  else if code = 3 then some 9
  else if [2, 4, 7, 8, 9, 14, 15, 17, 18].contains code then some 2
  else if [10, 11, 12, 16].contains code then some 3
  else if code = 13 then some 4
  else none

open Cbor in
/-- Reads the parts behind a code. -/
def decodeParts (code : Nat) : Decoder Certificate :=
  match code with
  | 0 => return stakeRegistration (← decode)
  | 1 => return stakeDeregistration (← decode)
  | 2 => return stakeDelegation (← decode) (← decode)
  | 3 => return poolRegistration (← PoolParameters.decodeFields)
  | 4 => return poolRetirement (← decode) (← decode)
  | 7 => return register (← decode) (← decode)
  | 8 => return deregister (← decode) (← decode)
  | 9 => return voteDelegation (← decode) (← decode)
  | 10 => return stakeVoteDelegation (← decode) (← decode) (← decode)
  | 11 => return registerStakeDelegation (← decode) (← decode) (← decode)
  | 12 => return registerVoteDelegation (← decode) (← decode) (← decode)
  | 13 => return registerStakeVoteDelegation (← decode) (← decode) (← decode) (← decode)
  | 14 => return authorizeCommitteeHot (← decode) (← decode)
  | 15 => return resignCommitteeCold (← decode) (← decode)
  | 16 => return registerDRep (← decode) (← decode) (← decode)
  | 17 => return deregisterDRep (← decode) (← decode)
  | _ => return updateDRep (← decode) (← decode)

instance : Cbor.Codec Certificate where
  encode certificate := Cbor.Union.encode certificate.code certificate.parts
  decode := do decodeParts (← Cbor.Union.decodeCode "Certificate" partCount)

end Certificate

end UtxoLedger
