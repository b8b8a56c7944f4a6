import UtxoLedger.Address.Binary
import UtxoLedger.Governance.Voting
import UtxoLedger.Rational

/-!
# Governance actions

What can be proposed: changes of parameters, of the protocol version, of the
committee or the constitution, withdrawals from the treasury, or information
alone. A proposal locks a deposit and names the account it returns to.
-/

namespace UtxoLedger

/-- A constitution and the script that guards it. -/
structure Constitution where
  anchor : Anchor
  guardrailScript : Option (Hash 28)
  deriving DecidableEq

instance : Cbor.Codec Constitution where
  encode constitution := Cbor.encode (constitution.anchor, constitution.guardrailScript)
  decode := (fun pair : Anchor × Option (Hash 28) => ⟨pair.1, pair.2⟩) <$> Cbor.decode

/-- What is proposed. Changes of parameters are carried as one opaque item. -/
inductive GovAction where
  | parameterChange (previous : Option GovActionId) (update : Cbor.RawItem)
      (policy : Option (Hash 28))
  | hardForkInitiation (previous : Option GovActionId) (version : UInt64 × UInt64)
  | treasuryWithdrawals (withdrawals : OrderedMap StakeAddress UInt64) (policy : Option (Hash 28))
  | noConfidence (previous : Option GovActionId)
  | updateCommittee (previous : Option GovActionId) (removed : Cbor.WireSet Credential)
      (added : OrderedMap Credential UInt64) (threshold : Rational)
  | newConstitution (previous : Option GovActionId) (constitution : Constitution)
  | information
  deriving DecidableEq

namespace GovAction

/-- The number of parts behind each code. -/
def partCount (code : Nat) : Option Nat :=
  match code with
  | 0 => some 3
  | 1 => some 2
  | 2 => some 2
  | 3 => some 1
  | 4 => some 4
  | 5 => some 2
  | 6 => some 0
  | _ => none

open Cbor in
instance : Codec GovAction where
  encode
    | parameterChange previous update policy =>
        Union.encode 0 [encode previous, encode update, encode policy]
    | hardForkInitiation previous version => Union.encode 1 [encode previous, encode version]
    | treasuryWithdrawals withdrawals policy =>
        Union.encode 2 [encode withdrawals, encode policy]
    | noConfidence previous => Union.encode 3 [encode previous]
    | updateCommittee previous removed added threshold =>
        Union.encode 4 [encode previous, encode removed, encode added, encode threshold]
    | newConstitution previous constitution =>
        Union.encode 5 [encode previous, encode constitution]
    | information => Union.encode 6 []
  decode := do
    match ← Union.decodeCode "GovAction" partCount with
    | 0 => return parameterChange (← decode) (← decode) (← decode)
    | 1 => return hardForkInitiation (← decode) (← decode)
    | 2 => return treasuryWithdrawals (← decode) (← decode)
    | 3 => return noConfidence (← decode)
    | 4 => return updateCommittee (← decode) (← decode) (← decode) (← decode)
    | 5 => return newConstitution (← decode) (← decode)
    | _ => return information

end GovAction

/-- A proposal and its deposit. -/
structure ProposalProcedure where
  deposit : UInt64
  rewardAccount : StakeAddress
  action : GovAction
  anchor : Anchor
  deriving DecidableEq

open Cbor in
instance : Codec ProposalProcedure where
  encode proposal :=
    Positional.encode
      [encode proposal.deposit, encode proposal.rewardAccount, encode proposal.action,
        encode proposal.anchor]
  decode := do
    let (deposit, left) ← Positional.next 0 (← Positional.start)
    let (rewardAccount, left) ← Positional.next 1 left
    let (action, left) ← Positional.next 2 left
    let (anchor, left) ← Positional.next 3 left
    Positional.finish left
    return ⟨deposit, rewardAccount, action, anchor⟩

end UtxoLedger
