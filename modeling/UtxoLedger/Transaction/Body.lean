import UtxoLedger.Certificate
import UtxoLedger.Governance.Action
import UtxoLedger.Transaction.Output

/-!
# Transaction bodies

The body of a transaction is what its signers sign: the outputs it spends and
makes, its fee, and everything else it does. Its hash is the id of the
transaction.
-/

namespace UtxoLedger

/-- Amounts withdrawn from reward accounts. -/
abbrev Withdrawals := OrderedMap StakeAddress UInt64

structure TransactionBody where
  inputs : Cbor.WireSet TransactionInput
  outputs : List TransactionOutput
  fee : UInt64
  timeToLive : Option UInt64
  certificates : Option (Cbor.WireSet Certificate)
  withdrawals : Option Withdrawals
  auxiliaryDataHash : Option (Hash 32)
  validityStart : Option UInt64
  mint : Option MultiAsset
  scriptDataHash : Option (Hash 32)
  collateral : Option (Cbor.WireSet TransactionInput)
  requiredSigners : Option (Cbor.WireSet (Hash 28))
  network : Option NetworkId
  collateralReturn : Option TransactionOutput
  totalCollateral : Option UInt64
  referenceInputs : Option (Cbor.WireSet TransactionInput)
  votingProcedures : Option VotingProcedures
  proposals : Option (Cbor.WireSet ProposalProcedure)
  treasuryValue : Option UInt64
  donation : Option UInt64

namespace TransactionBody

/-- A body with inputs, outputs and a fee alone. -/
def plain (inputs : List TransactionInput) (outputs : List TransactionOutput) (fee : UInt64) :
    TransactionBody where
  inputs := .plain inputs
  outputs := outputs
  fee := fee
  timeToLive := none
  certificates := none
  withdrawals := none
  auxiliaryDataHash := none
  validityStart := none
  mint := none
  scriptDataHash := none
  collateral := none
  requiredSigners := none
  network := none
  collateralReturn := none
  totalCollateral := none
  referenceInputs := none
  votingProcedures := none
  proposals := none
  treasuryValue := none
  donation := none

/-- The body that a map is read onto. -/
def blank : TransactionBody := plain [] [] 0

open Cbor in
/-- The keys of a body. -/
def record : Record TransactionBody where
  name := "transaction body"
  entries :=
    [.mandatory 0 "inputs" inputs fun body found => { body with inputs := found },
      .mandatory 1 "outputs" outputs fun body found => { body with outputs := found },
      .mandatory 2 "fee" fee fun body found => { body with fee := found },
      .optional 3 "ttl" timeToLive fun body found => { body with timeToLive := found },
      .optional 4 "certificates" certificates
        fun body found => { body with certificates := found },
      .optional 5 "withdrawals" withdrawals fun body found => { body with withdrawals := found },
      .optional 7 "auxiliary_data_hash" auxiliaryDataHash
        fun body found => { body with auxiliaryDataHash := found },
      .optional 8 "validity_interval_start" validityStart
        fun body found => { body with validityStart := found },
      .optional 9 "mint" mint fun body found => { body with mint := found },
      .optional 11 "script_data_hash" scriptDataHash
        fun body found => { body with scriptDataHash := found },
      .optional 13 "collateral" collateral fun body found => { body with collateral := found },
      .optional 14 "required_signers" requiredSigners
        fun body found => { body with requiredSigners := found },
      .optional 15 "network_id" network fun body found => { body with network := found },
      .optional 16 "collateral_return" collateralReturn
        fun body found => { body with collateralReturn := found },
      .optional 17 "total_collateral" totalCollateral
        fun body found => { body with totalCollateral := found },
      .optional 18 "reference_inputs" referenceInputs
        fun body found => { body with referenceInputs := found },
      .optional 19 "voting_procedures" votingProcedures
        fun body found => { body with votingProcedures := found },
      .optional 20 "proposal_procedures" proposals
        fun body found => { body with proposals := found },
      .optional 21 "treasury_value" treasuryValue
        fun body found => { body with treasuryValue := found },
      .optional 22 "donation" donation fun body found => { body with donation := found }]
  distinct := by decide

instance : Cbor.Codec TransactionBody where
  encode := record.encode
  decode := record.decode blank

/-- The id of the transaction. -/
def hash (body : TransactionBody) : Hash 32 := .blake256 (Cbor.encode body)

end TransactionBody

end UtxoLedger
