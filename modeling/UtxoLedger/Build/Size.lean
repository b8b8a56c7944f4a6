import UtxoLedger.Build.Amounts
import UtxoLedger.Transaction.Basic

/-!
# The size of a signed transaction

The fee depends on the size of the transaction with its signatures, which are
not there yet. The size is taken with placeholders, one for each key that has
to sign.
-/

namespace UtxoLedger

/-! ## Keys that have to sign -/

/-- The key that has to witness a certificate. -/
def Certificate.signer? : Certificate → Option (Hash 28)
  | .poolRegistration parameters => some parameters.operator
  | .poolRetirement pool _ => some pool
  | .authorizeCommitteeHot _ _ => none
  | .resignCommitteeCold _ _ => none
  | .deregisterDRep _ _ => none
  | .updateDRep _ _ => none
  | certificate => certificate.credential?.bind (·.keyHash?)

namespace Draft

/-- The keys that have to sign a transaction that spends the inputs. -/
def signers (draft : Draft) (inputs : List Utxo) : OrderedSet (Hash 28) :=
  .ofList
    (inputs.filterMap (·.output.address.paymentKeyHash?) ++ draft.requiredSigners ++
      draft.nativeScripts.flatMap (·.keys) ++ draft.certificates.filterMap (·.signer?) ++
      draft.withdrawals.keys.filterMap (·.credential.keyHash?) ++
      draft.votes.keys.filterMap (·.keyHash?))

end Draft

/-! ## Placeholders -/

namespace Placeholder

/-- The number of a placeholder as a mask of 32 bytes. -/
def mask (number : Nat) : Bytes := List.replicate 24 0 ++ Bytes.ofNat 8 number

theorem length_mask (number : Nat) : (mask number).length = 32 := by
  simp [mask, Bytes.length_ofNat]

def keyPattern : Bytes :=
  [0x57, 0x97, 0xdc, 0x2c, 0xc9, 0x19, 0xdf, 0xec, 0x0b, 0xb8, 0x49, 0x55, 0x1e, 0xbd, 0xf3, 0x0d,
    0x96, 0xe5, 0xcb, 0xe0, 0xf3, 0x3f, 0x73, 0x4a, 0x87, 0xfe, 0x82, 0x6d, 0xb3, 0x0f, 0x7e, 0xf9]

def signaturePattern : Bytes :=
  [0x57, 0x7c, 0xcb, 0x5b, 0x48, 0x7b, 0x64, 0xe3, 0x96, 0xb0, 0x97, 0x6c, 0x6f, 0x71, 0x55, 0x8e,
    0x52, 0xe4, 0x4a, 0xd2, 0x54, 0xdb, 0x7d, 0x06, 0xdf, 0xb7, 0x98, 0x43, 0xe5, 0x44, 0x1a, 0x5d,
    0x76, 0x3d, 0xd4, 0x2a, 0xdc, 0xf5, 0xe8, 0x80, 0x5d, 0x70, 0x37, 0x37, 0x22, 0xeb, 0xbc, 0xe6,
    0x2a, 0x58, 0xe3, 0xf3, 0x0d, 0xd4, 0x56, 0x0b, 0x9a, 0x89, 0x8b, 0x8c, 0xee, 0xab, 0x6a, 0x03]

/-- A signature as large as a real one. -/
def signature (number : Nat) : KeyWitness where
  key := ⟨⟨keyPattern.and (mask number), by
    simp [Bytes.and, length_mask, keyPattern]⟩⟩
  signature := ⟨⟨signaturePattern.and (mask number ++ mask number), by
    simp [Bytes.and, length_mask, signaturePattern]⟩⟩

/-- The given number of signatures. -/
def signatures (count : Nat) : List KeyWitness := (List.range count).map signature

end Placeholder

/-! ## Body, size and fee -/

namespace Draft

/-- The body of a transaction with the given inputs, outputs and fee. -/
def body (draft : Draft) (inputs : List Utxo) (outputs : List TransactionOutput) (fee : UInt64) :
    TransactionBody :=
  { TransactionBody.plain (inputs.map (·.input)) outputs fee with
    timeToLive := draft.timeToLive
    validityStart := draft.validityStart
    certificates := Cbor.WireSet.nonEmpty? draft.certificates
    withdrawals := if draft.withdrawals.isEmpty then none else some draft.withdrawals
    auxiliaryDataHash := draft.auxiliaryData.map AuxiliaryData.hash
    mint := if draft.mint.isEmpty then none else some draft.mint
    requiredSigners := Cbor.WireSet.nonEmpty? draft.requiredSigners
    referenceInputs := Cbor.WireSet.nonEmpty? draft.referenceInputs
    votingProcedures := if draft.votes.isEmpty then none else some draft.votes
    proposals := Cbor.WireSet.nonEmpty? draft.proposals
    treasuryValue := draft.treasuryValue
    donation := draft.donation }

/-- The witnesses that the draft brings itself. -/
def witnesses (draft : Draft) : WitnessSet :=
  { WitnessSet.empty with nativeScripts := Cbor.WireSet.nonEmpty? draft.nativeScripts }

/-- The number of signatures to expect. -/
def signatureCount (draft : Draft) (inputs : List Utxo) : Nat :=
  match draft.options.signatureCount with
  | some count => count.toNat
  | none => (draft.signers inputs).size

/-- The transaction with placeholders for its signatures. -/
def placeholderTransaction (draft : Draft) (inputs : List Utxo) (body : TransactionBody) :
    Transaction where
  body := body
  witnesses :=
    { draft.witnesses with
      keys := Cbor.WireSet.nonEmpty? (Placeholder.signatures (draft.signatureCount inputs)) }
  isSuccess := true
  auxiliaryData := draft.auxiliaryData

/-- The size of the transaction once it is signed. -/
def signedSize (draft : Draft) (inputs : List Utxo) (body : TransactionBody) : UInt64 :=
  UInt64.ofNat (Cbor.encode (draft.placeholderTransaction inputs body)).length

/-- The size and the fee of the transaction with the given outputs, when `bodyFee` stands in the
body. -/
def estimate (draft : Draft) (parameters : ProtocolParameters) (inputs : List Utxo)
    (outputs : List TransactionOutput) (bodyFee : UInt64) : UInt64 × UInt64 :=
  let size := draft.signedSize inputs (draft.body inputs outputs bodyFee)
  (size, parameters.fee size 0 0 + draft.options.feeBuffer)

end Draft

end UtxoLedger
