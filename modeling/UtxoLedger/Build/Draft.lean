import UtxoLedger.Build.Options
import UtxoLedger.Build.Trace
import UtxoLedger.Metadata.Auxiliary
import UtxoLedger.Token
import UtxoLedger.Transaction.Body

/-!
# Drafts

A draft collects what a transaction is to do. Before it is balanced, its
tokens become mints, scripts and metadata, its validity is set where it has
to be, and outputs without coin get the least coin they need.
-/

namespace UtxoLedger

structure Draft where
  options : BuildOptions
  inputs : List Utxo
  /-- The addresses from which further inputs may be selected. -/
  inputAddresses : List Address
  excludedInputs : List TransactionInput
  referenceInputs : List TransactionInput
  outputs : List TransactionOutput
  mint : MultiAsset
  tokens : List Token
  nativeScripts : List NativeScript
  auxiliaryData : Option AuxiliaryData
  certificates : List Certificate
  withdrawals : Withdrawals
  requiredSigners : List (Hash 28)
  timeToLive : Option UInt64
  validityStart : Option UInt64
  votes : VotingProcedures
  proposals : List ProposalProcedure
  treasuryValue : Option UInt64
  donation : Option UInt64

namespace Draft

def empty : Draft where
  options := .preset
  inputs := []
  inputAddresses := []
  excludedInputs := []
  referenceInputs := []
  outputs := []
  mint := .empty
  tokens := []
  nativeScripts := []
  auxiliaryData := none
  certificates := []
  withdrawals := .empty
  requiredSigners := []
  timeToLive := none
  validityStart := none
  votes := .empty
  proposals := []
  treasuryValue := none
  donation := none

/-! ## Collecting -/

def addInput (draft : Draft) (utxo : Utxo) : Draft :=
  { draft with inputs := draft.inputs ++ [utxo] }

def addInputAddress (draft : Draft) (address : Address) : Draft :=
  { draft with inputAddresses := draft.inputAddresses ++ [address] }

def excludeInput (draft : Draft) (input : TransactionInput) : Draft :=
  { draft with excludedInputs := draft.excludedInputs ++ [input] }

def addReferenceInput (draft : Draft) (input : TransactionInput) : Draft :=
  { draft with referenceInputs := draft.referenceInputs ++ [input] }

def addOutput (draft : Draft) (output : TransactionOutput) : Draft :=
  { draft with outputs := draft.outputs ++ [output] }

/-- Mints the quantities above zero and burns those below. -/
def addMint (draft : Draft) (assets : MultiAsset) : Draft :=
  { draft with mint := draft.mint + assets }

def addToken (draft : Draft) (token : Token) : Draft :=
  { draft with tokens := draft.tokens ++ [token] }

/-- Adds a script that is not there yet. -/
def addNativeScript (draft : Draft) (script : NativeScript) : Draft :=
  if script ∈ draft.nativeScripts then draft
  else { draft with nativeScripts := draft.nativeScripts ++ [script] }

def setAuxiliaryData (draft : Draft) (data : AuxiliaryData) : Draft :=
  { draft with auxiliaryData := some data }

/-- Sets the metadata under a label. -/
def addMetadata (draft : Draft) (label : UInt64) (value : Metadatum) : Draft :=
  let data := draft.auxiliaryData.getD (.ofMetadata (.definite []))
  draft.setAuxiliaryData (data.mergeMetadata [(label, value)])

def addCertificate (draft : Draft) (certificate : Certificate) : Draft :=
  { draft with certificates := draft.certificates ++ [certificate] }

/-- Withdraws an amount from an account, in the place of an earlier amount. -/
def setWithdrawal (draft : Draft) (account : StakeAddress) (amount : UInt64) : Draft :=
  { draft with withdrawals := draft.withdrawals.insert account amount }

def requireSigner (draft : Draft) (signer : Hash 28) : Draft :=
  { draft with requiredSigners := draft.requiredSigners ++ [signer] }

def setValidityStart (draft : Draft) (slot : UInt64) : Draft :=
  { draft with validityStart := some slot }

def setTimeToLive (draft : Draft) (slot : UInt64) : Draft :=
  { draft with timeToLive := some slot }

/-- Votes on an action, in the place of an earlier vote of the same voter on it. -/
def setVote (draft : Draft) (voter : Voter) (action : GovActionId)
    (procedure : VotingProcedure) : Draft :=
  { draft with
    votes := draft.votes.alter voter fun found =>
      some ((found.getD .empty).insert action procedure) }

def addProposal (draft : Draft) (proposal : ProposalProcedure) : Draft :=
  { draft with proposals := draft.proposals ++ [proposal] }

def setTreasuryValue (draft : Draft) (value : UInt64) : Draft :=
  { draft with treasuryValue := some value }

def setDonation (draft : Draft) (amount : UInt64) : Draft :=
  { draft with donation := some amount }

/-! ## Preparation -/

/-- Refuses a donation of nothing and an input that is excluded. -/
def check (draft : Draft) : Except BuildError Unit :=
  if draft.donation = some 0 then .error .treasuryDonation
  else
    match draft.inputs.find? fun utxo => utxo.input ∈ draft.excludedInputs with
    | some conflict => .error (.inputConflict conflict.input)
    | none => .ok ()

/-- Turns the tokens into a mint, the scripts of their policies and their metadata. -/
def withTokens (draft : Draft) : Except BuildError Draft :=
  match Token.metadataEntry draft.tokens with
  | .error error => .error (.metadata error)
  | .ok entry =>
      let minting := { draft with tokens := [], mint := draft.mint + Token.mint draft.tokens }
      let scripted :=
        (draft.tokens.filterMap (·.policy.script?)).foldl addNativeScript minting
      match entry with
      | some (label, value) => .ok (scripted.addMetadata label value)
      | none => .ok scripted

/-- The start of validity relative to the latest slot when there are scripts. -/
def scriptStartOffset : Int64 := -1000

/-- The end of validity relative to the latest slot when there are scripts. -/
def scriptEndOffset : Int64 := 10000

/-- The slot at a distance from another one, the first slot at the least. -/
def slotAt (slot : UInt64) (offset : Int64) : UInt64 :=
  let moved := slot.toInt64.saturatingAdd offset
  if moved < 0 then 0 else moved.toUInt64

/-- The offset at which a bound of the validity has to be set: one is configured or there are
scripts, and the bound is not given. -/
def boundOffset (draft : Draft) (configured : Option Int64) (usual : Int64)
    (given : Option UInt64) : Option Int64 :=
  if given.isSome then none
  else if configured.isSome then configured
  else if draft.nativeScripts.isEmpty then none
  else some usual

/-- Sets the bounds of the validity that have to be set. -/
def withValidity (draft : Draft) (context : ChainContext) : Except BuildError Draft :=
  let start :=
    draft.boundOffset draft.options.validityStartOffset scriptStartOffset draft.validityStart
  let stop := draft.boundOffset draft.options.timeToLiveOffset scriptEndOffset draft.timeToLive
  if start.isNone && stop.isNone then .ok draft
  else
    match context.lastSlot with
    | .error error => .error (.chain error)
    | .ok slot =>
        .ok
          { draft with
            validityStart := (start.map (slotAt slot)).or draft.validityStart
            timeToLive := (stop.map (slotAt slot)).or draft.timeToLive }

/-- Gives outputs without coin the least coin they need, and refuses those with less. Places are
counted from the given one on. -/
def fillOutputs (parameters : ProtocolParameters) :
    (place : Nat) → List TransactionOutput → Except BuildError (List TransactionOutput)
  | _, [] => .ok []
  | place, output :: rest =>
      let least := output.minCoin parameters
      if output.amount.coin ≠ 0 && output.amount.coin < least then
        .error (.outputBelowMinimum place output.amount.coin least)
      else
        let coin := if output.amount.coin = 0 then least else output.amount.coin
        let filled := { output with amount := { output.amount with coin := coin } }
        match fillOutputs parameters (place + 1) rest with
        | .error error => .error error
        | .ok others => .ok (filled :: others)

def withLeastCoin (draft : Draft) (parameters : ProtocolParameters) : Except BuildError Draft :=
  match fillOutputs parameters 0 draft.outputs with
  | .error error => .error error
  | .ok outputs => .ok { draft with outputs := outputs }

/-- The draft that is balanced. -/
def prepare (draft : Draft) (context : ChainContext) (parameters : ProtocolParameters) :
    Except BuildError Draft := do
  draft.check
  let minting ← draft.withTokens
  let bounded ← minting.withValidity context
  bounded.withLeastCoin parameters

end Draft

end UtxoLedger
