import UtxoLedger.Build.Funding
import UtxoLedger.Transaction.Signing

/-!
# Balancing a draft

The change depends on the fee, the fee on the size, and the size on the
change. The fee is estimated in a few passes, each with the fee of the pass
before, until a pass confirms it. Without a change address all coin that is
left over is the fee.
-/

namespace UtxoLedger

namespace Plan

/-! ## Change -/

/-- Adds an amount to the first output at an address. -/
def addToFirst? (address : Address) (amount : Value) :
    List TransactionOutput → Option (List TransactionOutput)
  | [] => none
  | output :: rest =>
      if output.address = address then
        some ({ output with amount := output.amount + amount } :: rest)
      else (addToFirst? address amount rest).map (output :: ·)

/-- The outputs with the change, in an output that is there or in a new one at the end. -/
def placeChange (plan : Plan) (address : Address) (change : Value) :
    Except BuildError (List TransactionOutput) :=
  let outputs := plan.draft.outputs
  if change.isZero then .ok outputs
  else
    match if plan.mergesChange then addToFirst? address change outputs else none with
    | some merged => .ok merged
    | none =>
        let output := TransactionOutput.plain address change
        let least := output.minCoin plan.parameters
        if change.coin < least then .error (.insufficientChange change.coin least)
        else .ok (outputs ++ [output])

/-- The outputs with what a fee leaves of the inputs. -/
def outputsWithChange (plan : Plan) (inputs : List Utxo) (address : Address) (fee : UInt64) :
    Traced (List TransactionOutput) := do
  let requested := { plan.requested with coin := plan.requested.coin.saturatingAdd fee }
  let change ← Traced.ofExcept (changeOf (plan.provided inputs) requested)
  Traced.emit (.change change)
  Traced.ofExcept (plan.placeChange address change)

/-! ## Fee -/

/-- The outputs and the fee of a transaction. -/
structure Balance where
  outputs : List TransactionOutput
  fee : UInt64

/-- How many passes may follow the second one. -/
def laterPasses : Nat := 3

/-- Makes passes until one confirms the estimate of the pass before. The last pass is content
with the larger of the two. -/
def settleFee (plan : Plan) (inputs : List Utxo) (address : Address) (pass : Nat)
    (estimate : UInt64) (later : Nat) : Traced Balance := do
  let outputs ← plan.outputsWithChange inputs address estimate
  let (size, next) := plan.draft.estimate plan.parameters inputs outputs estimate
  if pass = 2 || next ≠ estimate then Traced.emit (.feePass pass size next)
  if next = estimate then return ⟨outputs, next⟩
  else
    match later with
    | 0 =>
        let fee := max next estimate
        return ⟨← plan.outputsWithChange inputs address fee, fee⟩
    | fewer + 1 => plan.settleFee inputs address (pass + 1) next fewer

/-- The outputs and the fee of the transaction that spends the inputs. -/
def balance (plan : Plan) (inputs : List Utxo) : Traced Balance := do
  let (size, estimate) := plan.firstEstimate inputs
  Traced.emit (.feePass 1 size estimate)
  match plan.changeAddress with
  | some address => plan.settleFee inputs address 2 estimate laterPasses
  | none =>
      let fee ← Traced.ofExcept (surplusFee (plan.provided inputs) plan.requested estimate)
      return ⟨plan.draft.outputs, fee⟩

/-! ## Transaction -/

/-- The transaction with the given balance, unless it is too large. -/
def finish (plan : Plan) (inputs : List Utxo) (balance : Balance) : Traced BuiltTransaction := do
  let body := plan.draft.body inputs balance.outputs balance.fee
  let size := plan.draft.signedSize inputs body
  if plan.parameters.maxTxSize < size then
    Traced.fail (.sizeExceeded size plan.parameters.maxTxSize)
  else
    Traced.emit (.balanced size balance.fee)
    Traced.emit (.stage .finalized)
    return ⟨body, plan.draft.witnesses, plan.draft.auxiliaryData⟩

end Plan

namespace Draft

/-- A transaction without signatures, and the keys that have to sign it. -/
structure Result where
  built : BuiltTransaction
  signers : OrderedSet (Hash 28)

/-- Builds the transaction of a draft. The change goes to the given address. -/
def build (draft : Draft) (context : ChainContext) (selectors : List Selector)
    (changeAddress : Option Address) : Traced Result := do
  Traced.emit (.stage .accumulating)
  let parameters ← Traced.ofExcept (context.parameters.mapError .chain)
  let prepared ← Traced.ofExcept (draft.prepare context parameters)
  let plan : Plan := ⟨prepared, parameters, changeAddress⟩
  Traced.emit (.stage .balancing)
  let inputs ← plan.fund context selectors
  let balance ← plan.balance inputs
  let built ← plan.finish inputs balance
  return ⟨built, prepared.signers inputs⟩

/-- Signs with the key when the transaction needs its signature. -/
def Result.sign (result : Result) (key : Ed25519.SecretKey) : Result :=
  if result.signers.toList.contains key.publicKey.hash then
    { result with built := result.built.sign key }
  else result

/-- Builds the transaction of a draft and signs it with those of the keys that it needs. -/
def buildAndSign (draft : Draft) (context : ChainContext) (selectors : List Selector)
    (changeAddress : Option Address) (keys : List Ed25519.SecretKey) : Traced Transaction := do
  let result ← draft.build context selectors changeAddress
  return (keys.foldl Result.sign result).built.toTransaction

end Draft

end UtxoLedger
