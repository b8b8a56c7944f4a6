import UtxoLedger.Build.Size
import UtxoLedger.Selection.Selector

/-!
# Funding a draft

The inputs of a draft may not cover what it asks for. The rest is selected
from the outputs at its input addresses; the selectors are asked in turn until
one succeeds. The inputs of the transaction are sorted and distinct.
-/

namespace UtxoLedger

/-- A prepared draft, and what it is balanced with. -/
structure Plan where
  draft : Draft
  parameters : ProtocolParameters
  changeAddress : Option Address

namespace Plan

/-- The change goes into an output that is there already. -/
def mergesChange (plan : Plan) : Bool :=
  plan.draft.options.mergeChange &&
    plan.changeAddress.any fun address => plan.draft.outputs.any (·.address = address)

def provided (plan : Plan) (inputs : List Utxo) : Value :=
  plan.draft.provided plan.parameters inputs

def requested (plan : Plan) : Value := plan.draft.requested plan.parameters

/-- The size and the fee before there is an estimate: the largest fee stands in the body. -/
def firstEstimate (plan : Plan) (inputs : List Utxo) : UInt64 × UInt64 :=
  plan.draft.estimate plan.parameters inputs plan.draft.outputs plan.parameters.maxFee

/-! ## What is missing -/

/-- The coin that a change output of its own needs to carry an amount, zero when there is to be
none. -/
def leastChange (plan : Plan) (amount : Value) : UInt64 :=
  match plan.changeAddress with
  | some address =>
      if plan.mergesChange then 0
      else (TransactionOutput.plain address amount).minCoin plan.parameters
  | none => 0

/-- The coin to select, where `missing` is requested beyond what is provided. A surplus has to
suffice for the change output. -/
def coinToSelect (missing : Int) (leastChange : UInt64) : UInt64 :=
  let coin := if missing < 0 then missing + leastChange.toNat else missing
  UInt64.ofNat coin.toNat

/-- What the inputs do not cover. -/
def unfulfilled (plan : Plan) (inputs : List Utxo) : Value :=
  let fee := (plan.firstEstimate inputs).2
  let requested := { plan.requested with coin := plan.requested.coin + fee }
  let provided := plan.provided inputs
  let wanted := provided.filter fun asset _ => requested.assets.get asset ≠ 0
  let unwanted := provided - wanted
  let missing : Int := requested.coin.toNat - wanted.coin.toNat
  { coin := coinToSelect missing (plan.leastChange unwanted)
    assets := (requested.assets - wanted.assets).positive }

/-! ## Selection -/

/-- Adds an output to the pool unless it is in use, excluded, or carries a script. -/
def addCandidate (draft : Draft) (pool : List Utxo) (utxo : Utxo) : List Utxo :=
  if (draft.inputs ++ pool).any (·.input = utxo.input) ||
      draft.excludedInputs.contains utxo.input || utxo.output.script.isSome then pool
  else pool ++ [utxo]

/-- Extends a pool by the outputs at the addresses that may be spent. -/
def poolFrom (draft : Draft) (context : ChainContext) (pool : List Utxo) :
    List Address → Except BuildError (List Utxo)
  | [] => .ok pool
  | address :: rest =>
      match context.utxosAt address with
      | .error error => .error (.chain error)
      | .ok utxos => poolFrom draft context (utxos.foldl (addCandidate draft) pool) rest

/-- The address of the change when there is one, and else one that takes its place. -/
def selectionAddress? (plan : Plan) : Option Address :=
  (plan.changeAddress.or plan.draft.inputAddresses.head?).or
    (plan.draft.outputs.head?.map (·.address))

/-- The request for what is missing. Provided assets that nothing asks for are at hand for the
change. -/
def request (plan : Plan) (address : Address) (unfulfilled : Value) : SelectionRequest where
  outputs := [.plain address unfulfilled]
  maxInputs := plan.draft.options.maxInputs.map UInt64.toNat
  includesMaxFee := false
  respectsMinimum := ¬ plan.mergesChange
  existing :=
    { coin := 0
      assets := (plan.provided plan.draft.inputs).assets.filter fun asset _ =>
        plan.requested.assets.get asset = 0 }

/-- Asks the selectors in turn until one succeeds. -/
def selectWith (plan : Plan) (request : SelectionRequest) (unfulfilled : Value)
    (pool : List Utxo) : List Selector → Traced Selection
  | [] => Traced.fail (.selection (.allFailed unfulfilled))
  | selector :: rest => do
      Traced.emit (.attempt selector.name pool.length)
      match (selector.select plan.parameters request pool).1 with
      | .ok selection => return selection
      | .error error =>
          Traced.emit (.failure selector.name error)
          selectWith plan request unfulfilled pool rest

/-- The outputs selected for what is missing. -/
def selectMissing (plan : Plan) (context : ChainContext) (selectors : List Selector)
    (unfulfilled : Value) : Traced (List Utxo) := do
  let draft := plan.draft
  if draft.inputs.isEmpty && draft.inputAddresses.isEmpty then Traced.fail .noInputs
  else
    let pool ← Traced.ofExcept (poolFrom draft context [] draft.inputAddresses)
    match plan.selectionAddress? with
    | none => Traced.fail .noInputs
    | some address =>
        let request := plan.request address unfulfilled
        return (← plan.selectWith request unfulfilled pool selectors).selected

/-! ## Inputs -/

/-- Drops each output that has the name of the one before it. -/
def dropRepeated (last : TransactionInput) : List Utxo → List Utxo
  | [] => []
  | utxo :: rest =>
      if utxo.input = last then dropRepeated last rest
      else utxo :: dropRepeated utxo.input rest

/-- The outputs by increasing name, one of each name. -/
def distinctInputs (utxos : List Utxo) : List Utxo :=
  match Ranked.sort utxos with
  | [] => []
  | first :: rest => first :: dropRepeated first.input rest

/-- The inputs of the transaction. -/
def fund (plan : Plan) (context : ChainContext) (selectors : List Selector) :
    Traced (List Utxo) := do
  let unfulfilled := plan.unfulfilled plan.draft.inputs
  let selected ←
    if unfulfilled.isZero then pure []
    else plan.selectMissing context selectors unfulfilled
  let inputs := distinctInputs (plan.draft.inputs ++ selected)
  if inputs.isEmpty then Traced.fail .noInputs
  else return inputs

end Plan

end UtxoLedger
