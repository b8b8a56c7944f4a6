import UtxoLedger.Chain.Context
import UtxoLedger.Transaction.Basic

/-!
# A chain in memory

The chain is a map from addresses to the unspent outputs there, oldest first,
and the list of accepted transactions. A transaction is accepted when it
spends outputs that are there; nothing else is checked. It takes effect at
once and as a whole.
-/

namespace UtxoLedger

structure MemoryChain where
  parameters : ProtocolParameters
  network : Network
  slot : UInt64
  utxos : OrderedMap Address (List Utxo)
  /-- The ids of the accepted transactions, oldest first. -/
  submitted : List (Hash 32)

namespace MemoryChain

/-- The chain without outputs, at the first slot. -/
def empty (network : Network) (parameters : ProtocolParameters) : MemoryChain :=
  ⟨parameters, network, 0, .empty, []⟩

/-- Adds an output behind the others at its address. -/
def addUtxo (chain : MemoryChain) (utxo : Utxo) : MemoryChain :=
  { chain with
    utxos := chain.utxos.alter utxo.output.address fun found => some (found.getD [] ++ [utxo]) }

/-- All unspent outputs. -/
def allUtxos (chain : MemoryChain) : List Utxo := chain.utxos.values.flatten

/-- There is an unspent output of that name. -/
def knows (chain : MemoryChain) (input : TransactionInput) : Bool :=
  chain.allUtxos.any (·.input = input)

/-- The chain as seen by a builder. -/
def context (chain : MemoryChain) : ChainContext where
  parameters := .ok chain.parameters
  network := chain.network
  lastSlot := .ok chain.slot
  utxosAt address :=
    match chain.utxos.atPlace? address with
    | some utxos => .ok utxos
    | none => .error (.notFound address)

/-! ## Submission -/

/-- Removes outputs, all of which have to be there. -/
def spend (chain : MemoryChain) (inputs : List TransactionInput) :
    Except ChainError MemoryChain :=
  match inputs.find? (fun input => ¬ chain.knows input) with
  | some input => .error (.unknownInput input)
  | none =>
      .ok
        { chain with
          utxos := chain.utxos.mapValues fun _ utxos =>
            utxos.filter fun utxo => ¬ utxo.input ∈ inputs }

/-- The outputs of a transaction under their names, from a place on. -/
def namedOutputs (transaction : Hash 32) : (place : Nat) → List TransactionOutput → List Utxo
  | _, [] => []
  | place, output :: rest =>
      ⟨⟨transaction, UInt64.ofNat place⟩, output⟩ :: namedOutputs transaction (place + 1) rest

/-- Spends the inputs of a transaction and adds its outputs. -/
def accept (chain : MemoryChain) (transaction : Transaction) :
    Except ChainError (Hash 32 × MemoryChain) :=
  match chain.spend transaction.body.inputs.items with
  | .error error => .error error
  | .ok spent =>
      let id := transaction.id
      let paid := (namedOutputs id 0 transaction.body.outputs).foldl addUtxo spent
      .ok (id, { paid with submitted := paid.submitted ++ [id] })

/-- Accepts the transaction that the bytes encode. -/
def submit (chain : MemoryChain) (bytes : Bytes) : Except ChainError (Hash 32 × MemoryChain) :=
  match Cbor.decodeFragment Transaction bytes with
  | .error error => .error (.malformed error)
  | .ok transaction => chain.accept transaction

end MemoryChain

end UtxoLedger
