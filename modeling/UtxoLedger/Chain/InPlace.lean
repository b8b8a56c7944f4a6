import UtxoLedger.Chain.Memory

/-!
# Submission in place

The chain as a store that a submission changes step by step. What a step has
changed stays changed when a later step fails, so a submission takes effect as
a whole only because every check comes before the first change.
-/

namespace UtxoLedger

/-- A procedure that changes a chain and may fail on the way. -/
abbrev ChainProcedure (α : Type) : Type := ExceptT ChainError (StateM MemoryChain) α

namespace ChainProcedure

variable {α β : Type}

/-- The outcome of a procedure and the chain that it leaves. -/
def runOn (procedure : ChainProcedure α) (chain : MemoryChain) :
    Except ChainError α × MemoryChain :=
  (ExceptT.run procedure).run chain

theorem runOn_bind (first : ChainProcedure α) (next : α → ChainProcedure β)
    (chain : MemoryChain) :
    (first >>= next).runOn chain =
      match first.runOn chain with
      | (.ok value, middle) => (next value).runOn middle
      | (.error error, middle) => (.error error, middle) := by
  change (ExceptT.bindCont next (first.runOn chain).1 : StateM MemoryChain (Except ChainError β))
    (first.runOn chain).2 = _
  obtain ⟨outcome, middle⟩ := first.runOn chain
  cases outcome <;> rfl

end ChainProcedure

namespace MemoryChain

/-- Stops at the first input that the chain does not know. -/
def checkKnown : List TransactionInput → ChainProcedure Unit
  | [] => pure ()
  | input :: rest => do
      if (← get).knows input then checkKnown rest
      else throw (.unknownInput input)

/-- Takes the outputs of those names out of every list. -/
def takeOut (inputs : List TransactionInput) : ChainProcedure Unit :=
  modify fun chain =>
    { chain with
      utxos := chain.utxos.mapValues fun _ utxos =>
        utxos.filter fun utxo => ¬ utxo.input ∈ inputs }

/-- Adds the outputs of a transaction one by one, from a place on. -/
def payOut (transaction : Hash 32) : (place : Nat) → List TransactionOutput → ChainProcedure Unit
  | _, [] => pure ()
  | place, output :: rest => do
      modify fun chain => chain.addUtxo ⟨⟨transaction, UInt64.ofNat place⟩, output⟩
      payOut transaction (place + 1) rest

/-- Records an accepted transaction. -/
def record (transaction : Hash 32) : ChainProcedure Unit :=
  modify fun chain => { chain with submitted := chain.submitted ++ [transaction] }

def acceptInPlace (transaction : Transaction) : ChainProcedure (Hash 32) := do
  let inputs := transaction.body.inputs.items
  let id := transaction.id
  checkKnown inputs
  takeOut inputs
  payOut id 0 transaction.body.outputs
  record id
  return id

def submitInPlace (bytes : Bytes) : ChainProcedure (Hash 32) :=
  match Cbor.decodeFragment Transaction bytes with
  | .error error => throw (.malformed error)
  | .ok transaction => acceptInPlace transaction

/-! ## Runs -/

theorem runOn_checkKnown (inputs : List TransactionInput) (chain : MemoryChain) :
    (checkKnown inputs).runOn chain =
      match inputs.find? (fun input => ¬ chain.knows input) with
      | some input => (.error (.unknownInput input), chain)
      | none => (.ok (), chain) := by
  induction inputs with
  | nil => rfl
  | cons input rest ih =>
      by_cases known : chain.knows input
      · have skipped : (checkKnown (input :: rest)).runOn chain = (checkKnown rest).runOn chain := by
          change (if chain.knows input then checkKnown rest
            else throw (.unknownInput input) : ChainProcedure Unit).runOn chain = _
          rw [if_pos known]
        rw [skipped, ih, List.find?_cons_of_neg (by simpa using known)]
      · have stopped : (checkKnown (input :: rest)).runOn chain =
            (.error (.unknownInput input), chain) := by
          change (if chain.knows input then checkKnown rest
            else throw (.unknownInput input) : ChainProcedure Unit).runOn chain = _
          rw [if_neg known]
          rfl
        rw [stopped, List.find?_cons_of_pos (by simpa using known)]

theorem runOn_takeOut (inputs : List TransactionInput) (chain : MemoryChain) :
    (takeOut inputs).runOn chain =
      (.ok (), { chain with
        utxos := chain.utxos.mapValues fun _ utxos =>
          utxos.filter fun utxo => ¬ utxo.input ∈ inputs }) := rfl

theorem runOn_payOut (transaction : Hash 32) (place : Nat) (outputs : List TransactionOutput)
    (chain : MemoryChain) :
    (payOut transaction place outputs).runOn chain =
      (.ok (), (namedOutputs transaction place outputs).foldl addUtxo chain) := by
  induction outputs generalizing place chain with
  | nil => rfl
  | cons output rest ih => exact ih (place + 1) _

/-- A submission in place leaves the chain as it was or the chain of the accepted transaction. -/
theorem runOn_submitInPlace (bytes : Bytes) (chain : MemoryChain) :
    (submitInPlace bytes).runOn chain =
      match chain.submit bytes with
      | .ok (id, after) => (.ok id, after)
      | .error error => (.error error, chain) := by
  unfold submitInPlace submit
  cases Cbor.decodeFragment Transaction bytes with
  | error error => rfl
  | ok transaction =>
      dsimp only
      unfold acceptInPlace accept spend
      rw [ChainProcedure.runOn_bind, runOn_checkKnown]
      cases transaction.body.inputs.items.find? (fun input => ¬ chain.knows input) with
      | some input => rfl
      | none =>
          dsimp only
          rw [ChainProcedure.runOn_bind, runOn_takeOut]
          dsimp only
          rw [ChainProcedure.runOn_bind, runOn_payOut]
          rfl

end MemoryChain

end UtxoLedger
