import UtxoLedger.Address.Text
import UtxoLedger.Failure
import UtxoLedger.Parameters
import UtxoLedger.Transaction.Output

/-!
# Views of a chain

What building a transaction needs to know of a chain: its parameters, its
latest slot, and the unspent outputs at an address. Each question may fail.
-/

namespace UtxoLedger

/-- Why a chain did not answer or refused a transaction. -/
inductive ChainError where
  /-- The address was never paid. -/
  | notFound (address : Address)
  /-- The bytes are not a transaction. -/
  | malformed (error : Cbor.FragmentError)
  /-- The transaction spends an output that is not there. -/
  | unknownInput (input : TransactionInput)
  | backend (reason : String)

namespace ChainError

def message : ChainError → String
  | notFound address => s!"nothing known about {address.text}"
  | malformed error => s!"transaction rejected: {error.message}"
  | unknownInput input => s!"transaction rejected: unknown input {input.text}"
  | backend reason => s!"chain backend failure: {reason}"

instance : Failure ChainError where
  name
    | notFound _ => "Chain.NotFound"
    | malformed _ => "Chain.Submission"
    | unknownInput _ => "Chain.Submission"
    | backend _ => "Chain.Backend"
  message := message

end ChainError

/-- The answers of a chain at one moment. -/
structure ChainContext where
  parameters : Except ChainError ProtocolParameters
  network : Network
  lastSlot : Except ChainError UInt64
  utxosAt : Address → Except ChainError (List Utxo)

namespace ChainContext

/-- An output of the transaction lies at the address. The chain is asked up to the given number
of times; an address that it does not know is no failure. -/
def isConfirmed (context : ChainContext) (address : Address) (transaction : Hash 32) :
    (attempts : Nat) → Except ChainError Bool
  | 0 => .ok false
  | attempts + 1 =>
      match context.utxosAt address with
      | .ok utxos =>
          if utxos.any (·.input.transaction = transaction) then .ok true
          else isConfirmed context address transaction attempts
      | .error (.notFound _) => isConfirmed context address transaction attempts
      | .error error => .error error

end ChainContext

end UtxoLedger
