import UtxoLedger.Metadata.Auxiliary
import UtxoLedger.Transaction.Body
import UtxoLedger.Transaction.Witness

/-!
# Transactions

A transaction is a body, its witnesses, whether its scripts succeed, and
auxiliary data. The mark of success may be left out of the wire form.
-/

namespace UtxoLedger

structure Transaction where
  body : TransactionBody
  witnesses : WitnessSet
  isSuccess : Bool
  auxiliaryData : Option AuxiliaryData

namespace Transaction

def id (transaction : Transaction) : Hash 32 := transaction.body.hash

open Cbor in
/-- Reads the mark of success, which an array of three does not have. -/
def decodeSuccess (start : Nat) : Option Nat → Decoder Bool
  | some 4 => decode
  | some 3 => pure true
  | some length =>
      Decoder.failAt start
        (.rejected s!"transaction expects 3 or 4 elements, found {length}")
  | none => Decoder.failAt start (.indefiniteArray "transaction")

open Cbor in
instance : Codec Transaction where
  encode transaction :=
    Encoder.array 4 ++ encode transaction.body ++ encode transaction.witnesses ++
      encode transaction.isSuccess ++ encode transaction.auxiliaryData
  decode := do
    let start ← Decoder.position
    let length ← Decoder.array
    let body ← decode
    let witnesses ← decode
    let isSuccess ← decodeSuccess start length
    let auxiliaryData ← decode
    return ⟨body, witnesses, isSuccess, auxiliaryData⟩

end Transaction

end UtxoLedger
