import UtxoLedger.Transaction.Basic

/-!
# Signing a built transaction

The body of a built transaction does not change any more. Keys sign its id;
each key has at most one signature, and the newest one comes last.
-/

namespace UtxoLedger

/-- A transaction that waits for signatures. -/
structure BuiltTransaction where
  body : TransactionBody
  witnesses : WitnessSet
  auxiliaryData : Option AuxiliaryData

namespace BuiltTransaction

def id (built : BuiltTransaction) : Hash 32 := built.body.hash

/-- The signatures so far. -/
def signatures (built : BuiltTransaction) : List KeyWitness :=
  (built.witnesses.keys.map (·.items)).getD []

/-- The same transaction with other signatures. -/
def withSignatures (built : BuiltTransaction) (signatures : List KeyWitness) :
    BuiltTransaction :=
  { built with witnesses := { built.witnesses with keys := Cbor.WireSet.nonEmpty? signatures } }

/-- Adds a signature in the place of an earlier one of the same key. -/
def addSignature (built : BuiltTransaction) (key : Ed25519.PublicKey)
    (signature : Ed25519.Signature) : BuiltTransaction :=
  built.withSignatures (built.signatures.filter (·.key ≠ key) ++ [⟨key, signature⟩])

def removeSignature (built : BuiltTransaction) (key : Ed25519.PublicKey) : BuiltTransaction :=
  built.withSignatures (built.signatures.filter (·.key ≠ key))

/-- Signs the id. -/
def sign (built : BuiltTransaction) (key : Ed25519.SecretKey) : BuiltTransaction :=
  built.addSignature key.publicKey (key.sign built.id.bytes)

/-- The keys that have signed, in the order of their signatures. -/
def signers (built : BuiltTransaction) : List Ed25519.PublicKey :=
  built.signatures.map (·.key)

/-- The transaction with the signatures so far. -/
def toTransaction (built : BuiltTransaction) : Transaction :=
  ⟨built.body, built.witnesses, true, built.auxiliaryData⟩

end BuiltTransaction

end UtxoLedger
