import UtxoLedger.Cbor.Codec

/-!
# Tagged unions

The alternatives of a union are written as an array of a code and the fields
of the alternative. Reading checks the length of the array against the code
before it reads a field, and reports faults at the position of the array.
-/

namespace UtxoLedger.Cbor.Union

/-- The array of a code and already encoded fields. -/
def encode (code : Nat) (fields : List Bytes) : Bytes :=
  Encoder.array (1 + fields.length) ++ Encoder.unsigned code ++ fields.flatten

/-- Reads the head and the code of a union; `fieldCount` tells the number of fields of each
known code. -/
def decodeCode (family : String) (fieldCount : Nat → Option Nat) : Decoder Nat := do
  let start ← Decoder.position
  match ← Decoder.array with
  | none => Decoder.failAt start (.indefiniteArray family)
  | some length =>
      let code ← Decoder.unsigned
      match fieldCount code with
      | none => Decoder.failAt start (.unknownCode family (UInt64.ofNat code))
      | some fields =>
          if length = 1 + fields then pure code
          else
            Decoder.failAt start
              (.codeArity family (UInt64.ofNat code) (1 + fields) (UInt64.ofNat length))

end UtxoLedger.Cbor.Union
