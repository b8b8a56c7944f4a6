import UtxoLedger.Cbor.Codec

/-!
# Positional records

Small records are arrays of their fields in order. Either length form is
read; elements after the last field are skipped, and an absent field is an
error. Writing gives the definite form with the fields alone.
-/

namespace UtxoLedger.Cbor.Positional

/-- What is left of the array: a number of elements, or elements up to a stop byte. -/
abbrev Remaining := Option Nat

/-- The array of already encoded fields. -/
def encode (fields : List Bytes) : Bytes :=
  Encoder.array fields.length ++ fields.flatten

/-- Reads the head of a record. -/
def start : Decoder Remaining := Decoder.array

/-- Reads the field at an index. -/
def next {α : Type} [Codec α] (index : Nat) : Remaining → Decoder (α × Remaining)
  | some 0 => Decoder.fail (.missingValue index)
  | some (count + 1) => do
      let value ← decode
      return (value, some count)
  | none => do
      if (← Decoder.kind) = .stop then Decoder.fail (.missingValue index)
      else
        let value ← decode
        return (value, none)

/-- Skips elements up to a stop byte, at most `fuel` of them. -/
def skipToStop : (fuel : Nat) → Decoder Unit
  | 0 => Decoder.fail .endOfInput
  | fuel + 1 => do
      if (← Decoder.kind) = .stop then
        let _ ← Decoder.byte
      else
        Decoder.skip
        skipToStop fuel

/-- Skips what follows the last field. -/
def finish : Remaining → Decoder Unit
  | some count => do
      let _ ← Decoder.times Decoder.skip count
  | none => do
      skipToStop (← Decoder.remaining)

end UtxoLedger.Cbor.Positional
