import UtxoLedger.Cbor.Wrapper
import UtxoLedger.Hash

/-!
# Datums

An output may carry data for the script that guards it, by hash or inline.
Inline data is one item, kept as the bytes it was received with, so that its
hash does not change.
-/

namespace UtxoLedger

/-- Data for a script, kept as raw bytes. -/
abbrev PlutusData := Cbor.RawItem

namespace PlutusData

def hash (data : PlutusData) : Hash 32 := .blake256 data.bytes

end PlutusData

/-- The datum of an output. -/
inductive Datum where
  | hash (hash : Hash 32)
  | inline (data : PlutusData)
  deriving DecidableEq

namespace Datum

/-- The hash by which a datum is known. -/
def digest : Datum → Hash 32
  | hash found => found
  | inline data => PlutusData.hash data

open Cbor in
instance : Codec Datum where
  encode
    | hash found => Encoder.array 2 ++ Encoder.unsigned 0 ++ encode found
    | inline data =>
        Encoder.array 2 ++ Encoder.unsigned 1 ++ Encoder.tag embeddedTag ++
          Encoder.bytes data.bytes
  decode := do
    let start ← Decoder.position
    if (← Decoder.array) ≠ some 2 then
      Decoder.failAt start (.rejected "datum option must be a 2 element array")
    else
      match ← Decoder.unsigned with
      | 0 => hash <$> decode
      | 1 =>
          let place ← Decoder.position
          let content ← Decoder.embeddedBytes
          let wording (error : FragmentError) := s!"invalid inline datum: {error.message}"
          inline <$> Decoder.orReject place wording (RawItem.ofBytes content)
      | other => Decoder.failAt start (.unknownCode "DatumOption" (UInt64.ofNat other))

end Datum

end UtxoLedger
