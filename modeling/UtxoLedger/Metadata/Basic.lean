import UtxoLedger.Cbor.Wrapper
import UtxoLedger.Failure
import UtxoLedger.Json.Value

/-!
# Metadata

Transactions carry metadata under numeric labels. A metadatum is an integer,
a short string of bytes or text, a list or a map; maps keep the order and the
length form in which they were read. Strings have at most 64 bytes.
-/

namespace UtxoLedger

/-- Why a value cannot be carried as metadata. -/
inductive MetadataError where
  | tooLong (kind : String) (length : Nat)
  | nonInteger (number : JsonNumber)
  | boolean (value : Bool)
  | null
  | notAnObject
  | badLabel (label : String)
  deriving DecidableEq, Repr

namespace MetadataError

/-- What has no counterpart in metadata. -/
def unsupported (reason : String) : String := s!"metadata value not representable: {reason}"

def message : MetadataError → String
  | tooLong kind length => s!"metadata {kind} is {length} bytes long, the limit is 64"
  | nonInteger number => unsupported s!"non-integer number {number.text}"
  | boolean value => unsupported s!"boolean {value}"
  | null => unsupported "null"
  | notAnObject => unsupported "metadata must be a json object"
  | badLabel label => unsupported s!"label {label} is not a uint"

instance : Failure MetadataError where
  name
    | tooLong _ _ => "Metadata.TooLong"
    | _ => "Metadata.Unsupported"
  message := message

end MetadataError

/-- A metadata value. -/
inductive Metadatum where
  | int (number : Cbor.WireInt)
  | bytes (content : Bytes)
  | text (content : String)
  | array (items : List Metadatum)
  | map (entries : List (Metadatum × Metadatum)) (isDefinite : Bool)

namespace Metadatum

/-- The most bytes in a string. -/
def sizeLimit : Nat := 64

def ofText (content : String) : Except MetadataError Metadatum :=
  if sizeLimit < content.utf8ByteSize then .error (.tooLong "text" content.utf8ByteSize)
  else .ok (text content)

def ofBytes (content : Bytes) : Except MetadataError Metadatum :=
  if sizeLimit < content.length then .error (.tooLong "bytes" content.length)
  else .ok (bytes content)

def ofInt64 (number : Int64) : Metadatum := int (.ofInt64 number)

/-- A map with text keys. -/
def ofTextEntries (entries : List (String × Metadatum)) : Except MetadataError Metadatum := do
  let pairs ← entries.mapM fun entry => do return (← ofText entry.1, entry.2)
  return map pairs true

/-! ## Wire form -/

mutual

/-- The wire form; maps keep their length form. -/
def encode : Metadatum → Bytes
  | int number => Cbor.encode number
  | bytes content => Cbor.Encoder.bytes content
  | text content => Cbor.Encoder.text content
  | array items => Cbor.Encoder.array items.length ++ encodeItems items
  | map entries isDefinite =>
      if isDefinite then Cbor.Encoder.map entries.length ++ encodeEntries entries
      else Cbor.Encoder.openMap ++ encodeEntries entries ++ Cbor.Encoder.stop

/-- The wire forms of items one after the other. -/
def encodeItems : List Metadatum → Bytes
  | [] => []
  | first :: rest => encode first ++ encodeItems rest

/-- The wire forms of keys and values one after the other. -/
def encodeEntries : List (Metadatum × Metadatum) → Bytes
  | [] => []
  | (key, value) :: rest => encode key ++ encode value ++ encodeEntries rest

end

/-- Reads a metadatum that is nested less than `depth` deep. -/
def decodeWithin : (depth : Nat) → Cbor.Decoder Metadatum
  | 0 => Cbor.Decoder.fail .endOfInput
  | depth + 1 => do
      let start ← Cbor.Decoder.position
      match ← Cbor.Decoder.kind with
      | .u8 | .u16 | .u32 | .u64 | .i8 | .i16 | .i32 | .i64 | .int => int <$> Cbor.decode
      | .bytes =>
          let content ← Cbor.Decoder.bytes
          Cbor.Decoder.orReject start MetadataError.message (ofBytes content)
      | .text =>
          let content ← Cbor.Decoder.text
          Cbor.Decoder.orReject start MetadataError.message (ofText content)
      | .array | .indefiniteArray => array <$> Cbor.Decoder.listOf (decodeWithin depth)
      | .map | .indefiniteMap =>
          let pairs ← Cbor.PairList.decodeWith (decodeWithin depth) (decodeWithin depth)
          return map pairs.entries pairs.isDefinite
      | other => Cbor.Decoder.failAt start (.unexpectedKind other "Metadatum")

/-- Every level of nesting takes a byte, so the bytes left bound the depth. -/
instance : Cbor.Codec Metadatum where
  encode := encode
  decode := do decodeWithin ((← Cbor.Decoder.remaining) + 1)

end Metadatum

/-- Metadata under numeric labels, in the order given. -/
abbrev Metadata := Cbor.PairList UInt64 Metadatum

end UtxoLedger
