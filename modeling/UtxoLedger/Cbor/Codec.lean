import UtxoLedger.Cbor.Encoder
import UtxoLedger.Cbor.Item
import UtxoLedger.OrderedMap
import UtxoLedger.Width

/-!
# Types with a wire form

A type has a wire form when it has an encoder and a decoder. Here are the
forms of words, text, lists, options, pairs and maps, and the reading of a
whole byte string as exactly one value.
-/

namespace UtxoLedger.Cbor

/-- A wire form: how values are written and read. -/
class Codec (α : Type) where
  encode : α → Bytes
  decode : Decoder α

export Codec (encode decode)

/-! ## Whole byte strings -/

variable {α β : Type}

/-- Reads one value and refuses bytes after it. -/
def decodeFragment (α : Type) [Codec α] (bytes : Bytes) : Except FragmentError α :=
  match (decode : Decoder α).run ⟨bytes, 0⟩ with
  | .ok (value, after) =>
      if after.rest.isEmpty then .ok value else .error (.trailingBytes after.rest.length)
  | .error error => .error (.decode error)

/-- Reads one value from hexadecimal text. -/
def decodeHex (α : Type) [Codec α] (text : String) : Except FragmentError α :=
  match Hex.decode text with
  | .ok bytes => decodeFragment α bytes
  | .error error => .error (.hex error)

/-- The hexadecimal text of a value's wire form. -/
def encodeHex [Codec α] (value : α) : String := Hex.encode (encode value)

/-! ## Words, text and truth values -/

instance : Codec UInt64 where
  encode word := Encoder.unsigned word.toNat
  decode := UInt64.ofNat <$> Decoder.unsigned

instance : Codec UInt32 where
  encode word := Encoder.unsigned word.toNat
  decode := UInt32.ofNat <$> Decoder.unsignedBelow bound32

instance : Codec Int64 where
  encode word :=
    if 0 ≤ word.toInt then Encoder.unsigned word.toInt.toNat
    else Encoder.negative (-1 - word.toInt).toNat
  decode := do
    let (isNegative, number) ← Decoder.signed
    if number < bound63 then
      return Int64.ofInt (if isNegative then -1 - (number : Int) else number)
    else Decoder.fail .overflow

instance : Codec Bool where
  encode := Encoder.bool
  decode := Decoder.bool

instance : Codec String where
  encode := Encoder.text
  decode := Decoder.text

/-! ## Lists, options and pairs -/

/-- The elements one after the other, without a head. -/
def encodeAll (element : α → Bytes) (list : List α) : Bytes := list.flatMap element

/-- A list written with a definite length. -/
def encodeList (element : α → Bytes) (list : List α) : Bytes :=
  Encoder.array list.length ++ encodeAll element list

/-- The entries of a map, each key followed by its value. -/
def encodeEntries (key : α → Bytes) (value : β → Bytes) (entries : List (α × β)) : Bytes :=
  entries.flatMap fun entry => key entry.1 ++ value entry.2

instance [Codec α] : Codec (List α) where
  encode := encodeList encode
  decode := Decoder.listOf decode

/-- Reads a value unless the item is null. -/
def Decoder.nullable (decoder : Decoder α) : Decoder (Option α) := do
  if (← Decoder.kind) = .null then
    let _ ← Decoder.byte
    return none
  else some <$> decoder

instance [Codec α] : Codec (Option α) where
  encode
    | some value => encode value
    | none => Encoder.null
  decode := Decoder.nullable decode

/-- Reads the head of an array that has to have a definite length. -/
def Decoder.tuple (length : Nat) : Decoder Unit := do
  if (← Decoder.array) = some length then pure () else Decoder.fail (.tupleLength length)

instance [Codec α] [Codec β] : Codec (α × β) where
  encode pair := Encoder.array 2 ++ encode pair.1 ++ encode pair.2
  decode := do
    Decoder.tuple 2
    let first ← decode
    let second ← decode
    return (first, second)

/-! ## Maps in key order -/

/-- Entries are read in turn, the last one of a key is kept, and they are written in key
order. -/
instance [Ranked α] [Codec α] [Codec β] : Codec (OrderedMap α β) where
  encode map := Encoder.map map.size ++ encodeEntries encode encode map.entries
  decode := OrderedMap.ofList <$> Decoder.entriesOf decode decode

end UtxoLedger.Cbor
