import UtxoLedger.Cbor.Codec
import UtxoLedger.Json.Reader
import UtxoLedger.Width

/-!
# Wrappers that keep the wire form

Some values have several wire forms and have to be written in the one they
were read in. These types keep the choice beside the value: tagged sets,
pair lists of either length form, null or undefined, embedded and opaque
items, and integers of the full range of the format.
-/

namespace UtxoLedger.Cbor

variable {α β γ : Type}

/-! ## Byte strings -/

/-- An opaque string of bytes. -/
structure Blob where
  bytes : Bytes
  deriving DecidableEq, Repr, Inhabited

namespace Blob

def hex (blob : Blob) : String := Hex.encode blob.bytes

def debug (blob : Blob) : String := s!"Bytes(\"{blob.hex}\")"

instance : Codec Blob where
  encode blob := Encoder.bytes blob.bytes
  decode := Blob.mk <$> Decoder.bytes

def toJson (blob : Blob) : Json := .string blob.hex

def jsonReader : Json.Reader Blob :=
  .checked (fun text => Blob.mk <$> (Hex.decode text).toOption) .string

end Blob

/-! ## Integers -/

/-- An integer of the format's range: a word, or minus one minus a word. -/
inductive WireInt where
  | nonnegative (word : UInt64)
  | negative (word : UInt64)
  deriving DecidableEq, Repr

namespace WireInt

def toInt : WireInt → Int
  | nonnegative word => word.toNat
  | negative word => -1 - (word.toNat : Int)

/-- The integer, when it is at least `-bound64` and below `bound64`. -/
def ofInt? (number : Int) : Option WireInt :=
  if 0 ≤ number then
    if number < bound64 then some (.nonnegative (UInt64.ofNat number.toNat)) else none
  else if -bound64 ≤ number then some (.negative (UInt64.ofNat (-1 - number).toNat))
  else none

def ofInt64 (word : Int64) : WireInt :=
  if 0 ≤ word.toInt then .nonnegative (UInt64.ofNat word.toInt.toNat)
  else .negative (UInt64.ofNat (-1 - word.toInt).toNat)

instance : Codec WireInt where
  encode
    | nonnegative word => Encoder.unsigned word.toNat
    | negative word => Encoder.negative word.toNat
  decode := do
    let (isNegative, number) ← Decoder.signed
    let word := UInt64.ofNat number
    return if isNegative then .negative word else .nonnegative word

/-- The decimal digits of the integer, which is its text in JSON. -/
def text (number : WireInt) : String := toString number.toInt

def jsonReader : Json.Reader WireInt := .checked ofInt? .wideInteger

end WireInt

/-! ## Sets and pair lists -/

/-- The tag that marks an array as a set. -/
def setTag : UInt64 := 258

/-- The tag of a byte string that holds an encoded item. -/
def embeddedTag : UInt64 := 24

/-- An array that may carry the set tag; the form found is the form written. -/
structure WireSet (α : Type) where
  items : List α
  isTagged : Bool
  deriving DecidableEq, Repr

namespace WireSet

/-- The untagged form. -/
def plain (items : List α) : WireSet α := ⟨items, false⟩

/-- The untagged form, when there is an item. -/
def nonEmpty? (items : List α) : Option (WireSet α) :=
  if items.isEmpty then none else some (plain items)

instance [Codec α] : Codec (WireSet α) where
  encode set := (if set.isTagged then Encoder.tag setTag else []) ++ encode set.items
  decode := do
    let isTagged ← do
      if (← Decoder.kind) = .tag then
        Decoder.expectTag setTag "set tag 258"
        pure true
      else pure false
    return ⟨← decode, isTagged⟩

def toJson (item : α → Json) (set : WireSet α) : Json := .array (set.items.map item)

def jsonReader (item : Json.Reader α) : Json.Reader (WireSet α) := plain <$> .list item

end WireSet

/-- Key-value pairs in the order given, with a definite or an indefinite length. -/
structure PairList (α β : Type) where
  entries : List (α × β)
  isDefinite : Bool
  deriving DecidableEq, Repr

namespace PairList

def definite (entries : List (α × β)) : PairList α β := ⟨entries, true⟩

/-- The value of the first pair with the given key. -/
def get? [DecidableEq α] (pairs : PairList α β) (key : α) : Option β :=
  OrderedMap.lookup key pairs.entries

/-- Writes the pairs in the length form kept. -/
def encodeWith (key : α → Bytes) (value : β → Bytes) (pairs : PairList α β) : Bytes :=
  if pairs.isDefinite then
    Encoder.map pairs.entries.length ++ encodeEntries key value pairs.entries
  else Encoder.openMap ++ encodeEntries key value pairs.entries ++ Encoder.stop

/-- Reads the pairs of a map and keeps its length form. -/
def decodeWith (key : Decoder α) (value : Decoder β) : Decoder (PairList α β) := do
  let kind ← Decoder.kind
  let entries ← Decoder.entriesOf key value
  match kind with
  | .map => return ⟨entries, true⟩
  | .indefiniteMap => return ⟨entries, false⟩
  | _ => Decoder.fail (.rejected "invalid data type for keyvaluepairs")

instance [Codec α] [Codec β] : Codec (PairList α β) where
  encode := encodeWith encode encode
  decode := decodeWith decode decode

/-- A list of pairs. -/
def toJson (key : α → Json) (value : β → Json) (pairs : PairList α β) : Json :=
  .array (pairs.entries.map fun entry => .array [key entry.1, value entry.2])

def jsonReader (key : Json.Reader α) (value : Json.Reader β) : Json.Reader (PairList α β) :=
  definite <$> .list (.pair key value)

end PairList

/-! ## Tags and embedded items -/

/-- A value under a fixed tag. -/
structure Tagged (number : UInt64) (α : Type) where
  value : α
  deriving DecidableEq, Repr

instance {number : UInt64} [Codec α] : Codec (Tagged number α) where
  encode tagged := Encoder.tag number ++ encode tagged.value
  decode := do
    Decoder.expectTag number s!"tag {number}"
    Tagged.mk <$> decode

/-- Reads the byte string of an embedded item. -/
def Decoder.embeddedBytes : Decoder Bytes := do
  Decoder.expectTag embeddedTag "embedded cbor tag 24"
  Decoder.bytes

/-- A value whose encoding is carried as a tagged byte string. -/
structure Embedded (α : Type) where
  value : α
  deriving DecidableEq, Repr

instance [Codec α] : Codec (Embedded α) where
  encode embedded := Encoder.tag embeddedTag ++ Encoder.bytes (encode embedded.value)
  decode := do
    let content ← Decoder.embeddedBytes
    match (decode : Decoder α).run ⟨content, 0⟩ with
    | .ok (value, _) => return ⟨value⟩
    | .error error => fun _ => .error error

/-! ## Opaque items -/

/-- One item kept as the bytes it was read from. -/
structure RawItem where
  bytes : Bytes
  deriving DecidableEq, Repr

namespace RawItem

/-- Takes bytes that hold exactly one item. -/
def ofBytes (bytes : Bytes) : Except FragmentError RawItem :=
  match Decoder.skip.run ⟨bytes, 0⟩ with
  | .ok (_, after) =>
      if after.rest.isEmpty then .ok ⟨bytes⟩ else .error (.trailingBytes after.rest.length)
  | .error error => .error (.decode error)

/-- The item that a value is written as. -/
def ofValue [Codec α] (value : α) : RawItem := ⟨encode value⟩

/-- Reads the item, or its start, as a value. -/
def decodeAs (α : Type) [Codec α] (item : RawItem) : Except DecodeError α :=
  match (decode : Decoder α).run ⟨item.bytes, 0⟩ with
  | .ok (value, _) => .ok value
  | .error error => .error error

def debug (item : RawItem) : String := s!"AnyCbor(\"{Hex.encode item.bytes}\")"

instance : Codec RawItem where
  encode := RawItem.bytes
  decode := RawItem.mk <$> Decoder.rawItem

end RawItem

/-! ## Null and undefined -/

/-- A value or one of the two items that stand for its absence. -/
inductive Nullable (α : Type) where
  | value (value : α)
  | null
  | undefined
  deriving DecidableEq, Repr

namespace Nullable

def map (change : α → γ) : Nullable α → Nullable γ
  | value found => value (change found)
  | null => null
  | undefined => undefined

def toOption : Nullable α → Option α
  | value found => some found
  | _ => none

def ofOption : Option α → Nullable α
  | some found => value found
  | none => null

instance [Codec α] : Codec (Nullable α) where
  encode
    | value found => encode found
    | null => Encoder.null
    | undefined => Encoder.undefined
  decode := do
    match ← Decoder.kind with
    | .null =>
        let _ ← Decoder.byte
        return .null
    | .undefined =>
        let _ ← Decoder.byte
        return .undefined
    | _ => .value <$> decode

def toJson (value : α → Json) (nullable : Nullable α) : Json :=
  .ofOption value nullable.toOption

def jsonReader (value : Json.Reader α) : Json.Reader (Nullable α) :=
  ofOption <$> .option value

end Nullable

end UtxoLedger.Cbor
