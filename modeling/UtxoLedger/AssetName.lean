import UtxoLedger.Validation

/-!
# Asset names

The name of an asset under its policy has at most 32 bytes. A shorter name
comes before a longer one, and names of one length are in byte order, which
is the order of map keys in canonical encodings.
-/

namespace UtxoLedger

/-- A name of at most 32 bytes. -/
structure AssetName where
  bytes : Bytes
  length_bytes : bytes.length ≤ 32
  deriving DecidableEq

namespace AssetName

/-- The name without bytes. -/
def empty : AssetName := ⟨[], Nat.zero_le 32⟩

instance : Inhabited AssetName := ⟨empty⟩

def ofBytes (bytes : Bytes) : Except ValidationError AssetName :=
  if short : bytes.length ≤ 32 then .ok ⟨bytes, short⟩ else .error (.assetNameTooLong bytes.length)

def ofHex (text : String) : Except ValidationError AssetName :=
  match Hex.decode text with
  | .ok bytes => ofBytes bytes
  | .error error => .error (.hex error)

/-- The name whose bytes are a text. -/
def ofText (text : String) : Except ValidationError AssetName := ofBytes (Text.toBytes text)

def hex (name : AssetName) : String := Hex.encode name.bytes

/-- The name as text where it is readable, and in hexadecimal elsewhere. -/
def debug (name : AssetName) : String :=
  let inner := match Text.ofBytes? name.bytes with
    | some text => if text.toList.any Text.isControl then name.hex else Text.quoted text
    | none => name.hex
  s!"AssetName({inner})"

instance : Ranked AssetName where
  rank name := name.bytes.length :: Bytes.rank name.bytes

instance : LawfulRanked AssetName where
  rank_injective {first second} same := by
    cases first
    cases second
    simp only [AssetName.mk.injEq]
    exact Bytes.rank_injective (List.tail_eq_of_cons_eq same)

instance : Cbor.Codec AssetName where
  encode name := Cbor.Encoder.bytes name.bytes
  decode := do
    let start ← Cbor.Decoder.position
    let bytes ← Cbor.Decoder.bytes
    Cbor.Decoder.orReject start ValidationError.message (ofBytes bytes)

end AssetName

end UtxoLedger
