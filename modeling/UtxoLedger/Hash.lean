import UtxoLedger.Bytes.Sized
import UtxoLedger.Cbor.Codec
import UtxoLedger.Digest.Blake2b
import UtxoLedger.Failure
import UtxoLedger.Json.Reader

/-!
# Hashes

Ledger identifiers are BLAKE2b digests: 32 bytes for transactions, datums and
auxiliary data, 28 bytes for keys, scripts and policies. A tagged digest
covers one leading byte that tells which kind of thing was hashed.
-/

namespace UtxoLedger

/-- A digest of `size` bytes. -/
structure Hash (size : Nat) extends SizedBytes size
  deriving DecidableEq

/-- Why bytes are not a hash of the wanted size. -/
structure HashSizeError where
  expected : Nat
  found : Nat
  deriving DecidableEq, Repr

namespace HashSizeError

def message (error : HashSizeError) : String :=
  s!"invalid hash size, expected {error.expected} bytes but found {error.found}"

instance : Failure HashSizeError := ⟨fun _ => "HashSize", message⟩

end HashSizeError

namespace Hash

variable {size : Nat}

theorem ext {first second : Hash size} (same : first.bytes = second.bytes) : first = second := by
  obtain ⟨⟨left, sizeLeft⟩⟩ := first
  obtain ⟨⟨right, sizeRight⟩⟩ := second
  cases same
  rfl

instance : Inhabited (Hash size) := ⟨⟨default⟩⟩

instance : Ranked (Hash size) where
  rank hash := Bytes.rank hash.bytes

instance : LawfulRanked (Hash size) where
  rank_injective same := ext (Bytes.rank_injective same)

def ofBytes (size : Nat) (bytes : Bytes) : Except HashSizeError (Hash size) :=
  match SizedBytes.ofBytes? size bytes with
  | some sized => .ok ⟨sized⟩
  | none => .error ⟨size, bytes.length⟩

/-! ## Digests -/

/-- The digest of a byte string. -/
def digest (size : Nat) (small : size ≤ 64) (input : Bytes) : Hash size :=
  ⟨⟨Digest.Blake2b.digest size input, Digest.Blake2b.length_digest size input small⟩⟩

/-- The 28-byte digest, for keys and scripts. -/
def blake224 (input : Bytes) : Hash 28 := digest 28 (by decide) input

/-- The 32-byte digest, for transactions, datums and auxiliary data. -/
def blake256 (input : Bytes) : Hash 32 := digest 32 (by decide) input

/-- The digest of a tag byte and a script, under which the script is named. -/
def tagged224 (tag : UInt8) (input : Bytes) : Hash 28 := blake224 (tag :: input)

/-! ## Text -/

def text (hash : Hash size) : String := Hex.encode hash.bytes

def debug (hash : Hash size) : String := s!"Hash<{size}>(\"{hash.text}\")"

/-- The hash written by hexadecimal digits. -/
def ofText (size : Nat) (text : String) : Except HexError (Hash size) :=
  match Hex.decodeExactly size text with
  | .ok bytes =>
      match SizedBytes.ofBytes? size bytes with
      | some sized => .ok ⟨sized⟩
      | none => .error .wrongLength
  | .error error => .error error

/-! ## Wire form and JSON -/

instance : Cbor.Codec (Hash size) where
  encode hash := Cbor.Encoder.bytes hash.bytes
  decode := do
    let start ← Cbor.Decoder.position
    let bytes ← Cbor.Decoder.bytes
    Cbor.Decoder.orReject start HashSizeError.message (ofBytes size bytes)

def toJson (hash : Hash size) : Json := .string hash.text

def jsonReader (size : Nat) : Json.Reader (Hash size) :=
  .checked (fun text => (ofText size text).toOption) .string

end Hash

end UtxoLedger
