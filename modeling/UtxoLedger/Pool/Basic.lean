import UtxoLedger.Address.Text
import UtxoLedger.Cbor.Positional
import UtxoLedger.Rational
import UtxoLedger.Validation

/-!
# Stake pools

A pool is known by the hash of its operator's key. Its registration says what
the pool takes, who owns it and where its relays are; the fields of a
registration stand directly in the certificate that carries them.
-/

namespace UtxoLedger

/-- The hash of a pool operator's key. -/
structure PoolId where
  hash : Hash 28
  deriving DecidableEq

namespace PoolId

/-- The prefix of the text form. -/
def humanPart : String := "pool"

/-- The bytes that a text stands for, when it has one of the two forms. -/
def readBytes? (text : String) : Option Bytes :=
  if text.startsWith "pool1" then
    match Bech32.decodeBytes text with
    | .ok (found, bytes) => if found = humanPart then some bytes else none
    | .error _ => none
  else if text.utf8ByteSize = 56 then (Hex.decode text).toOption
  else none

/-- Reads the checksummed text or 56 hexadecimal digits. -/
def ofText (text : String) : Except ValidationError PoolId :=
  match (readBytes? text).bind (SizedBytes.ofBytes? 28) with
  | some sized => .ok ⟨⟨sized⟩⟩
  | none => .error (.invalidPoolId text)

def text (pool : PoolId) : String := Bech32.encodeBytes humanPart pool.hash.bytes

instance : Cbor.Codec PoolId where
  encode pool := Cbor.encode pool.hash
  decode := PoolId.mk <$> Cbor.decode

end PoolId

/-- Where a pool can be reached: a host and the number of a socket on it. -/
inductive Relay where
  | hostAddress (socket : Option UInt32) (ipv4 ipv6 : Option Cbor.Blob)
  | hostName (socket : Option UInt32) (name : String)
  | multiHostName (name : String)
  deriving DecidableEq

namespace Relay

/-- The number of parts behind each code. -/
def partCount (code : Nat) : Option Nat :=
  match code with
  | 0 => some 3
  | 1 => some 2
  | 2 => some 1
  | _ => none

open Cbor in
instance : Codec Relay where
  encode
    | hostAddress socket ipv4 ipv6 => Union.encode 0 [encode socket, encode ipv4, encode ipv6]
    | hostName socket name => Union.encode 1 [encode socket, encode name]
    | multiHostName name => Union.encode 2 [encode name]
  decode := do
    match ← Union.decodeCode "Relay" partCount with
    | 0 => return hostAddress (← decode) (← decode) (← decode)
    | 1 => return hostName (← decode) (← decode)
    | _ => return multiHostName (← decode)

/-- The JSON form of the number of a socket. -/
def socketJson : Option UInt32 → Json := .ofOption fun number => .ofWord number.toUInt64

def toJson : Relay → Json
  | hostAddress socket ipv4 ipv6 =>
      .object
        [("SingleHostAddr", .array
          [socketJson socket, .ofOption Cbor.Blob.toJson ipv4, .ofOption Cbor.Blob.toJson ipv6])]
  | hostName socket name =>
      .object
        [("SingleHostName", .array [socketJson socket, .string name])]
  | multiHostName name => .object [("MultiHostName", .string name)]

def jsonReader : Json.Reader Relay :=
  .choice
    [⟨"SingleHostAddr", .inr ((fun (socket, ipv4, ipv6) => hostAddress socket ipv4 ipv6) <$>
        .triple (.option .word32) (.option Cbor.Blob.jsonReader) (.option Cbor.Blob.jsonReader))⟩,
      ⟨"SingleHostName", .inr ((fun (socket, name) => hostName socket name) <$>
        .pair (.option .word32) .string)⟩,
      ⟨"MultiHostName", .inr (multiHostName <$> .string)⟩]

end Relay

/-- The document that describes a pool. -/
structure PoolMetadata where
  url : String
  hash : Hash 32
  deriving DecidableEq, Inhabited

namespace PoolMetadata

open Cbor in
instance : Codec PoolMetadata where
  encode metadata := Positional.encode [encode metadata.url, encode metadata.hash]
  decode := do
    let (url, left) ← Positional.next 0 (← Positional.start)
    let (hash, left) ← Positional.next 1 left
    Positional.finish left
    return ⟨url, hash⟩

def toJson (metadata : PoolMetadata) : Json :=
  .object [("url", .string metadata.url), ("hash", metadata.hash.toJson)]

def jsonReader : Json.Reader PoolMetadata :=
  .record
    [⟨"url", fun metadata => (fun found => { metadata with url := found }) <$> .string, false⟩,
      ⟨"hash",
        fun metadata => (fun found => { metadata with hash := found }) <$> Hash.jsonReader 32,
        false⟩]
    false default

end PoolMetadata

/-- What a pool registers. -/
structure PoolParameters where
  operator : Hash 28
  vrfKeyHash : Hash 32
  pledge : UInt64
  cost : UInt64
  margin : Rational
  rewardAccount : StakeAddress
  owners : Cbor.WireSet (Hash 28)
  relays : List Relay
  metadata : Option PoolMetadata
  deriving DecidableEq

namespace PoolParameters

def pool (parameters : PoolParameters) : PoolId := ⟨parameters.operator⟩

open Cbor in
/-- The wire forms of the fields in order. -/
def encodeFields (parameters : PoolParameters) : List Bytes :=
  [encode parameters.operator, encode parameters.vrfKeyHash, encode parameters.pledge,
    encode parameters.cost, encode parameters.margin, encode parameters.rewardAccount,
    encode parameters.owners, encode parameters.relays, encode parameters.metadata]

open Cbor in
/-- Reads the fields in order. -/
def decodeFields : Decoder PoolParameters := do
  return ⟨← decode, ← decode, ← decode, ← decode, ← decode, ← decode, ← decode, ← decode,
    ← decode⟩

end PoolParameters

end UtxoLedger
