import UtxoLedger.Address.Basic

/-!
# Addresses in bytes

The header byte tells how the bytes after it are read: an optional script
flag and one of four forms of delegation, an envelope, or a reward account.
-/

namespace UtxoLedger

namespace Pointer

/-- Reads three numbers that take up all of the bytes. -/
def ofBytes (kind : UInt8) (bytes : Bytes) : Except AddressError Pointer := do
  let (slot, rest) ← (VarUint.read bytes).mapError AddressError.badVarUint
  let (transaction, rest) ← (VarUint.read rest).mapError AddressError.badVarUint
  let (certificate, rest) ← (VarUint.read rest).mapError AddressError.badVarUint
  if rest.isEmpty then return ⟨slot, transaction, certificate⟩
  else throw (.invalidPayloadLength kind (bytes.length + 28))

end Pointer

namespace Address

/-- The hash that is the whole of the bytes. -/
def payloadHash (kind : UInt8) (payload : Bytes) : Except AddressError (Hash 28) :=
  match SizedBytes.ofBytes? 28 payload with
  | some sized => .ok ⟨sized⟩
  | none => .error (.invalidPayloadLength kind payload.length)

/-- The network in the low half of a header. -/
def headerNetwork (header : UInt8) : Network := .ofNumber (header &&& 0x0f)

/-- The credential with a hash; the lowest bit of the kind marks a script. -/
def credentialOfKind (kind : UInt8) (hash : Hash 28) : Credential :=
  if kind &&& 1 = 0 then .key hash else .script hash

/-- The payload has a size that the kind allows. -/
def isPayloadSize (kind : UInt8) (size : Nat) : Bool :=
  let form := kind &&& 6
  if form = 0 || form = 2 then size = 56
  else if form = 4 then 28 < size
  else size = 28

/-- Reads the payload of one of the first eight kinds. -/
def ofShelleyPayload (header : UInt8) (payload : Bytes) : Except AddressError Address := do
  let kind := header >>> 4
  if !isPayloadSize kind payload.length then
    throw (.invalidPayloadLength kind payload.length)
  let payment := credentialOfKind kind (← payloadHash kind (payload.take 28))
  let rest := payload.drop 28
  let form := kind &&& 6
  let delegation ←
    if form = 0 then (fun hash => .credential (.key hash)) <$> payloadHash kind rest
    else if form = 2 then (fun hash => .credential (.script hash)) <$> payloadHash kind rest
    else if form = 4 then Delegation.pointer <$> Pointer.ofBytes kind rest
    else pure .none
  return .shelley ⟨headerNetwork header, payment, delegation⟩

/-- Reads the payload of a reward account. -/
def ofStakePayload (header : UInt8) (payload : Bytes) : Except AddressError Address := do
  let kind := header >>> 4
  let hash ← payloadHash kind payload
  return .stake ⟨headerNetwork header, credentialOfKind kind hash⟩

/-- Reads an address of any kind. -/
def ofBytes : Bytes → Except AddressError Address
  | [] => .error .missingHeader
  | header :: payload =>
      let kind := header >>> 4
      if kind < 8 then ofShelleyPayload header payload
      else if kind = 8 then byron <$> ByronAddress.ofBytes (header :: payload)
      else if kind = 14 || kind = 15 then ofStakePayload header payload
      else .error (.invalidHeader header)

/-! ## Wire form -/

instance : Cbor.Codec Address where
  encode address := Cbor.Encoder.bytes address.toBytes
  decode := do
    let start ← Cbor.Decoder.position
    let bytes ← Cbor.Decoder.bytes
    Cbor.Decoder.orReject start AddressError.message (ofBytes bytes)

end Address

instance : Cbor.Codec StakeAddress where
  encode address := Cbor.Encoder.bytes address.toBytes
  decode := do
    let start ← Cbor.Decoder.position
    match ← (Cbor.decode : Cbor.Decoder Address) with
    | .stake address => return address
    | other =>
        Cbor.Decoder.failAt start
          (.rejected s!"expected a reward account, found address type {other.kind}")

end UtxoLedger
