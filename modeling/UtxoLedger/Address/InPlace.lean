import UtxoLedger.Address.Binary
import UtxoLedger.VarUint.InPlace

/-!
# Addresses in place

The reader of an address as a procedure that can be aborted: it cuts the
payload at a fixed place, which has to be inside; it takes the integers of a
pointer from one cursor that walks over the bytes; it counts the bytes behind
an envelope by a difference, which must not be below zero. No bytes abort it,
and it makes of them what the plain reader makes of them.
-/

namespace UtxoLedger

/-- A procedure that may fail on the bytes of an address, or be aborted. -/
abbrev AddressProcedure (α : Type) : Type := ExceptT AddressError Option α

namespace AddressProcedure

variable {α : Type}

/-- The outcome of a procedure, none when it is aborted. -/
def run (procedure : AddressProcedure α) : Option (Except AddressError α) := ExceptT.run procedure

def abort : AddressProcedure α := ExceptT.mk none

def ofExcept (outcome : Except AddressError α) : AddressProcedure α := ExceptT.mk (some outcome)

/-- The bytes before and behind a place, which is inside or at the end. -/
def cut (place : Nat) (bytes : Bytes) : AddressProcedure (Bytes × Bytes) :=
  if place ≤ bytes.length then pure (bytes.take place, bytes.drop place) else abort

/-- A difference of counts, which is not below zero. -/
def difference (first second : Nat) : AddressProcedure Nat :=
  if second ≤ first then pure (first - second) else abort

end AddressProcedure

/-- Reads three numbers with one cursor; the last one has to end with the bytes. -/
def Pointer.ofBytesInPlace (kind : UInt8) (bytes : Bytes) : Except AddressError Pointer := do
  let (slot, place) ← (VarUint.readAt bytes 0).mapError AddressError.badVarUint
  let (transaction, place) ← (VarUint.readAt bytes place).mapError AddressError.badVarUint
  let (certificate, place) ← (VarUint.readAt bytes place).mapError AddressError.badVarUint
  if place = bytes.length then return ⟨slot, transaction, certificate⟩
  else throw (.invalidPayloadLength kind (bytes.length + 28))

/-- The checksum in an envelope that takes up all of the bytes. -/
def readEnvelopeInPlace (bytes : Bytes) : AddressProcedure UInt64 :=
  match (Cbor.decode : Cbor.Decoder (Cbor.Tagged 24 Cbor.Blob × UInt64)).run ⟨bytes, 0⟩ with
  | .error error => throw (.malformedEnvelope error)
  | .ok ((_, checksum), after) => do
      if after.position = bytes.length then return checksum
      else throw (.trailingBytes (← AddressProcedure.difference bytes.length after.position))

/-- Keeps the bytes beside the checksum in them; aborted when that is not theirs. -/
def ByronAddress.ofBytesInPlace (bytes : Bytes) : AddressProcedure ByronAddress := do
  let checksum ← readEnvelopeInPlace bytes
  match isEnvelope : readEnvelope bytes with
  | .ok found =>
      if found = checksum then return ⟨bytes, found, isEnvelope⟩ else AddressProcedure.abort
  | .error _ => AddressProcedure.abort

namespace Address

/-- Reads the payload of one of the first eight kinds. -/
def ofShelleyPayloadInPlace (header : UInt8) (payload : Bytes) : AddressProcedure Address := do
  let kind := header >>> 4
  if !isPayloadSize kind payload.length then
    throw (.invalidPayloadLength kind payload.length)
  let (front, rest) ← AddressProcedure.cut 28 payload
  let payment := credentialOfKind kind (← .ofExcept (payloadHash kind front))
  let form := kind &&& 6
  let delegation ← .ofExcept <|
    if form = 0 then (fun hash => .credential (.key hash)) <$> payloadHash kind rest
    else if form = 2 then (fun hash => .credential (.script hash)) <$> payloadHash kind rest
    else if form = 4 then Delegation.pointer <$> Pointer.ofBytesInPlace kind rest
    else pure .none
  return .shelley ⟨headerNetwork header, payment, delegation⟩

/-- Reads an address of any kind. -/
def ofBytesInPlace : Bytes → AddressProcedure Address
  | [] => throw .missingHeader
  | header :: payload =>
      let kind := header >>> 4
      if kind < 8 then ofShelleyPayloadInPlace header payload
      else if kind = 8 then byron <$> ByronAddress.ofBytesInPlace (header :: payload)
      else if kind = 14 || kind = 15 then .ofExcept (ofStakePayload header payload)
      else throw (.invalidHeader header)

end Address

end UtxoLedger
