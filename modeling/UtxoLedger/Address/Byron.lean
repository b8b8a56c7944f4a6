import UtxoLedger.Address.Error
import UtxoLedger.Bytes.Sized
import UtxoLedger.Cbor.Wrapper

/-!
# Addresses of the first kind

Such an address is an envelope: an array of an embedded byte string and a
checksum. Only the envelope is looked at. The address keeps the bytes it was
read from, so it is written as it was read.
-/

namespace UtxoLedger

/-- The checksum in an envelope that takes up all of the bytes. -/
def readEnvelope (bytes : Bytes) : Except AddressError UInt64 :=
  match (Cbor.decode : Cbor.Decoder (Cbor.Tagged 24 Cbor.Blob × UInt64)).run ⟨bytes, 0⟩ with
  | .error error => .error (.malformedEnvelope error)
  | .ok ((_, checksum), after) =>
      if after.rest.isEmpty then .ok checksum else .error (.trailingBytes after.rest.length)

/-- An envelope and the checksum that it carries. -/
structure ByronAddress where
  bytes : Bytes
  checksum : UInt64
  isEnvelope : readEnvelope bytes = .ok checksum
  deriving DecidableEq

namespace ByronAddress

def ofBytes (bytes : Bytes) : Except AddressError ByronAddress :=
  match isEnvelope : readEnvelope bytes with
  | .ok checksum => .ok ⟨bytes, checksum, isEnvelope⟩
  | .error error => .error error

theorem bytes_of_ofBytes {bytes : Bytes} {address : ByronAddress}
    (read : ofBytes bytes = .ok address) : address.bytes = bytes := by
  unfold ofBytes at read
  split at read
  · simp only [Except.ok.injEq] at read
    rw [← read]
  · simp at read

def ofBase58 (text : String) : Except AddressError ByronAddress :=
  match Base58.decode text with
  | .ok bytes => ofBytes bytes
  | .error error => .error (.badBase58 error)

def toBase58 (address : ByronAddress) : String := Base58.encode address.bytes

/-- Byte order, a shorter address before its continuations. -/
instance : Ranked ByronAddress where
  rank address := address.bytes.map (fun byte => byte.toNat + 1) ++ [0]

end ByronAddress

end UtxoLedger
