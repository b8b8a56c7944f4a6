import UtxoLedger.Address.InPlace
import UtxoLedger.Proofs.Address.Envelopes
import UtxoLedger.Proofs.Address.Spellings

/-!
# No bytes abort the reader

The payload is cut only when its size suits the kind, and then it holds the
hash in front of the cut. The cursor behind an integer stands in front of the bytes
that are left, and the one behind an envelope is inside the bytes. So the
procedure that can be aborted never is, and has the outcome of the plain reader.
-/

namespace UtxoLedger

open AddressProcedure (cut difference)

/-! ## Pointers -/

namespace VarUint

theorem suffix_of_read {bytes rest : Bytes} {number : UInt64}
    (found : read bytes = .ok (number, rest)) : rest <:+ bytes := by
  obtain ⟨zeros, rfl⟩ := read_eq_ok_iff.1 found
  exact List.suffix_append _ rest

/-- The place of what is left of the bytes is told by how much is left. -/
theorem readAt_suffix {bytes rest : Bytes} (left : rest <:+ bytes) :
    readAt bytes (bytes.length - rest.length) =
      (read rest).map fun found => (found.1, bytes.length - found.2.length) := by
  rw [readAt_eq, ← List.suffix_iff_eq_drop.1 left]

end VarUint

theorem Pointer.ofBytesInPlace_eq (kind : UInt8) (bytes : Bytes) :
    ofBytesInPlace kind bytes = ofBytes kind bytes := by
  have start := VarUint.readAt_suffix (List.suffix_rfl : bytes <:+ bytes)
  rw [Nat.sub_self] at start
  unfold ofBytesInPlace ofBytes
  rw [start]
  cases first : VarUint.read bytes with
  | error error => rfl
  | ok found =>
      obtain ⟨slot, afterSlot⟩ := found
      have leftSlot := VarUint.suffix_of_read first
      simp only [Except.map, Except.mapError, bind, Except.bind, VarUint.readAt_suffix leftSlot]
      cases second : VarUint.read afterSlot with
      | error error => rfl
      | ok found =>
          obtain ⟨transaction, afterTransaction⟩ := found
          have leftTransaction := (VarUint.suffix_of_read second).trans leftSlot
          simp only [VarUint.readAt_suffix leftTransaction]
          cases third : VarUint.read afterTransaction with
          | error error => rfl
          | ok found =>
              obtain ⟨certificate, rest⟩ := found
              have left := ((VarUint.suffix_of_read third).trans leftTransaction).length_le
              have ends : bytes.length - rest.length = bytes.length ↔ rest.isEmpty = true := by
                rw [List.isEmpty_iff, ← List.length_eq_zero_iff]
                omega
              simp only [Except.map, ends]

/-! ## Envelopes -/

/-- A cursor that goes over bytes from the start stands inside the whole. -/
theorem Cbor.Cursor.Passes.inside {bytes used : Bytes} {after : Cursor}
    (passes : Passes ⟨bytes, 0⟩ used after) :
    after.position + after.rest.length = bytes.length := by
  have size := congrArg List.length passes.rest_eq
  rw [List.length_append] at size
  rw [passes.position_eq, Nat.zero_add]
  exact size.symm

theorem readEnvelopeInPlace_eq (bytes : Bytes) :
    (readEnvelopeInPlace bytes).run = some (readEnvelope bytes) := by
  unfold readEnvelopeInPlace readEnvelope
  rcases decoded : (Cbor.decode : Cbor.Decoder (Cbor.Tagged 24 Cbor.Blob × UInt64)).run
    ⟨bytes, 0⟩ with error | ⟨⟨payload, checksum⟩, after⟩
  · rfl
  · obtain ⟨used, -, passes⟩ := run_envelope_eq_ok_iff.1 ⟨payload, decoded⟩
    have inside := passes.inside
    by_cases ends : after.rest.isEmpty = true
    · have last : after.position = bytes.length := by
        rw [List.isEmpty_iff.1 ends] at inside
        exact inside
      simp only [if_pos ends, if_pos last]
      rfl
    · have before : after.position ≠ bytes.length := by
        rw [List.isEmpty_iff, ← List.length_eq_zero_iff] at ends
        omega
      have count : bytes.length - after.position = after.rest.length := by omega
      simp only [if_neg ends, if_neg before, difference, count]
      rw [if_pos (by omega)]
      rfl

theorem ByronAddress.ofBytes_of_error {bytes : Bytes} {error : AddressError}
    (failed : readEnvelope bytes = .error error) : ofBytes bytes = .error error := by
  unfold ofBytes
  split
  next found => exact nomatch found.symm.trans failed
  next other => exact congrArg Except.error (Except.error.inj (other.symm.trans failed))

theorem ByronAddress.ofBytesInPlace_eq (bytes : Bytes) :
    (ofBytesInPlace bytes).run = some (ofBytes bytes) := by
  have outcome : readEnvelopeInPlace bytes = AddressProcedure.ofExcept (readEnvelope bytes) :=
    readEnvelopeInPlace_eq bytes
  unfold ofBytesInPlace
  rw [outcome]
  split
  next checksum isEnvelope =>
    have found : AddressProcedure.ofExcept (readEnvelope bytes) = pure checksum :=
      congrArg AddressProcedure.ofExcept isEnvelope
    have kept : ofBytes bytes = .ok ⟨bytes, checksum, isEnvelope⟩ := ofBytes_eq_ok_iff.2 rfl
    rw [found, kept, pure_bind, if_pos rfl]
    rfl
  next error failed =>
    have refused : AddressProcedure.ofExcept (readEnvelope bytes) = throw error :=
      congrArg AddressProcedure.ofExcept failed
    rw [refused, ofBytes_of_error failed]
    rfl

namespace Address

/-! ## Payloads -/

theorem le_of_isPayloadSize {kind : UInt8} {size : Nat} (sized : isPayloadSize kind size = true) :
    28 ≤ size := by
  unfold isPayloadSize at sized
  dsimp only at sized
  split at sized
  next =>
    have whole := of_decide_eq_true sized
    omega
  next =>
    split at sized
    next => exact Nat.le_of_lt (of_decide_eq_true sized)
    next => exact Nat.le_of_eq (of_decide_eq_true sized).symm

theorem ofShelleyPayloadInPlace_eq (header : UInt8) (payload : Bytes) :
    (ofShelleyPayloadInPlace header payload).run = some (ofShelleyPayload header payload) := by
  rw [ofShelleyPayload_eq]
  unfold ofShelleyPayloadInPlace
  have part := Delegation.ofBytes.eq_def (header >>> 4)
  by_cases sized : isPayloadSize (header >>> 4) payload.length = true
  · simp only [sized, Bool.not_true, Bool.false_eq_true, if_false, if_true, cut,
      if_pos (le_of_isPayloadSize sized), pure_bind, Pointer.ofBytesInPlace_eq, ← part]
    cases payloadHash (header >>> 4) (payload.take 28) with
    | error error => rfl
    | ok hash =>
        cases Delegation.ofBytes (header >>> 4) (payload.drop 28) with
        | error error => rfl
        | ok part => rfl
  · simp only [sized, Bool.not_false, if_true]
    rfl

/-- No bytes abort the procedure, and it has the outcome of the plain reader. -/
theorem ofBytesInPlace_eq (bytes : Bytes) :
    (ofBytesInPlace bytes).run = some (ofBytes bytes) := by
  cases bytes with
  | nil => rfl
  | cons header payload =>
      unfold ofBytesInPlace ofBytes
      simp only
      split
      next => exact ofShelleyPayloadInPlace_eq header payload
      next =>
        split
        next =>
          have outcome : ByronAddress.ofBytesInPlace (header :: payload) =
              .ofExcept (ByronAddress.ofBytes (header :: payload)) :=
            ByronAddress.ofBytesInPlace_eq (header :: payload)
          rw [outcome]
          cases ByronAddress.ofBytes (header :: payload) with
          | error error => rfl
          | ok found => rfl
        next =>
          split
          next => rfl
          next => rfl

end Address

end UtxoLedger
