import UtxoLedger.Address.Text
import UtxoLedger.Proofs.Wire.Received

/-!
# Addresses written and read

An address that is put together from its parts is read back from its bytes. An
address that was read is written in its own spelling, which is the one read
but for the integers of a pointer. What is parsed as an envelope is read back
from its bytes only when its array head is in short form, since the header
byte alone decides how an address is read.
-/

namespace UtxoLedger

open Cbor

/-! ## Sizes -/

theorem Pointer.length_encode_le (pointer : Pointer) : pointer.encode.length ≤ 30 := by
  have slot := VarUint.length_write_le pointer.slot
  have transaction := VarUint.length_write_le pointer.transaction
  have certificate := VarUint.length_write_le pointer.certificate
  simp only [Pointer.encode, Pointer.numbers, List.flatMap_cons, List.flatMap_nil,
    List.append_nil, List.length_append]
  omega

theorem Delegation.length_encode_le (delegation : Delegation) :
    delegation.encode.length ≤ 30 := by
  cases delegation with
  | credential part =>
      change part.hash.bytes.length ≤ 30
      rw [part.hash.length_bytes]
      decide
  | pointer part => exact part.length_encode_le
  | none => exact Nat.zero_le 30

theorem ShelleyAddress.length_toBytes_le (address : ShelleyAddress) :
    address.toBytes.length ≤ 59 := by
  have rest := address.delegation.length_encode_le
  rw [ShelleyAddress.toBytes, List.length_cons, List.length_append,
    address.payment.hash.length_bytes]
  omega

theorem StakeAddress.length_toBytes (account : StakeAddress) : account.toBytes.length = 29 := by
  rw [StakeAddress.toBytes, List.length_cons, account.credential.hash.length_bytes]

theorem length_encode_bytes_lt {content : Bytes} (short : content.length ≤ 59) :
    (Encoder.bytes content).length < bound64 := by
  have head := Encoder.headLength_le content.length
  rw [Encoder.bytes, List.length_append, Encoder.length_head]
  unfold bound64
  omega

namespace Address

/-! ## Addresses put together -/

/-- On every network of half a byte, an address of any parts and an account are read back from
their bytes and from their wire forms. -/
theorem decode_encode_of_half {number : UInt8} (half : number < 16) (payment : Credential)
    (delegation : Delegation) (stake : Credential) :
    let address : Address := .shelley ⟨.ofNumber number, payment, delegation⟩
    let account : StakeAddress := ⟨.ofNumber number, stake⟩
    (ofBytes address.toBytes = .ok address ∧
      decodeFragment Address (encode address) = .ok address) ∧
    (ofBytes account.toBytes = .ok (.stake account) ∧
      decodeFragment Address (encode (Address.stake account)) = .ok (.stake account) ∧
      decodeFragment StakeAddress (encode account) = .ok account) := by
  intro address account
  have fits : (Network.ofNumber number).FitsHeader := ⟨number, half, rfl⟩
  have readable : address.IsReadable := isReadable_iff.2 fits
  have readableAccount : account.IsReadable := isReadable_iff.2 fits
  have short : (encode address).length < bound64 :=
    length_encode_bytes_lt (ShelleyAddress.length_toBytes_le _)
  have shortAccount : (Encoder.bytes account.toBytes).length < bound64 :=
    length_encode_bytes_lt (by rw [account.length_toBytes]; decide)
  refine ⟨⟨readable, ?_⟩, readableAccount, ?_, ?_⟩
  · exact decodeFragment_encode (survives_of_isReadable readable) short
  · exact decodeFragment_encode (survives_of_isReadable readableAccount) shortAccount
  · exact decodeFragment_encode (StakeAddress.survives_of_isReadable readableAccount) shortAccount

/-- An address of network 5 that delegates by a pointer with the largest slot. -/
theorem decode_encode_of_half_pointer :
    let address : Address :=
      .shelley ⟨.ofNumber 5, .script ⟨.replicate 28 1⟩, .pointer ⟨0xffffffffffffffff, 128, 0⟩⟩
    (5 : UInt8) < 16 ∧ ofBytes address.toBytes = .ok address :=
  ⟨by decide, (decode_encode_of_half (by decide) _ _ (.key ⟨.replicate 28 2⟩)).1.1⟩

/-! ## Addresses read -/

/-- The pointer that an address delegates by. -/
def pointer? : Address → Option Pointer
  | shelley ⟨_, _, .pointer pointer⟩ => some pointer
  | _ => none

/-- A spelling is the address's own when no group of zero stands in front of the integers of
its pointer. -/
theorem padded_eq_toBytes_iff {padding : Pointer.Padding} {address : Address} :
    address.toBytes = address.padded padding ↔ (address.pointer?.isSome → padding = .none) := by
  cases address with
  | byron | stake => exact ⟨fun _ => nofun, fun _ => rfl⟩
  | shelley found =>
      obtain ⟨network, payment, delegation⟩ := found
      cases delegation with
      | credential | none => exact ⟨fun _ => nofun, fun _ => rfl⟩
      | pointer pointer =>
          constructor
          · intro same _
            have parts := List.append_cancel_left (List.cons.inj same).2
            exact Pointer.padded_eq_encode_iff.1 parts.symm
          · intro shortest
            rw [shortest rfl, padded_none]

/-- An address is read from its own bytes with any groups of zero in front of the integers of
its pointer, and from nothing else; its own bytes have no such groups. What is received in an
output is written back as the same output. -/
theorem ofBytes_spellings {bytes : Bytes} {address : Address}
    (read : ofBytes bytes = .ok address) :
    (∃ padding, bytes = address.padded padding ∧
      (address.toBytes = bytes ↔ (address.pointer?.isSome → padding = .none))) ∧
    (∀ other, ofBytes other = .ok address ↔ ∃ padding, other = address.padded padding) ∧
    ofBytes address.toBytes = .ok address ∧
    ∀ received (output : TransactionOutput),
      decodeFragment TransactionOutput received = .ok output →
        (encode output).length < bound64 →
          decodeFragment TransactionOutput (encode output) = .ok output := by
  obtain ⟨fits, padding, rfl⟩ := ofBytes_eq_ok_iff.1 read
  refine ⟨⟨padding, rfl, padded_eq_toBytes_iff⟩, fun other => ?_, isReadable_iff.2 fits, ?_⟩
  · rw [ofBytes_eq_ok_iff]
    exact and_iff_right fits
  · intro received output decoded small
    have sound := decodeFragment_yields TransactionOutput.yields_isWellFormed decoded
    exact decodeFragment_encode (TransactionOutput.survives_of_isWellFormed sound) small

namespace Sample

/-- An address of a network without a name that delegates by a pointer. -/
def pointing : Address := .shelley ⟨.other 2, .key ⟨.replicate 28 9⟩, .pointer ⟨1, 2, 3⟩⟩

/-- Its bytes with a group of zero in front of the slot. -/
def pointingBytes : Bytes := 0x42 :: (List.replicate 28 9 ++ [0x80, 1, 2, 3])

end Sample

theorem ofBytes_spellings_pointing :
    ofBytes Sample.pointingBytes = .ok Sample.pointing ∧
      ofBytes Sample.pointing.toBytes = .ok Sample.pointing :=
  have read : ofBytes Sample.pointingBytes = .ok Sample.pointing := rfl
  ⟨read, (ofBytes_spellings read).2.2.1⟩

/-- The group of zero is read and not written. -/
theorem toBytes_ne_pointingBytes :
    ofBytes Sample.pointingBytes = .ok Sample.pointing ∧
      Sample.pointing.toBytes ≠ Sample.pointingBytes := by
  constructor
  · rfl
  · decide

/-! ## Addresses parsed -/

/-- An address that one of the readers gives: of bytes, of the three texts, of any text, of an
envelope, or of the wire form in a stream. -/
inductive IsParsed : Address → Prop where
  | bytes {bytes : Bytes} {address : Address} (read : ofBytes bytes = .ok address) :
      IsParsed address
  | hex {text : String} {address : Address} (read : ofHex text = .ok address) : IsParsed address
  | bech32 {text : String} {address : Address} (read : ofBech32 text = .ok address) :
      IsParsed address
  | text {text : String} {address : Address} (read : ofText text = .ok address) :
      IsParsed address
  | base58 {text : String} {envelope : ByronAddress}
      (read : ByronAddress.ofBase58 text = .ok envelope) : IsParsed (.byron envelope)
  | envelope {bytes : Bytes} {envelope : ByronAddress}
      (read : ByronAddress.ofBytes bytes = .ok envelope) : IsParsed (.byron envelope)
  | wire {cursor after : Cursor} {address : Address}
      (read : (decode : Decoder Address).run cursor = .ok (address, after)) : IsParsed address

theorem isReadable_of_ofHex {text : String} {address : Address}
    (read : ofHex text = .ok address) : address.IsReadable := by
  unfold ofHex at read
  split at read
  next => exact isReadable_of_ofBytes read
  next => cases read

theorem isReadable_of_ofBech32 {text : String} {address : Address}
    (read : ofBech32 text = .ok address) : address.IsReadable := by
  unfold ofBech32 at read
  split at read
  next => exact isReadable_of_ofBytes read
  next => cases read

/-- Only an envelope may be parsed past the header. -/
theorem IsParsed.cases {address : Address} (parsed : address.IsParsed) :
    address.IsReadable ∨ ∃ envelope, address = .byron envelope := by
  cases parsed with
  | bytes read => exact .inl (isReadable_of_ofBytes read)
  | hex read => exact .inl (isReadable_of_ofHex read)
  | bech32 read => exact .inl (isReadable_of_ofBech32 read)
  | base58 | envelope => exact .inr ⟨_, rfl⟩
  | wire read => exact .inl (yields_isReadable read)
  | text read =>
      unfold ofText at read
      split at read
      next found =>
        cases read
        exact .inl (isReadable_of_ofBech32 found)
      next =>
        split at read
        next =>
          cases read
          exact .inr ⟨_, rfl⟩
        next =>
          split at read
          next found =>
            cases read
            exact .inl (isReadable_of_ofHex found)
          next => cases read

/-- The array head of an envelope is in short form; other addresses have none. -/
def HasShortHead : Address → Prop
  | byron envelope => envelope.HasShortHead
  | _ => True

theorem IsParsed.isReadable_iff {address : Address} (parsed : address.IsParsed) :
    address.IsReadable ↔ address.HasShortHead := by
  rcases parsed.cases with readable | ⟨envelope, rfl⟩
  · have fits := Address.isReadable_iff.1 readable
    cases address with
    | byron envelope => exact ⟨fun _ => fits, fun _ => readable⟩
    | shelley | stake => exact ⟨fun _ => trivial, fun _ => readable⟩
  · exact Address.isReadable_iff

/-- An output that pays a readable address is read back, perhaps in the map form. -/
theorem exists_decodeFragment_output {output : TransactionOutput}
    (readable : output.address.IsReadable) (datum : ∀ datum ∈ output.datum, datum.IsWellFormed)
    (small : (encode output).length < bound64) :
    ∃ again, decodeFragment TransactionOutput (encode output) = .ok again ∧
      again.address = output.address := by
  by_cases legacy : output.encodesAsLegacy = true
  · have sound := TransactionOutput.isWellFormed_of_encodesAsLegacy legacy readable
    have survives := TransactionOutput.survives_of_isWellFormed sound
    exact ⟨output, decodeFragment_encode survives small, rfl⟩
  · have encoded : encode output = TransactionOutput.mapRecord.encode output := if_neg legacy
    have reads : Reads decode (TransactionOutput.mapRecord.encode output) output.inMapForm :=
      reads_kind (Record.announces_encode _ output)
        (TransactionOutput.reads_decodeMap readable datum)
    rw [encoded] at small ⊢
    exact ⟨output.inMapForm, decodeFragment_of_reads reads small, rfl⟩

/-- An address that was parsed is what its own bytes are read as, and an output that pays it is
read as one that does, exactly when it is no envelope with an array head in long form. -/
theorem parsed_isReadable_iff {address : Address} (parsed : address.IsParsed) :
    (ofBytes address.toBytes = .ok address ↔ address.HasShortHead) ∧
    ∀ output : TransactionOutput, output.address = address →
      (∀ datum ∈ output.datum, datum.IsWellFormed) → (encode output).length < bound64 →
        ((∃ again, decodeFragment TransactionOutput (encode output) = .ok again ∧
          again.address = address) ↔ address.HasShortHead) := by
  refine ⟨parsed.isReadable_iff, ?_⟩
  rintro output rfl datum small
  rw [← parsed.isReadable_iff]
  constructor
  · rintro ⟨again, decoded, same⟩
    rw [← same]
    exact (decodeFragment_yields TransactionOutput.yields_isWellFormed decoded).address
  · exact fun readable => exists_decodeFragment_output readable datum small

namespace Sample

/-- The least envelope: an empty byte string under its tag, and the checksum zero. -/
def shortEnvelope : ByronAddress := ⟨[0x82, 0xd8, 0x18, 0x40, 0x00], 0, rfl⟩

/-- The same envelope with the length of its array in a byte of its own. -/
def longEnvelope : ByronAddress := ⟨[0x98, 0x02, 0xd8, 0x18, 0x40, 0x00], 0, rfl⟩

end Sample

theorem parsed_isReadable_shortEnvelope :
    IsParsed (.byron Sample.shortEnvelope) ∧
      ofBytes Sample.shortEnvelope.bytes = .ok (.byron Sample.shortEnvelope) :=
  have parsed : IsParsed (.byron Sample.shortEnvelope) :=
    .envelope (ByronAddress.ofBytes_eq_ok_iff.2 rfl)
  ⟨parsed, (parsed_isReadable_iff parsed).1.2 rfl⟩

/-- The longer form is parsed as an envelope, and its bytes are not read as an address. -/
theorem parsed_not_isReadable_longEnvelope :
    IsParsed (.byron Sample.longEnvelope) ∧
      ofBytes Sample.longEnvelope.bytes = .error (.invalidHeader 0x98) :=
  ⟨.envelope (ByronAddress.ofBytes_eq_ok_iff.2 rfl), rfl⟩

end Address

end UtxoLedger
