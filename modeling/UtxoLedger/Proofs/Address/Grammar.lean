import UtxoLedger.Proofs.Address.Denotation
import UtxoLedger.Proofs.Address.InPlace

/-!
# The bytes of addresses

The high half of the header byte tells what has to follow: two hashes, a hash
and three integers, a hash alone, or the rest of an envelope. Exactly the
bytes that follow this grammar are read as an address; all others are refused
with an error, and no bytes abort the reader.
-/

namespace UtxoLedger

/-- The bytes are a form of a word, with or without groups of zero in front. -/
def VarUint.IsInteger (bytes : Bytes) : Prop := IsForm bytes ∧ denoted bytes < bound64

open VarUint (IsInteger)

/-- The bytes that follow the grammar of addresses. -/
inductive IsAddress : Bytes → Prop where
  /-- Two hashes. -/
  | delegated {header : UInt8} {hashes : Bytes} (kind : header >>> 4 ≤ 3)
      (size : hashes.length = 56) : IsAddress (header :: hashes)
  /-- A hash and three integers. -/
  | pointing {header : UInt8} {hash slot transaction certificate : Bytes}
      (kind : header >>> 4 = 4 ∨ header >>> 4 = 5) (size : hash.length = 28)
      (first : IsInteger slot) (second : IsInteger transaction) (third : IsInteger certificate) :
      IsAddress (header :: (hash ++ (slot ++ (transaction ++ certificate))))
  /-- One hash, of a payment alone or of an account. -/
  | single {header : UInt8} {hash : Bytes}
      (kind : header >>> 4 = 6 ∨ header >>> 4 = 7 ∨ header >>> 4 = 14 ∨ header >>> 4 = 15)
      (size : hash.length = 28) : IsAddress (header :: hash)
  /-- An envelope whose first byte is the header. -/
  | envelope {header : UInt8} {rest : Bytes} {checksum : UInt64} (kind : header >>> 4 = 8)
      (whole : IsEnvelope checksum (header :: rest)) : IsAddress (header :: rest)

/-! ## Integers and pointers -/

/-- An integer is a word behind groups of zero. -/
theorem VarUint.isInteger_iff {bytes : Bytes} :
    IsInteger bytes ↔ ∃ zeros number, bytes = padded zeros number := by
  have whole (number : UInt64) : read bytes = .ok (number, []) ↔
      ∃ zeros, bytes = padded zeros number := by
    rw [read_eq_ok_iff]
    simp only [List.append_nil]
  constructor
  · rintro ⟨form, word⟩
    have same : denoted bytes = (UInt64.ofNat (denoted bytes)).toNat :=
      (UInt64.toNat_ofNat_of_lt' word).symm
    have found : read bytes = .ok (UInt64.ofNat (denoted bytes), []) :=
      read_eq_iff.2 ⟨bytes, (List.append_nil bytes).symm, form, same⟩
    obtain ⟨zeros, shape⟩ := (whole _).1 found
    exact ⟨zeros, _, shape⟩
  · rintro ⟨zeros, number, shape⟩
    obtain ⟨form, same, ends, word⟩ := read_eq_iff.1 ((whole number).2 ⟨zeros, shape⟩)
    rw [List.append_nil] at same
    rw [same]
    refine ⟨ends, ?_⟩
    rw [denoted, word]
    exact number.toNat_lt

theorem Pointer.exists_ofBytes_iff {kind : UInt8} {bytes : Bytes} :
    (∃ pointer, Pointer.ofBytes kind bytes = .ok pointer) ↔
      ∃ slot transaction certificate, IsInteger slot ∧ IsInteger transaction ∧
        IsInteger certificate ∧ bytes = slot ++ (transaction ++ certificate) := by
  simp only [Pointer.ofBytes_eq_ok_iff, VarUint.isInteger_iff]
  constructor
  · rintro ⟨pointer, padding, rfl⟩
    exact ⟨_, _, _, ⟨_, _, rfl⟩, ⟨_, _, rfl⟩, ⟨_, _, rfl⟩, rfl⟩
  · rintro ⟨_, _, _, ⟨first, slot, rfl⟩, ⟨second, transaction, rfl⟩, ⟨third, certificate, rfl⟩, rfl⟩
    exact ⟨⟨slot, transaction, certificate⟩, ⟨first, second, third⟩, rfl⟩

namespace Address

/-! ## Payloads -/

theorem exists_payloadHash_iff {kind : UInt8} {payload : Bytes} :
    (∃ hash, payloadHash kind payload = .ok hash) ↔ payload.length = 28 := by
  simp only [payloadHash_eq_ok_iff]
  constructor
  · rintro ⟨hash, rfl⟩
    exact hash.length_bytes
  · exact fun size => ⟨⟨⟨payload, size⟩⟩, rfl⟩

/-- The form of delegation that each of the first eight kinds has. -/
theorem form_of_kind {kind : UInt8} (small : kind < 8) :
    (kind ≤ 3 ∧ (kind &&& 6 = 0 ∨ kind &&& 6 = 2)) ∨ ((kind = 4 ∨ kind = 5) ∧ kind &&& 6 = 4) ∨
      ((kind = 6 ∨ kind = 7) ∧ kind &&& 6 = 6) := by
  have table : ∀ number < 8,
      (UInt8.ofNat number ≤ 3 ∧
        (UInt8.ofNat number &&& 6 = 0 ∨ UInt8.ofNat number &&& 6 = 2)) ∨
      ((UInt8.ofNat number = 4 ∨ UInt8.ofNat number = 5) ∧ UInt8.ofNat number &&& 6 = 4) ∨
      ((UInt8.ofNat number = 6 ∨ UInt8.ofNat number = 7) ∧ UInt8.ofNat number &&& 6 = 6) := by
    decide
  have row := table kind.toNat (UInt8.lt_iff_toNat_lt.1 small)
  rwa [UInt8.ofNat_toNat] at row

theorem exists_hashed_iff {kind : UInt8} {bytes : Bytes}
    (form : kind &&& 6 = 0 ∨ kind &&& 6 = 2) :
    (∃ part, Delegation.ofBytes kind bytes = .ok part) ↔ bytes.length = 28 := by
  unfold Delegation.ofBytes
  rcases form with form | form
  · rw [form]
    exact Except.exists_map_iff.trans exists_payloadHash_iff
  · rw [form]
    exact Except.exists_map_iff.trans exists_payloadHash_iff

theorem exists_pointer_iff {kind : UInt8} {bytes : Bytes} (form : kind &&& 6 = 4) :
    (∃ part, Delegation.ofBytes kind bytes = .ok part) ↔
      ∃ slot transaction certificate, IsInteger slot ∧ IsInteger transaction ∧
        IsInteger certificate ∧ bytes = slot ++ (transaction ++ certificate) := by
  unfold Delegation.ofBytes
  rw [form]
  exact Except.exists_map_iff.trans Pointer.exists_ofBytes_iff

theorem exists_none {kind : UInt8} (form : kind &&& 6 = 6) (bytes : Bytes) :
    ∃ part, Delegation.ofBytes kind bytes = .ok part := by
  unfold Delegation.ofBytes
  rw [form]
  exact ⟨_, rfl⟩

/-- The payload of one of the first eight kinds is read when its size suits the kind and its
part for delegation is read. -/
theorem exists_ofShelleyPayload_iff {header : UInt8} {payload : Bytes} :
    (∃ address, ofShelleyPayload header payload = .ok address) ↔
      isPayloadSize (header >>> 4) payload.length = true ∧ (payload.take 28).length = 28 ∧
        ∃ part, Delegation.ofBytes (header >>> 4) (payload.drop 28) = .ok part := by
  rw [ofShelleyPayload_eq]
  split
  next sized =>
    refine (Except.exists_bind_iff fun hash => Except.exists_map_iff).trans ?_
    rw [exists_payloadHash_iff]
    exact (and_iff_right sized).symm
  next other =>
    exact ⟨fun ⟨_, failed⟩ => (nomatch failed), fun ⟨sized, _⟩ => absurd sized other⟩

theorem exists_delegated_iff {header : UInt8} {payload : Bytes}
    (form : header >>> 4 &&& 6 = 0 ∨ header >>> 4 &&& 6 = 2) :
    (∃ address, ofShelleyPayload header payload = .ok address) ↔ payload.length = 56 := by
  have size : isPayloadSize (header >>> 4) payload.length = true ↔ payload.length = 56 := by
    rcases form with form | form <;> simp [isPayloadSize, form]
  rw [exists_ofShelleyPayload_iff, exists_hashed_iff form, size, List.length_take,
    List.length_drop]
  omega

theorem exists_pointing_iff {header : UInt8} {payload : Bytes} (form : header >>> 4 &&& 6 = 4) :
    (∃ address, ofShelleyPayload header payload = .ok address) ↔
      ∃ hash slot transaction certificate, hash.length = 28 ∧ IsInteger slot ∧
        IsInteger transaction ∧ IsInteger certificate ∧
          payload = hash ++ (slot ++ (transaction ++ certificate)) := by
  have size : isPayloadSize (header >>> 4) payload.length = true ↔ 28 < payload.length := by
    simp [isPayloadSize, form]
  rw [exists_ofShelleyPayload_iff, exists_pointer_iff form, size]
  constructor
  · rintro ⟨_, front, slot, transaction, certificate, first, second, third, rest⟩
    refine ⟨_, slot, transaction, certificate, front, first, second, third, ?_⟩
    rw [← rest, List.take_append_drop]
  · rintro ⟨hash, slot, transaction, certificate, front, first, second, third, rfl⟩
    have proceeds : 0 < slot.length := by
      obtain ⟨⟨before, last, rfl, -⟩, -⟩ := first
      simp
    refine ⟨?_, ?_, slot, transaction, certificate, first, second, third, ?_⟩
    · simp only [List.length_append, front]
      omega
    · rw [← front, List.take_left]
    · rw [← front, List.drop_left]

theorem exists_bare_iff {header : UInt8} {payload : Bytes} (form : header >>> 4 &&& 6 = 6) :
    (∃ address, ofShelleyPayload header payload = .ok address) ↔ payload.length = 28 := by
  have size : isPayloadSize (header >>> 4) payload.length = true ↔ payload.length = 28 := by
    simp [isPayloadSize, form]
  rw [exists_ofShelleyPayload_iff, size, List.length_take]
  constructor
  · exact And.left
  · exact fun same => ⟨same, by omega, exists_none form _⟩

theorem exists_ofStakePayload_iff {header : UInt8} {payload : Bytes} :
    (∃ address, ofStakePayload header payload = .ok address) ↔ payload.length = 28 := by
  unfold ofStakePayload
  exact Except.exists_map_iff.trans exists_payloadHash_iff

theorem exists_envelope_iff {bytes : Bytes} :
    (∃ address, ByronAddress.ofBytes bytes = .ok address) ↔
      ∃ checksum, IsEnvelope checksum bytes := by
  simp only [ByronAddress.ofBytes_eq_ok_iff, ← readEnvelope_eq_ok_iff]
  constructor
  · rintro ⟨address, rfl⟩
    exact ⟨address.checksum, address.isEnvelope⟩
  · exact fun ⟨checksum, envelope⟩ => ⟨⟨bytes, checksum, envelope⟩, rfl⟩

/-! ## The grammar -/

theorem ofBytes_of_lt {header : UInt8} (small : header >>> 4 < 8) (payload : Bytes) :
    ofBytes (header :: payload) = ofShelleyPayload header payload := by
  unfold ofBytes
  exact if_pos small

theorem ofBytes_of_eight {header : UInt8} (kind : header >>> 4 = 8) (payload : Bytes) :
    ofBytes (header :: payload) = byron <$> ByronAddress.ofBytes (header :: payload) := by
  unfold ofBytes
  simp only [kind]
  rfl

theorem ofBytes_of_account {header : UInt8} (kind : header >>> 4 = 14 ∨ header >>> 4 = 15)
    (payload : Bytes) : ofBytes (header :: payload) = ofStakePayload header payload := by
  unfold ofBytes
  rcases kind with kind | kind
  · simp only [kind]
    rfl
  · simp only [kind]
    rfl

/-- What follows the grammar is read as an address. -/
theorem exists_ofBytes_of_isAddress {bytes : Bytes} (grammar : IsAddress bytes) :
    ∃ address, ofBytes bytes = .ok address := by
  cases grammar with
  | delegated kind size =>
      have small := UInt8.lt_of_le_of_lt kind (by decide : (3 : UInt8) < 8)
      rw [ofBytes_of_lt small]
      rcases form_of_kind small with ⟨-, form⟩ | ⟨other, -⟩ | ⟨other, -⟩
      · exact (exists_delegated_iff form).2 size
      · rcases other with other | other <;> exact absurd (other ▸ kind) (by decide)
      · rcases other with other | other <;> exact absurd (other ▸ kind) (by decide)
  | @pointing header _ _ _ _ kind size first second third =>
      have form : header >>> 4 < 8 ∧ header >>> 4 &&& 6 = 4 := by
        rcases kind with kind | kind
        · rw [kind]
          decide
        · rw [kind]
          decide
      rw [ofBytes_of_lt form.1]
      exact (exists_pointing_iff form.2).2 ⟨_, _, _, _, size, first, second, third, rfl⟩
  | single kind size =>
      rcases kind with kind | kind | kind | kind
      · rw [ofBytes_of_lt (by rw [kind]; decide)]
        exact (exists_bare_iff (by rw [kind]; rfl)).2 size
      · rw [ofBytes_of_lt (by rw [kind]; decide)]
        exact (exists_bare_iff (by rw [kind]; rfl)).2 size
      · rw [ofBytes_of_account (.inl kind)]
        exact exists_ofStakePayload_iff.2 size
      · rw [ofBytes_of_account (.inr kind)]
        exact exists_ofStakePayload_iff.2 size
  | envelope kind whole =>
      rw [ofBytes_of_eight kind, Except.exists_map_iff, exists_envelope_iff]
      exact ⟨_, whole⟩

/-- What is read as an address follows the grammar. -/
theorem isAddress_of_ofBytes {bytes : Bytes} {address : Address}
    (read : ofBytes bytes = .ok address) : IsAddress bytes := by
  cases bytes with
  | nil => cases read
  | cons header payload =>
      by_cases small : header >>> 4 < 8
      · rw [ofBytes_of_lt small] at read
        rcases form_of_kind small with ⟨kind, form⟩ | ⟨kind, form⟩ | ⟨kind, form⟩
        · exact .delegated kind ((exists_delegated_iff form).1 ⟨address, read⟩)
        · obtain ⟨hash, slot, transaction, certificate, size, first, second, third, rfl⟩ :=
            (exists_pointing_iff form).1 ⟨address, read⟩
          exact .pointing kind size first second third
        · exact .single (or_assoc.1 (.inl kind)) ((exists_bare_iff form).1 ⟨address, read⟩)
      · by_cases eight : header >>> 4 = 8
        · rw [ofBytes_of_eight eight] at read
          obtain ⟨checksum, whole⟩ :=
            exists_envelope_iff.1 (Except.exists_map_iff.1 ⟨address, read⟩)
          exact .envelope eight whole
        · by_cases account : header >>> 4 = 14 ∨ header >>> 4 = 15
          · rw [ofBytes_of_account account] at read
            exact .single (.inr (.inr account)) (exists_ofStakePayload_iff.1 ⟨address, read⟩)
          · have refused : ofBytes (header :: payload) = .error (.invalidHeader header) := by
              unfold ofBytes
              simp only [if_neg small, if_neg eight]
              exact if_neg (by simpa using account)
            rw [refused] at read
            cases read

/-- Exactly the bytes that follow the grammar are read as an address, all others are refused
with an error, and the reader in place is never aborted on its way to the same outcome. -/
theorem ofBytes_exact (bytes : Bytes) :
    ((∃ address, ofBytes bytes = .ok address) ↔ IsAddress bytes) ∧
      ((∃ error, ofBytes bytes = .error error) ↔ ¬ IsAddress bytes) ∧
        (ofBytesInPlace bytes).run = some (ofBytes bytes) := by
  have accepted : (∃ address, ofBytes bytes = .ok address) ↔ IsAddress bytes :=
    ⟨fun ⟨_, read⟩ => isAddress_of_ofBytes read, exists_ofBytes_of_isAddress⟩
  refine ⟨accepted, ?_, ofBytesInPlace_eq bytes⟩
  rw [← accepted]
  cases ofBytes bytes with
  | error error => exact ⟨fun _ ⟨_, same⟩ => (nomatch same), fun _ => ⟨error, rfl⟩⟩
  | ok address => exact ⟨fun ⟨_, same⟩ => (nomatch same), fun none => absurd ⟨address, rfl⟩ none⟩

end Address

end UtxoLedger
