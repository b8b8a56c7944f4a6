import UtxoLedger.Address.Binary
import UtxoLedger.Proofs.Address.Integers
import UtxoLedger.Proofs.Outcome

/-!
# Spellings of an address

The header of an address tells its kind, its credentials' kinds and its
network, so the bytes of an address can be spelled in one way only, but for
the three integers of a pointer: they may stand behind groups of zero. An
envelope is its own spelling, and the header tells it when its array head is
in short form.
-/

namespace UtxoLedger

/-! ## Pointers -/

namespace Pointer

/-- How many groups of zero stand in front of each of the three integers. -/
structure Padding where
  slot : Nat
  transaction : Nat
  certificate : Nat
  deriving DecidableEq

/-- The three integers are in their shortest forms. -/
def Padding.none : Padding := ⟨0, 0, 0⟩

/-- The three integers behind groups of zero. -/
def padded (padding : Padding) (pointer : Pointer) : Bytes :=
  VarUint.padded padding.slot pointer.slot ++
    (VarUint.padded padding.transaction pointer.transaction ++
      VarUint.padded padding.certificate pointer.certificate)

theorem padded_none (pointer : Pointer) : pointer.padded .none = pointer.encode := by
  simp [padded, encode, numbers, Padding.none, VarUint.padded_zero]

theorem padded_ne_nil (padding : Padding) (pointer : Pointer) : pointer.padded padding ≠ [] := by
  intro nothing
  exact VarUint.padded_ne_nil _ _ (List.append_eq_nil_iff.1 nothing).1

theorem length_padded (padding : Padding) (pointer : Pointer) :
    (pointer.padded padding).length =
      padding.slot + padding.transaction + padding.certificate + pointer.encode.length := by
  rw [← padded_none]
  simp only [padded, Padding.none, VarUint.padded, List.length_append, List.length_replicate]
  omega

/-- Every group of zero shows. -/
theorem padded_eq_encode_iff {padding : Padding} {pointer : Pointer} :
    pointer.padded padding = pointer.encode ↔ padding = .none := by
  constructor
  · intro same
    have length := congrArg List.length same
    rw [length_padded] at length
    obtain ⟨slot, transaction, certificate⟩ := padding
    simp only [Padding.none, Padding.mk.injEq] at length ⊢
    omega
  · rintro rfl
    exact padded_none pointer

/-- Exactly the padded forms of a pointer are read as it. -/
theorem ofBytes_eq_ok_iff {kind : UInt8} {bytes : Bytes} {pointer : Pointer} :
    ofBytes kind bytes = .ok pointer ↔ ∃ padding, bytes = pointer.padded padding := by
  unfold ofBytes
  constructor
  · intro read
    obtain ⟨⟨slot, afterSlot⟩, readSlot, read⟩ := Except.bind_eq_ok.1 read
    obtain ⟨⟨transaction, afterTransaction⟩, readTransaction, read⟩ := Except.bind_eq_ok.1 read
    obtain ⟨⟨certificate, rest⟩, readCertificate, read⟩ := Except.bind_eq_ok.1 read
    rw [Except.mapError_eq_ok, VarUint.read_eq_ok_iff] at readSlot readTransaction readCertificate
    obtain ⟨first, rfl⟩ := readSlot
    obtain ⟨second, rfl⟩ := readTransaction
    obtain ⟨third, rfl⟩ := readCertificate
    simp only at read
    split at read
    next ends =>
      rw [List.isEmpty_iff] at ends
      cases read
      subst ends
      exact ⟨⟨first, second, third⟩, by simp only [padded, List.append_nil]⟩
    next => cases read
  · rintro ⟨padding, rfl⟩
    have slot := VarUint.read_padded padding.slot pointer.slot
      (VarUint.padded padding.transaction pointer.transaction ++
        VarUint.padded padding.certificate pointer.certificate)
    have transaction := VarUint.read_padded padding.transaction pointer.transaction
      (VarUint.padded padding.certificate pointer.certificate)
    have certificate := VarUint.read_padded padding.certificate pointer.certificate []
    rw [List.append_nil] at certificate
    refine Except.bind_eq_ok.2 ⟨_, Except.mapError_eq_ok.2 slot, ?_⟩
    refine Except.bind_eq_ok.2 ⟨_, Except.mapError_eq_ok.2 transaction, ?_⟩
    exact Except.bind_eq_ok.2 ⟨_, Except.mapError_eq_ok.2 certificate, rfl⟩

end Pointer

/-! ## Headers -/

theorem toNat_shiftRight_four (byte : UInt8) : (byte >>> 4).toNat = byte.toNat / 16 := by
  rw [UInt8.toNat_shiftRight, Nat.shiftRight_eq_div_pow]
  rfl

theorem toNat_and_fifteen (byte : UInt8) : (byte &&& 0x0f).toNat = byte.toNat % 16 := by
  rw [UInt8.toNat_and]
  exact Nat.and_two_pow_sub_one_eq_mod byte.toNat 4

theorem Network.number_ofNumber (number : UInt8) : (ofNumber number).number = number := by
  unfold ofNumber
  split
  next zero => exact zero.symm
  next =>
    split
    next one => exact one.symm
    next => rfl

/-- The network is the one of a number of half a byte. -/
def Network.FitsHeader (network : Network) : Prop :=
  ∃ number < (16 : UInt8), network = .ofNumber number

theorem toNat_addressHeader {kind number : UInt8} (small : kind < 16) (half : number < 16) :
    (addressHeader kind (.ofNumber number)).toNat = 16 * kind.toNat + number.toNat := by
  have high : kind.toNat < 16 := UInt8.lt_iff_toNat_lt.1 small
  have low : number.toNat < 2 ^ 4 := UInt8.lt_iff_toNat_lt.1 half
  have shifted : (kind <<< 4).toNat = kind.toNat <<< 4 := by
    rw [UInt8.toNat_shiftLeft, show (4 : UInt8).toNat % 8 = 4 from rfl]
    refine Nat.mod_eq_of_lt ?_
    rw [Nat.shiftLeft_eq]
    omega
  rw [addressHeader, Network.number_ofNumber, UInt8.toNat_or, shifted,
    ← Nat.shiftLeft_add_eq_or_of_lt low, Nat.shiftLeft_eq, Nat.mul_comm]

theorem addressHeader_shiftRight {kind : UInt8} (small : kind < 16) {network : Network}
    (fits : network.FitsHeader) : addressHeader kind network >>> 4 = kind := by
  obtain ⟨number, half, rfl⟩ := fits
  have low : number.toNat < 16 := UInt8.lt_iff_toNat_lt.1 half
  apply UInt8.toNat_inj.1
  rw [toNat_shiftRight_four, toNat_addressHeader small half]
  omega

theorem headerNetwork_addressHeader {kind : UInt8} (small : kind < 16) {network : Network}
    (fits : network.FitsHeader) :
    Address.headerNetwork (addressHeader kind network) = network := by
  obtain ⟨number, half, rfl⟩ := fits
  have low : number.toNat < 16 := UInt8.lt_iff_toNat_lt.1 half
  unfold Address.headerNetwork
  apply congrArg Network.ofNumber
  apply UInt8.toNat_inj.1
  rw [toNat_and_fifteen, toNat_addressHeader small half]
  omega

theorem headerNetwork_fitsHeader (header : UInt8) : (Address.headerNetwork header).FitsHeader := by
  refine ⟨header &&& 0x0f, ?_, rfl⟩
  rw [UInt8.lt_iff_toNat_lt, toNat_and_fifteen]
  exact Nat.mod_lt _ (by decide)

/-- A header is put together from its halves. -/
theorem addressHeader_halves (header : UInt8) :
    addressHeader (header >>> 4) (Address.headerNetwork header) = header := by
  have most := header.toNat_lt
  have high : header >>> 4 < 16 := by
    rw [UInt8.lt_iff_toNat_lt, toNat_shiftRight_four]
    change _ < 16
    omega
  have low : header &&& 0x0f < 16 := by
    rw [UInt8.lt_iff_toNat_lt, toNat_and_fifteen]
    exact Nat.mod_lt _ (by decide)
  apply UInt8.toNat_inj.1
  unfold Address.headerNetwork
  rw [toNat_addressHeader high low, toNat_shiftRight_four, toNat_and_fifteen]
  omega

/-! ## Payloads -/

namespace Address

theorem payloadHash_eq_ok_iff {kind : UInt8} {payload : Bytes} {hash : Hash 28} :
    payloadHash kind payload = .ok hash ↔ payload = hash.bytes := by
  unfold payloadHash
  constructor
  · intro read
    split at read
    next sized found =>
      cases read
      exact (SizedBytes.bytes_of_ofBytes? found).symm
    next => cases read
  · rintro rfl
    rw [SizedBytes.ofBytes?_bytes]

theorem credentialOfKind_hash (kind : UInt8) (hash : Hash 28) :
    (credentialOfKind kind hash).hash = hash := by
  unfold credentialOfKind
  split <;> rfl

end Address

theorem Delegation.kind_mem (delegation : Delegation) :
    delegation.kind ∈ [(0 : UInt8), 2, 4, 6] := by
  cases delegation with
  | credential part =>
      cases part with
      | key => exact .head _
      | script => exact .tail _ (.head _)
  | pointer => exact .tail _ (.tail _ (.head _))
  | none => exact .tail _ (.tail _ (.tail _ (.head _)))

namespace ShelleyAddress

/-- The three bits of a kind: the form of delegation in two, the kind of payment in one. -/
theorem kind_bits (address : ShelleyAddress) :
    address.kind < 8 ∧ address.kind &&& 6 = address.delegation.kind ∧
      (address.kind &&& 1 = 0 ↔ address.payment.isScript = false) := by
  have bits : ∀ form ∈ [(0 : UInt8), 2, 4, 6], ∀ isScript : Bool,
      (form ||| if isScript then 1 else 0) < 8 ∧
        (form ||| if isScript then 1 else 0) &&& 6 = form ∧
        ((form ||| if isScript then 1 else 0) &&& 1 = 0 ↔ isScript = false) := by
    decide +kernel
  exact bits _ address.delegation.kind_mem _

theorem kind_lt (address : ShelleyAddress) : address.kind < 16 :=
  UInt8.lt_trans address.kind_bits.1 (by decide)

theorem header_shiftRight {address : ShelleyAddress} (fits : address.network.FitsHeader) :
    address.header >>> 4 = address.kind :=
  addressHeader_shiftRight address.kind_lt fits

theorem credentialOfKind_kind (address : ShelleyAddress) :
    Address.credentialOfKind address.kind address.payment.hash = address.payment := by
  have bit := address.kind_bits.2.2
  unfold Address.credentialOfKind
  cases payment : address.payment with
  | script hash =>
      rw [payment] at bit
      rw [if_neg (fun zero => Bool.noConfusion (bit.1 zero))]
      rfl
  | key hash =>
      rw [payment] at bit
      rw [if_pos (bit.2 rfl)]
      rfl

/-- A kind is put together from its three bits. -/
theorem kind_eq_of_bits {address : ShelleyAddress} {kind : UInt8} {hash : Hash 28}
    (small : kind < 8) (form : kind &&& 6 = address.delegation.kind)
    (payment : address.payment = Address.credentialOfKind kind hash) : address.kind = kind := by
  have bits : ∀ number < 8, (UInt8.ofNat number &&& 6) |||
      (if UInt8.ofNat number &&& 1 = 0 then 0 else 1) = UInt8.ofNat number := by decide
  have joined := bits kind.toNat (UInt8.lt_iff_toNat_lt.1 small)
  rw [UInt8.ofNat_toNat] at joined
  unfold ShelleyAddress.kind
  rw [← form, payment]
  unfold Address.credentialOfKind
  by_cases even : kind &&& 1 = 0
  · rw [if_pos even] at joined ⊢
    exact joined
  · rw [if_neg even] at joined ⊢
    exact joined

end ShelleyAddress

namespace Delegation

open Address

/-- Reads the part for delegation of an address of a kind. -/
def ofBytes (kind : UInt8) (bytes : Bytes) : Except AddressError Delegation :=
  let form := kind &&& 6
  if form = 0 then (fun hash => credential (.key hash)) <$> payloadHash kind bytes
  else if form = 2 then (fun hash => credential (.script hash)) <$> payloadHash kind bytes
  else if form = 4 then pointer <$> Pointer.ofBytes kind bytes
  else pure none

/-- The part for delegation, the integers of a pointer behind groups of zero. -/
def padded (padding : Pointer.Padding) : Delegation → Bytes
  | pointer part => part.padded padding
  | part => part.encode

theorem padded_none (delegation : Delegation) : delegation.padded .none = delegation.encode := by
  cases delegation with
  | pointer part => exact part.padded_none
  | credential | none => rfl

/-- The size of the payload suits the kind. -/
theorem isPayloadSize_padded {kind : UInt8} {delegation : Delegation}
    (form : kind &&& 6 = delegation.kind) (padding : Pointer.Padding) :
    isPayloadSize kind (28 + (delegation.padded padding).length) = true := by
  unfold isPayloadSize
  rw [form]
  cases delegation with
  | credential part =>
      have sum : 28 + ((credential part).padded padding).length = 56 := by
        change 28 + part.hash.bytes.length = 56
        rw [part.hash.length_bytes]
      rw [sum]
      cases part <;> rfl
  | pointer part =>
      have proceeds := List.length_pos_iff.2 (part.padded_ne_nil padding)
      change decide (28 < 28 + (part.padded padding).length) = true
      exact decide_eq_true (Nat.lt_add_of_pos_right proceeds)
  | none => rfl

theorem form_cases {kind : UInt8} (small : kind < 8) :
    kind &&& 6 = 0 ∨ kind &&& 6 = 2 ∨ kind &&& 6 = 4 ∨ kind &&& 6 = 6 := by
  have forms : ∀ number < 8, UInt8.ofNat number &&& 6 = 0 ∨ UInt8.ofNat number &&& 6 = 2 ∨
      UInt8.ofNat number &&& 6 = 4 ∨ UInt8.ofNat number &&& 6 = 6 := by decide
  have form := forms kind.toNat (UInt8.lt_iff_toNat_lt.1 small)
  rwa [UInt8.ofNat_toNat] at form

/-- A reader of a kind takes the parts that have this kind, in all their spellings. -/
theorem ofBytes_eq_ok_iff {kind : UInt8} (small : kind < 8) {bytes : Bytes}
    {delegation : Delegation} (sized : isPayloadSize kind (28 + bytes.length) = true) :
    ofBytes kind bytes = .ok delegation ↔
      kind &&& 6 = delegation.kind ∧ ∃ padding, bytes = delegation.padded padding := by
  unfold ofBytes
  constructor
  · intro read
    simp only at read
    split at read
    next zero =>
      obtain ⟨hash, found, rfl⟩ := Except.map_eq_ok.1 read
      exact ⟨zero, .none, payloadHash_eq_ok_iff.1 found⟩
    next notZero =>
      split at read
      next two =>
        obtain ⟨hash, found, rfl⟩ := Except.map_eq_ok.1 read
        exact ⟨two, .none, payloadHash_eq_ok_iff.1 found⟩
      next notTwo =>
        split at read
        next four =>
          obtain ⟨part, found, rfl⟩ := Except.map_eq_ok.1 read
          exact ⟨four, Pointer.ofBytes_eq_ok_iff.1 found⟩
        next notFour =>
          cases read
          have form := form_cases small
          simp only [notZero, notTwo, notFour, false_or] at form
          refine ⟨form, .none, ?_⟩
          simp [isPayloadSize, form] at sized
          exact sized
  · rintro ⟨form, padding, rfl⟩
    cases delegation with
    | credential part =>
        have found : payloadHash kind part.hash.bytes = .ok part.hash :=
          payloadHash_eq_ok_iff.2 rfl
        cases part with
        | key hash =>
            change kind &&& 6 = 0 at form
            simp only [form]
            exact Except.map_eq_ok.2 ⟨hash, found, rfl⟩
        | script hash =>
            change kind &&& 6 = 2 at form
            simp only [form]
            exact Except.map_eq_ok.2 ⟨hash, found, rfl⟩
    | pointer part =>
        change kind &&& 6 = 4 at form
        simp only [form]
        exact Except.map_eq_ok.2 ⟨part, Pointer.ofBytes_eq_ok_iff.2 ⟨padding, rfl⟩, rfl⟩
    | none =>
        change kind &&& 6 = 6 at form
        simp only [form]
        rfl

end Delegation

/-- The bytes of an address, the integers of a pointer behind groups of zero. -/
def ShelleyAddress.padded (padding : Pointer.Padding) (address : ShelleyAddress) : Bytes :=
  address.header :: (address.payment.hash.bytes ++ address.delegation.padded padding)

namespace Address

theorem ofShelleyPayload_eq (header : UInt8) (payload : Bytes) :
    ofShelleyPayload header payload =
      if isPayloadSize (header >>> 4) payload.length then
        (payloadHash (header >>> 4) (payload.take 28)).bind fun hash =>
          (Delegation.ofBytes (header >>> 4) (payload.drop 28)).map fun delegation =>
            .shelley ⟨headerNetwork header, credentialOfKind (header >>> 4) hash, delegation⟩
      else .error (.invalidPayloadLength (header >>> 4) payload.length) := by
  unfold ofShelleyPayload
  by_cases sized : isPayloadSize (header >>> 4) payload.length = true
  · rw [if_pos sized]
    simp only [sized, Bool.not_true, Bool.false_eq_true, if_false]
    cases payloadHash (header >>> 4) (payload.take 28) with
    | error error => rfl
    | ok hash =>
        unfold Delegation.ofBytes
        simp only
        repeat' split
        all_goals rfl
  · rw [if_neg sized]
    simp only [sized, Bool.not_false, if_true]
    rfl

theorem ofShelleyPayload_eq_ok_iff {header : UInt8} (small : header >>> 4 < 8) {payload : Bytes}
    {address : Address} :
    ofShelleyPayload header payload = .ok address ↔
      ∃ found : ShelleyAddress, address = .shelley found ∧ found.network.FitsHeader ∧
        ∃ padding, header :: payload = found.padded padding := by
  rw [ofShelleyPayload_eq]
  constructor
  · intro read
    split at read
    next sized =>
      obtain ⟨hash, front, read⟩ := Except.bind_eq_ok.1 read
      obtain ⟨delegation, back, rfl⟩ := Except.map_eq_ok.1 read
      rw [payloadHash_eq_ok_iff] at front
      have whole : payload = hash.bytes ++ payload.drop 28 := by
        rw [← front, List.take_append_drop]
      have size : payload.length = 28 + (payload.drop 28).length := by
        rw [whole, List.length_append, hash.length_bytes, List.drop_left' hash.length_bytes]
      rw [size] at sized
      obtain ⟨form, padding, tail⟩ := (Delegation.ofBytes_eq_ok_iff small sized).1 back
      refine ⟨_, rfl, headerNetwork_fitsHeader header, padding, ?_⟩
      unfold ShelleyAddress.padded ShelleyAddress.header
      rw [ShelleyAddress.kind_eq_of_bits small form rfl, addressHeader_halves,
        credentialOfKind_hash, ← tail, ← whole]
    next => cases read
  · rintro ⟨found, rfl, fits, padding, same⟩
    obtain ⟨rfl, rfl⟩ := List.cons.inj same
    obtain ⟨less, form, _⟩ := found.kind_bits
    have kind := found.header_shiftRight fits
    have network : headerNetwork found.header = found.network :=
      headerNetwork_addressHeader found.kind_lt fits
    have size := found.payment.hash.length_bytes
    have sized := Delegation.isPayloadSize_padded form padding
    rw [kind, List.length_append, size, if_pos sized, List.take_left' size, List.drop_left' size]
    refine Except.bind_eq_ok.2 ⟨_, payloadHash_eq_ok_iff.2 rfl, ?_⟩
    refine Except.map_eq_ok.2
      ⟨_, (Delegation.ofBytes_eq_ok_iff less sized).2 ⟨form, padding, rfl⟩, ?_⟩
    rw [network, found.credentialOfKind_kind]

end Address

/-! ## Reward accounts -/

namespace StakeAddress

theorem kind_cases (account : StakeAddress) : account.kind = 14 ∨ account.kind = 15 := by
  unfold kind
  cases account.credential.isScript with
  | false => exact .inl rfl
  | true => exact .inr rfl

theorem kind_lt (account : StakeAddress) : account.kind < 16 := by
  rcases account.kind_cases with kind | kind <;> rw [kind] <;> decide

theorem header_shiftRight {account : StakeAddress} (fits : account.network.FitsHeader) :
    account.header >>> 4 = account.kind :=
  addressHeader_shiftRight account.kind_lt fits

theorem credentialOfKind_kind (account : StakeAddress) :
    Address.credentialOfKind account.kind account.credential.hash = account.credential := by
  obtain ⟨network, credential⟩ := account
  cases credential with
  | script hash => exact if_neg (by decide : ¬ (15 : UInt8) &&& 1 = 0)
  | key hash => exact if_pos (by decide : (14 : UInt8) &&& 1 = 0)

/-- The kind of an account is told by the credential that is read by it. -/
theorem kind_eq_of_credential {account : StakeAddress} {kind : UInt8} {hash : Hash 28}
    (known : kind = 14 ∨ kind = 15)
    (credential : account.credential = Address.credentialOfKind kind hash) :
    account.kind = kind := by
  unfold StakeAddress.kind
  rw [credential]
  rcases known with rfl | rfl <;> rfl

end StakeAddress

namespace Address

theorem ofStakePayload_eq_ok_iff {header : UInt8} (known : header >>> 4 = 14 ∨ header >>> 4 = 15)
    {payload : Bytes} {address : Address} :
    ofStakePayload header payload = .ok address ↔
      ∃ account : StakeAddress, address = .stake account ∧ account.network.FitsHeader ∧
        header :: payload = account.toBytes := by
  unfold ofStakePayload
  constructor
  · intro read
    obtain ⟨hash, found, read⟩ := Except.bind_eq_ok.1 read
    cases read
    refine ⟨_, rfl, headerNetwork_fitsHeader header, ?_⟩
    unfold StakeAddress.toBytes StakeAddress.header
    rw [StakeAddress.kind_eq_of_credential known rfl, addressHeader_halves, credentialOfKind_hash,
      payloadHash_eq_ok_iff.1 found]
  · rintro ⟨account, rfl, fits, same⟩
    obtain ⟨rfl, rfl⟩ := List.cons.inj same
    have kind := account.header_shiftRight fits
    have network : headerNetwork account.header = account.network :=
      headerNetwork_addressHeader account.kind_lt fits
    refine Except.bind_eq_ok.2 ⟨_, payloadHash_eq_ok_iff.2 rfl, ?_⟩
    rw [network, kind, account.credentialOfKind_kind]
    rfl

end Address

/-! ## Envelopes -/

namespace ByronAddress

theorem ofBytes_eq_ok_iff {bytes : Bytes} {address : ByronAddress} :
    ofBytes bytes = .ok address ↔ address.bytes = bytes := by
  constructor
  · exact bytes_of_ofBytes
  · rintro rfl
    unfold ofBytes
    split
    next checksum isEnvelope =>
      have same := address.isEnvelope.symm.trans isEnvelope
      cases same
      rfl
    next error isEnvelope =>
      rw [address.isEnvelope] at isEnvelope
      cases isEnvelope

/-- The array head of the envelope is the one byte that announces two items. -/
def HasShortHead (address : ByronAddress) : Prop := address.bytes.head? = some 0x82

/-- An envelope starts with the head of an array of two items. -/
theorem exists_array_of_envelope {bytes : Bytes} {checksum : UInt64}
    (envelope : readEnvelope bytes = .ok checksum) :
    ∃ after, Cbor.Decoder.array.run ⟨bytes, 0⟩ = .ok (some 2, after) := by
  unfold readEnvelope at envelope
  split at envelope
  next => cases envelope
  next _ _ checksum after read =>
    obtain ⟨_, tupled, head, _⟩ := Cbor.Decoder.run_bind_eq_ok.1 read
    obtain ⟨length, opened, array, checks⟩ := Cbor.Decoder.run_bind_eq_ok.1 head
    by_cases two : length = some 2
    · rw [two] at array
      exact ⟨opened, array⟩
    · rw [if_neg two] at checks
      cases checks

/-- The array head is in short form when the header byte tells an envelope. -/
theorem eq_short_of_array {first : UInt8} {rest : Bytes} {after : Cbor.Cursor}
    (array : Cbor.Decoder.array.run ⟨first :: rest, 0⟩ = .ok (some 2, after))
    (kind : first >>> 4 = 8) : first = 0x82 := by
  have high := congrArg UInt8.toNat kind
  rw [toNat_shiftRight_four] at high
  change first.toNat / 16 = 8 at high
  obtain ⟨_, _, byte, head⟩ := Cbor.Decoder.run_bind_eq_ok.1 array
  cases byte
  rw [if_pos (by omega), if_neg (by omega)] at head
  obtain ⟨length, _, argument, same⟩ := Cbor.Decoder.run_bind_eq_ok.1 head
  unfold Cbor.Decoder.argument at argument
  rw [if_pos (by omega)] at argument
  have length_eq : first.toNat % 32 = length := congrArg Prod.fst (Except.ok.inj argument)
  have two : length = 2 := Option.some.inj (congrArg Prod.fst (Except.ok.inj same))
  apply UInt8.toNat_inj.1
  change first.toNat = 130
  omega

/-- The header byte tells an envelope exactly when the array head is in short form. -/
theorem hasShortHead_iff {address : ByronAddress} {first : UInt8} {rest : Bytes}
    (bytes : address.bytes = first :: rest) : address.HasShortHead ↔ first >>> 4 = 8 := by
  unfold HasShortHead
  rw [bytes, List.head?_cons, Option.some.injEq]
  constructor
  · rintro rfl
    rfl
  · intro kind
    have envelope := address.isEnvelope
    rw [bytes] at envelope
    obtain ⟨after, array⟩ := exists_array_of_envelope envelope
    exact eq_short_of_array array kind

end ByronAddress

/-! ## Addresses of any kind -/

namespace Address

/-- The bytes of an address, the integers of a pointer behind groups of zero. -/
def padded (padding : Pointer.Padding) : Address → Bytes
  | shelley address => address.padded padding
  | address => address.toBytes

theorem padded_none (address : Address) : address.padded .none = address.toBytes := by
  cases address with
  | shelley address =>
      change address.padded .none = address.toBytes
      rw [ShelleyAddress.padded, Delegation.padded_none]
      rfl
  | byron | stake => rfl

/-- The header can tell the address: its network number takes half a byte, or the array head
of its envelope is in short form. -/
def FitsHeader : Address → Prop
  | byron address => address.HasShortHead
  | shelley address => address.network.FitsHeader
  | stake address => address.network.FitsHeader

/-- Exactly the spellings of an address that its header can tell are read as it. -/
theorem ofBytes_eq_ok_iff {bytes : Bytes} {address : Address} :
    ofBytes bytes = .ok address ↔
      address.FitsHeader ∧ ∃ padding, bytes = address.padded padding := by
  cases bytes with
  | nil =>
      constructor
      · intro read
        cases read
      · rintro ⟨fits, padding, same⟩
        cases address with
        | byron address =>
            change address.bytes.head? = some 0x82 at fits
            rw [← show [] = address.bytes from same] at fits
            cases fits
        | shelley | stake => cases same
  | cons header payload =>
      constructor
      · intro read
        unfold ofBytes at read
        simp only at read
        split at read
        next small =>
          obtain ⟨found, rfl, fits, spelling⟩ := (ofShelleyPayload_eq_ok_iff small).1 read
          exact ⟨fits, spelling⟩
        next =>
          split at read
          next eight =>
            obtain ⟨envelope, found, rfl⟩ := Except.map_eq_ok.1 read
            rw [ByronAddress.ofBytes_eq_ok_iff] at found
            exact ⟨(ByronAddress.hasShortHead_iff found).2 eight, .none, found.symm⟩
          next =>
            split at read
            next known =>
              have kinds : header >>> 4 = 14 ∨ header >>> 4 = 15 := by simpa using known
              obtain ⟨account, rfl, fits, same⟩ := (ofStakePayload_eq_ok_iff kinds).1 read
              exact ⟨fits, .none, same⟩
            next => cases read
      · rintro ⟨fits, padding, same⟩
        unfold ofBytes
        cases address with
        | shelley found =>
            obtain ⟨header_eq, _⟩ := List.cons.inj same
            have small : header >>> 4 < 8 := by
              rw [header_eq, found.header_shiftRight fits]
              exact found.kind_bits.1
            simp only [if_pos small]
            exact (ofShelleyPayload_eq_ok_iff small).2 ⟨found, rfl, fits, padding, same⟩
        | byron envelope =>
            have eight := (ByronAddress.hasShortHead_iff same.symm).1 fits
            simp only [eight]
            exact Except.map_eq_ok.2 ⟨envelope, ByronAddress.ofBytes_eq_ok_iff.2 same.symm, rfl⟩
        | stake account =>
            obtain ⟨header_eq, _⟩ := List.cons.inj same
            have kinds : header >>> 4 = 14 ∨ header >>> 4 = 15 := by
              rw [header_eq, account.header_shiftRight fits]
              exact account.kind_cases
            have read := (ofStakePayload_eq_ok_iff kinds).2 ⟨account, rfl, fits, same⟩
            rcases kinds with kind | kind <;> simp only [kind] <;> exact read

end Address

end UtxoLedger
