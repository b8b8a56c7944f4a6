import UtxoLedger.Proofs.Address.Spellings

/-!
# Addresses with the same bytes

The header byte joins the kind of an address with the number of its network.
A number above fifteen does not fit into its half of the byte: its high bits
fall on those of the kind, so the address may come out as one of another kind
or of another network. On networks of half a byte no two addresses are alike.
-/

namespace UtxoLedger

/-! ## Overlapping halves of a header -/

/-- The high bits of the number fall on the kind. -/
theorem addressHeader_high {kind : UInt8} (small : kind < 16) (network : Network) :
    addressHeader kind network >>> 4 = kind ||| network.number >>> 4 := by
  have high : kind.toNat < 16 := UInt8.lt_iff_toNat_lt.1 small
  have shifted : (kind <<< 4).toNat = kind.toNat * 2 ^ 4 := by
    rw [UInt8.toNat_shiftLeft, show (4 : UInt8).toNat % 8 = 4 from rfl, Nat.shiftLeft_eq]
    exact Nat.mod_eq_of_lt (by omega)
  apply UInt8.toNat_inj.1
  rw [addressHeader, UInt8.toNat_shiftRight, UInt8.toNat_or, UInt8.toNat_or,
    UInt8.toNat_shiftRight, show (4 : UInt8).toNat % 8 = 4 from rfl, Nat.shiftRight_or_distrib,
    shifted, Nat.shiftRight_eq_div_pow (_ * _), Nat.mul_div_cancel _ (by decide)]

theorem addressHeader_low (kind : UInt8) (network : Network) :
    addressHeader kind network &&& 0x0f = network.number &&& 0x0f := by
  have zeros : (kind <<< 4).toNat % 2 ^ 4 = 0 := by
    rw [UInt8.toNat_shiftLeft, show (4 : UInt8).toNat % 8 = 4 from rfl, Nat.shiftLeft_eq]
    omega
  apply UInt8.toNat_inj.1
  rw [toNat_and_fifteen, toNat_and_fifteen, addressHeader, UInt8.toNat_or]
  exact (Nat.or_mod_two_pow (n := 4)).trans (by rw [zeros, Nat.zero_or])

theorem eq_of_halves {first second : UInt8} (high : first >>> 4 = second >>> 4)
    (low : first &&& 0x0f = second &&& 0x0f) : first = second := by
  have above := congrArg UInt8.toNat high
  have below := congrArg UInt8.toNat low
  rw [toNat_shiftRight_four, toNat_shiftRight_four] at above
  rw [toNat_and_fifteen, toNat_and_fifteen] at below
  apply UInt8.toNat_inj.1
  omega

theorem addressHeader_eq_iff {kind other : UInt8} (small : kind < 16) (less : other < 16)
    (network another : Network) :
    addressHeader kind network = addressHeader other another ↔
      kind ||| network.number >>> 4 = other ||| another.number >>> 4 ∧
        network.number &&& 0x0f = another.number &&& 0x0f := by
  rw [← addressHeader_high small, ← addressHeader_high less, ← addressHeader_low kind,
    ← addressHeader_low other]
  constructor
  · intro same
    rw [same]
    exact ⟨rfl, rfl⟩
  · rintro ⟨high, low⟩
    exact eq_of_halves high low

/-! ## Behind the header -/

/-- Parts for delegation of one kind are told apart by their bytes. -/
theorem Delegation.eq_of_encode {first second : Delegation} (kind : first.kind = second.kind)
    (bytes : first.encode = second.encode) : first = second := by
  have bits : ∀ kind ∈ [(0 : UInt8), 2, 4, 6], kind &&& 6 = kind ∧ kind < 8 := by
    decide +kernel
  obtain ⟨form, small⟩ := bits _ first.kind_mem
  have sized := isPayloadSize_padded form .none
  have read : ofBytes first.kind (first.padded .none) = .ok first :=
    (ofBytes_eq_ok_iff small sized).2 ⟨form, .none, rfl⟩
  have again : ofBytes first.kind (first.padded .none) = .ok second :=
    (ofBytes_eq_ok_iff small sized).2
      ⟨form.trans kind, .none, by rw [padded_none, padded_none, bytes]⟩
  exact Except.ok.inj (read.symm.trans again)

theorem ShelleyAddress.kind_ne (address : ShelleyAddress) (account : StakeAddress) :
    address.kind ≠ account.kind := by
  intro same
  have low := address.kind_bits.1
  rw [same] at low
  rcases account.kind_cases with high | high <;> rw [high] at low <;> exact absurd low (by decide)

namespace Address

/-- The hash and the part for delegation that stand behind a header. -/
def content? : Address → Option (Hash 28 × Bytes)
  | byron _ => none
  | shelley address => some (address.payment.hash, address.delegation.encode)
  | stake account => some (account.credential.hash, [])

theorem kind_lt {address : Address} {network : Network}
    (located : address.network? = some network) : address.kind < 16 := by
  cases address with
  | byron => cases located
  | shelley address => exact address.kind_lt
  | stake account => exact account.kind_lt

/-- An address on a network is its header, a hash and a part for delegation. -/
theorem exists_content {address : Address} {network : Network}
    (located : address.network? = some network) :
    ∃ hash delegation, address.content? = some (hash, delegation) ∧
      address.toBytes = addressHeader address.kind network :: (hash.bytes ++ delegation) := by
  cases address with
  | byron => cases located
  | shelley address =>
      cases located
      exact ⟨_, _, rfl, rfl⟩
  | stake account =>
      cases located
      refine ⟨_, _, rfl, ?_⟩
      rw [List.append_nil]
      rfl

theorem toBytes_eq_iff_of_parts {first second : Address} {network other : Network}
    (left : first.network? = some network) (right : second.network? = some other) :
    first.toBytes = second.toBytes ↔
      addressHeader first.kind network = addressHeader second.kind other ∧
        first.content? = second.content? := by
  obtain ⟨hash, delegation, content, bytes⟩ := exists_content left
  obtain ⟨otherHash, otherDelegation, otherContent, otherBytes⟩ := exists_content right
  rw [bytes, otherBytes, content, otherContent, List.cons.injEq, Option.some.injEq,
    Prod.mk.injEq]
  refine and_congr_right fun _ => ⟨fun same => ?_, ?_⟩
  · have sizes : hash.bytes.length = otherHash.bytes.length := by
      rw [hash.length_bytes, otherHash.length_bytes]
    obtain ⟨hashes, delegations⟩ := List.append_inj same sizes
    exact ⟨Hash.ext hashes, delegations⟩
  · rintro ⟨rfl, rfl⟩
    rfl

/-- The kind says what the hash is of and how the rest is read. -/
theorem eq_of_content {first second : Address} {network : Network}
    (left : first.network? = some network) (right : second.network? = some network)
    (kind : first.kind = second.kind) (content : first.content? = second.content?) :
    first = second := by
  cases first with
  | byron => cases left
  | shelley address =>
      cases second with
      | byron => cases right
      | shelley found =>
          have kinds : address.kind = found.kind := kind
          obtain ⟨hash, bytes⟩ := Prod.mk.inj (Option.some.inj content)
          have networks := Option.some.inj (left.trans right.symm)
          have payment : address.payment = found.payment := by
            rw [← address.credentialOfKind_kind, ← found.credentialOfKind_kind, kinds, hash]
          have delegation : address.delegation = found.delegation := by
            refine Delegation.eq_of_encode ?_ bytes
            rw [← address.kind_bits.2.1, ← found.kind_bits.2.1, kinds]
          obtain ⟨_, _, _⟩ := address
          obtain ⟨_, _, _⟩ := found
          cases networks
          cases payment
          cases delegation
          rfl
      | stake account => exact absurd kind (address.kind_ne account)
  | stake account =>
      cases second with
      | byron => cases right
      | shelley found => exact absurd kind.symm (found.kind_ne account)
      | stake found =>
          have kinds : account.kind = found.kind := kind
          obtain ⟨hash, _⟩ := Prod.mk.inj (Option.some.inj content)
          have networks := Option.some.inj (left.trans right.symm)
          have credential : account.credential = found.credential := by
            rw [← account.credentialOfKind_kind, ← found.credentialOfKind_kind, kinds, hash]
          obtain ⟨_, _⟩ := account
          obtain ⟨_, _⟩ := found
          cases networks
          cases credential
          rfl

/-! ## Alike -/

theorem fitsHeader {address : Address} {number : UInt8}
    (located : address.network? = some (.ofNumber number)) (half : number < 16) :
    address.FitsHeader := by
  cases address with
  | byron => cases located
  | shelley address => exact ⟨number, half, Option.some.inj located⟩
  | stake account => exact ⟨number, half, Option.some.inj located⟩

theorem number_eq_of_ofNumber {number other : UInt8}
    (same : Network.ofNumber number = Network.ofNumber other) : number = other := by
  rw [← Network.number_ofNumber number, same, Network.number_ofNumber]

/-- Addresses have the same bytes exactly when they agree behind the header, in the low halves
of their networks' numbers, and in their kinds joined with the high halves. The bytes tell the
address to one who knows its kind and its network, and to everyone where the numbers take half a
byte. -/
theorem toBytes_eq_iff {first second : Address} {number other : UInt8}
    (left : first.network? = some (.ofNumber number))
    (right : second.network? = some (.ofNumber other)) :
    (first.toBytes = second.toBytes ↔
      first.kind ||| number >>> 4 = second.kind ||| other >>> 4 ∧
        number &&& 0x0f = other &&& 0x0f ∧ first.content? = second.content?) ∧
    (first = second ↔
      first.kind = second.kind ∧ number = other ∧ first.toBytes = second.toBytes) ∧
    (number < 16 → other < 16 → (first.toBytes = second.toBytes ↔ first = second)) := by
  have alike : first.toBytes = second.toBytes ↔
      first.kind ||| number >>> 4 = second.kind ||| other >>> 4 ∧
        number &&& 0x0f = other &&& 0x0f ∧ first.content? = second.content? := by
    rw [toBytes_eq_iff_of_parts left right, addressHeader_eq_iff (kind_lt left) (kind_lt right),
      Network.number_ofNumber, Network.number_ofNumber, and_assoc]
  have told : first.kind = second.kind → number = other → first.toBytes = second.toBytes →
      first = second := by
    rintro kind rfl bytes
    exact eq_of_content left right kind (alike.1 bytes).2.2
  refine ⟨alike, ⟨?_, fun ⟨kind, number, bytes⟩ => told kind number bytes⟩, ?_⟩
  · rintro rfl
    exact ⟨rfl, number_eq_of_ofNumber (Option.some.inj (left.symm.trans right)), rfl⟩
  · intro half less
    refine ⟨fun bytes => ?_, congrArg toBytes⟩
    have read := ofBytes_eq_ok_iff.2 ⟨fitsHeader left half, .none, (padded_none first).symm⟩
    have again := ofBytes_eq_ok_iff.2 ⟨fitsHeader right less, .none, (padded_none second).symm⟩
    rw [← bytes, read] at again
    exact Except.ok.inj again

namespace Sample

/-- A key spends, on a network whose number is one above half a byte. -/
def keyOnSixteen : Address := .shelley ⟨.ofNumber 16, .key ⟨.replicate 28 9⟩, .none⟩

/-- A script of the same hash spends, on the network of number zero. -/
def scriptOnTestnet : Address := .shelley ⟨.ofNumber 0, .script ⟨.replicate 28 9⟩, .none⟩

/-- An account of the network of number zero. -/
def accountOnTestnet : Address := .stake ⟨.ofNumber 0, .key ⟨.replicate 28 9⟩⟩

end Sample

/-- An address that a script spends from is no account: their bytes differ. -/
theorem toBytes_eq_iff_testnet :
    Sample.scriptOnTestnet.network? = some (.ofNumber 0) ∧
      Sample.accountOnTestnet.network? = some (.ofNumber 0) ∧ (0 : UInt8) < 16 ∧
      Sample.scriptOnTestnet.toBytes ≠ Sample.accountOnTestnet.toBytes := by
  have first : Sample.scriptOnTestnet.network? = some (.ofNumber 0) := rfl
  have second : Sample.accountOnTestnet.network? = some (.ofNumber 0) := rfl
  refine ⟨first, second, by decide, fun bytes => ?_⟩
  have same := ((toBytes_eq_iff first second).2.2 (by decide) (by decide)).1 bytes
  exact absurd same (by decide)

/-- What a key spends from on network sixteen has the bytes of what the script of the same hash
spends from on the network of number zero. -/
theorem toBytes_keyOnSixteen :
    Sample.keyOnSixteen.network? = some (.ofNumber 16) ∧
      Sample.scriptOnTestnet.network? = some (.ofNumber 0) ∧
      Sample.keyOnSixteen.toBytes = Sample.scriptOnTestnet.toBytes ∧
      Sample.keyOnSixteen ≠ Sample.scriptOnTestnet := by
  refine ⟨rfl, rfl, rfl, ?_⟩
  decide

end Address

end UtxoLedger
