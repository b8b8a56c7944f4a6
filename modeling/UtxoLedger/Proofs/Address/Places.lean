import UtxoLedger.Proofs.OrderedMap
import UtxoLedger.Proofs.Wire.Received

/-!
# The places of addresses

Addresses are ordered by their parts, accounts by their header byte and their
hash, which is how they are written. So two addresses share a place only when
they are accounts with one written form, and this takes a network that the
header does not tell.
-/

namespace UtxoLedger

open Ranked

/-- Accounts have one place in their order exactly when they have one written form. -/
theorem StakeAddress.rank_eq_iff {first second : StakeAddress} :
    rank first = rank second ↔ first.toBytes = second.toBytes :=
  ⟨fun same => Bytes.rank_injective same, congrArg Bytes.rank⟩

/-- Accounts have different places exactly when they have different written forms. -/
theorem StakeAddress.nodup_places_iff {α : Type} {pairs : List (StakeAddress × α)} :
    (OrderedMap.places pairs).Nodup ↔ (pairs.map (·.1.toBytes)).Nodup := by
  have written : OrderedMap.places pairs = (pairs.map (·.1.toBytes)).map Bytes.rank := by
    rw [List.map_map]
    rfl
  rw [written]
  exact List.nodup_map_iff fun _ _ => Bytes.rank_injective

/-- Accounts whose headers tell their networks are told by their written forms. -/
theorem StakeAddress.eq_of_toBytes_eq {first second : StakeAddress}
    (left : first.network.FitsHeader) (right : second.network.FitsHeader)
    (same : first.toBytes = second.toBytes) : first = second := by
  have fits : (Address.stake first).FitsHeader := left
  have others : (Address.stake second).FitsHeader := right
  have read : Address.ofBytes first.toBytes = .ok (.stake first) := Address.isReadable_iff.2 fits
  rw [same] at read
  exact Address.stake.inj (Except.ok.inj (read.symm.trans (Address.isReadable_iff.2 others)))

/-- So such accounts have different written forms when they are different. -/
theorem StakeAddress.nodup_toBytes_of_fitsHeader {α : Type} {pairs : List (StakeAddress × α)}
    (fit : ∀ pair ∈ pairs, pair.1.network.FitsHeader) (distinct : (pairs.map (·.1)).Nodup) :
    (pairs.map (·.1.toBytes)).Nodup := by
  have apart : ((pairs.map (·.1)).map toBytes).Nodup := by
    refine distinct.map_on fun first member second other same => ?_
    obtain ⟨pair, listed, rfl⟩ := List.mem_map.1 member
    obtain ⟨another, noted, rfl⟩ := List.mem_map.1 other
    exact eq_of_toBytes_eq (fit pair listed) (fit another noted) same
  rwa [List.map_map] at apart

/-- Accounts with different written forms may be set in any order. -/
theorem StakeAddress.foldl_insert_perm {α : Type} {pairs others : List (StakeAddress × α)}
    (same : pairs.Perm others) (accounts : (pairs.map (·.1.toBytes)).Nodup)
    (map : OrderedMap StakeAddress α) :
    pairs.foldl (fun map pair => map.insert pair.1 pair.2) map =
      others.foldl (fun map pair => map.insert pair.1 pair.2) map :=
  OrderedMap.foldl_insert_perm same (List.pairwise_map.1 (nodup_places_iff.2 accounts)) map

theorem ByronAddress.eq_of_rank_eq {first second : ByronAddress} (same : rank first = rank second) :
    first = second := by
  obtain ⟨bytes, checksum, isEnvelope⟩ := first
  obtain ⟨others, other, isOther⟩ := second
  have words : bytes.map (fun byte => byte.toNat + 1) = others.map fun byte => byte.toNat + 1 :=
    List.append_cancel_right same
  obtain rfl : bytes = others :=
    (List.map_inj_right fun _ _ equal => UInt8.toNat_inj.1 (Nat.succ.inj equal)).1 words
  cases isEnvelope.symm.trans isOther
  rfl

namespace Address

/-! ## Parts -/

theorem length_networkRank (network : Network) : (networkRank network).length = 2 := by
  cases network <;> rfl

theorem networkRank_injective {first second : Network}
    (same : networkRank first = networkRank second) : first = second := by
  cases first <;> cases second <;>
    simp_all [networkRank, UInt8.toNat_inj]

theorem length_credentialRank (credential : Credential) :
    (credentialRank credential).length = 29 := by
  cases credential with
  | key hash | script hash =>
      change (hash.bytes.map UInt8.toNat).length + 1 = 29
      rw [List.length_map, hash.length_bytes]

theorem credentialRank_injective {first second : Credential}
    (same : credentialRank first = credentialRank second) : first = second := by
  cases first with
  | key hash =>
      cases second with
      | key other => rw [LawfulRanked.rank_injective (List.cons.inj same).2]
      | script other => exact absurd (List.cons.inj same).1 (by decide)
  | script hash =>
      cases second with
      | key other => exact absurd (List.cons.inj same).1 (by decide)
      | script other => rw [LawfulRanked.rank_injective (List.cons.inj same).2]

/-- The place of a credential starts with zero or one. -/
theorem credentialRank_ne {number : Nat} (above : 2 ≤ number) (credential : Credential)
    (rest : List Nat) : credentialRank credential ≠ number :: rest := by
  intro same
  cases credential with
  | key hash | script hash =>
      have first := (List.cons.inj same).1
      omega

theorem delegationRank_injective {first second : Delegation}
    (same : delegationRank first = delegationRank second) : first = second := by
  cases first with
  | credential part =>
      cases second with
      | credential other => rw [credentialRank_injective same]
      | pointer pointer | none => exact absurd same (credentialRank_ne (by decide) part _)
  | pointer pointer =>
      cases second with
      | credential other => exact absurd same.symm (credentialRank_ne (by decide) other _)
      | pointer other =>
          obtain ⟨slot, transaction, certificate⟩ := pointer
          obtain ⟨_, _, _⟩ := other
          simpa [delegationRank, Pointer.numbers, UInt64.toNat_inj] using same
      | none => exact absurd (List.cons.inj same).1 (by decide)
  | none =>
      cases second with
      | credential other => exact absurd same.symm (credentialRank_ne (by decide) other _)
      | pointer other => exact absurd (List.cons.inj same).1 (by decide)
      | none => rfl

theorem eq_of_parts_eq {first second : ShelleyAddress}
    (same : networkRank first.network ++ credentialRank first.payment ++
        delegationRank first.delegation =
      networkRank second.network ++ credentialRank second.payment ++
        delegationRank second.delegation) : first = second := by
  obtain ⟨network, payment, delegation⟩ := first
  obtain ⟨otherNetwork, otherPayment, otherDelegation⟩ := second
  have sizes : (networkRank network ++ credentialRank payment).length =
      (networkRank otherNetwork ++ credentialRank otherPayment).length := by
    simp [length_networkRank, length_credentialRank]
  obtain ⟨front, delegations⟩ := List.append_inj same sizes
  obtain ⟨networks, payments⟩ := List.append_inj front
    ((length_networkRank network).trans (length_networkRank otherNetwork).symm)
  cases networkRank_injective networks
  cases credentialRank_injective payments
  cases delegationRank_injective delegations
  rfl

/-! ## Addresses -/

/-- The addresses are the same, or accounts with the same written form. -/
def Alike : Address → Address → Prop
  | stake account, stake other => account.toBytes = other.toBytes
  | address, other => address = other

theorem alike_of_eq {first second : Address} (same : first = second) : Alike first second := by
  cases same
  cases first <;> rfl

/-- Addresses have one place exactly when they are alike. -/
theorem rank_eq_iff {first second : Address} : rank first = rank second ↔ Alike first second := by
  constructor
  · intro same
    cases first with
    | byron envelope =>
        cases second with
        | byron other => exact congrArg byron (ByronAddress.eq_of_rank_eq (List.cons.inj same).2)
        | shelley | stake => exact absurd (List.cons.inj same).1 (by decide)
    | shelley address =>
        cases second with
        | shelley other =>
            exact congrArg shelley (eq_of_parts_eq (List.cons.inj same).2)
        | byron | stake => exact absurd (List.cons.inj same).1 (by decide)
    | stake account =>
        cases second with
        | stake other => exact StakeAddress.rank_eq_iff.1 (List.cons.inj same).2
        | byron | shelley => exact absurd (List.cons.inj same).1 (by decide)
  · intro alike
    cases first with
    | stake account =>
        cases second with
        | stake other => exact congrArg (List.cons 2) (StakeAddress.rank_eq_iff.2 alike)
        | byron | shelley => cases alike
    | byron | shelley => exact congrArg rank alike

instance (first second : Address) : Decidable (Alike first second) :=
  decidable_of_iff _ rank_eq_iff

/-- The address is not an account, or the header of the account tells its network. No two such
addresses share a place. Left out are accounts of networks from `other 16` on, whose number leaves
the low half of the header, and of `other 0` and `other 1`, whose header names the test network and
the main network. -/
def HasOwnPlace : Address → Prop
  | stake account => account.network.FitsHeader
  | _ => True

theorem hasOwnPlace_of_isReadable {address : Address} (readable : address.IsReadable) :
    address.HasOwnPlace := by
  cases address with
  | stake account => exact isReadable_iff.1 readable
  | byron | shelley => trivial

/-- Addresses that have places of their own are alike only when they are the same. -/
theorem alike_iff_eq {first second : Address} (left : first.HasOwnPlace)
    (right : second.HasOwnPlace) : Alike first second ↔ first = second := by
  refine ⟨fun alike => ?_, alike_of_eq⟩
  cases first with
  | stake account =>
      cases second with
      | stake other => rw [StakeAddress.eq_of_toBytes_eq left right alike]
      | byron | shelley => cases alike
  | byron | shelley => exact alike

end Address

end UtxoLedger
