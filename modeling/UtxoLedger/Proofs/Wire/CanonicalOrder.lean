import Mathlib.Data.List.Nodup
import UtxoLedger.Proofs.Address.Places
import UtxoLedger.Proofs.Cbor.EncodedLength
import UtxoLedger.Proofs.OrderedMap
import UtxoLedger.Proofs.Value.Quantities
import UtxoLedger.Transaction.Body

/-!
# The order of written keys

In a canonical map the keys stand by increasing length of their written
forms, and those of one length in byte order. Maps are kept in the order of
their keys, so they are written canonically where a key that comes before
another one is also written before it. Names, hashes and accounts are such
keys: a longer name never has a shorter head. The written form of a map tells
its content alone, whatever the order in which its entries were set.
-/

namespace UtxoLedger

open Ranked

/-! ## Byte strings -/

namespace Bytes

/-- The first byte string is shorter, or both have one length and it comes first byte by byte. -/
def CanonicallyBefore (first second : Bytes) : Prop :=
  first.length < second.length ∨ first.length = second.length ∧ first < second

instance (first second : Bytes) : Decidable (CanonicallyBefore first second) :=
  inferInstanceAs (Decidable (_ ∨ _))

theorem CanonicallyBefore.asymm {first second : Bytes} (before : CanonicallyBefore first second) :
    ¬ CanonicallyBefore second first := by
  rcases before with shorter | ⟨level, earlier⟩
  · rintro (longer | ⟨level, -⟩) <;> omega
  · rintro (shorter | ⟨-, later⟩)
    · omega
    · exact List.lt_asymm earlier later

theorem CanonicallyBefore.ne {first second : Bytes} (before : CanonicallyBefore first second) :
    first ≠ second := by
  rintro rfl
  exact before.asymm before

/-- The order of ranks is byte order. -/
theorem rank_lt_iff {first second : Bytes} : rank first < rank second ↔ first < second := by
  induction first generalizing second with
  | nil => cases second <;> simp [rank]
  | cons byte rest ih =>
      cases second with
      | nil => simp [rank]
      | cons other later =>
          have tails : rest.map UInt8.toNat < later.map UInt8.toNat ↔ rest < later := ih
          simp only [rank, List.map_cons, List.cons_lt_cons_iff, tails, UInt8.lt_iff_toNat_lt,
            UInt8.toNat_inj]

/-- Byte strings are written in the order that they stand in. -/
theorem CanonicallyBefore.encode {first second : Bytes}
    (before : CanonicallyBefore first second) :
    CanonicallyBefore (Cbor.Encoder.bytes first) (Cbor.Encoder.bytes second) := by
  unfold CanonicallyBefore Cbor.Encoder.bytes
  rw [List.length_append, List.length_append, Cbor.Encoder.length_head, Cbor.Encoder.length_head]
  rcases before with shorter | ⟨level, earlier⟩
  · have heads := Cbor.Encoder.headLength_mono (Nat.le_of_lt shorter)
    left
    omega
  · right
    rw [level]
    exact ⟨rfl, List.append_left_lt earlier⟩

/-- From 24 bytes on the head takes a byte more. -/
example : CanonicallyBefore (Cbor.Encoder.bytes (List.replicate 23 255))
    (Cbor.Encoder.bytes (List.replicate 24 0)) := by decide

end Bytes

/-! ## Keys -/

namespace Cbor

/-- Keys that are written in the order in which a map keeps them. -/
class CanonicalKey (κ : Type) [Ranked κ] [Codec κ] : Prop where
  before_encode : ∀ {first second : κ}, Before first second →
    (encode first).CanonicallyBefore (encode second)
  encode_eq : ∀ {first second : κ}, rank first = rank second → encode first = encode second

instance : CanonicalKey AssetName where
  before_encode {first second} before := by
    apply Bytes.CanonicallyBefore.encode
    rcases List.cons_lt_cons_iff.1 before with shorter | ⟨level, earlier⟩
    · exact .inl shorter
    · exact .inr ⟨level, Bytes.rank_lt_iff.1 earlier⟩
  encode_eq same := congrArg encode (LawfulRanked.rank_injective same)

instance {size : Nat} : CanonicalKey (Hash size) where
  before_encode {first second} before := by
    apply Bytes.CanonicallyBefore.encode
    exact .inr ⟨first.length_bytes.trans second.length_bytes.symm, Bytes.rank_lt_iff.1 before⟩
  encode_eq same := congrArg encode (LawfulRanked.rank_injective same)

/-- An account is written as the header byte and the hash that it is ordered by. -/
instance : CanonicalKey StakeAddress where
  before_encode {first second} before := by
    apply Bytes.CanonicallyBefore.encode
    refine .inr ⟨?_, Bytes.rank_lt_iff.1 before⟩
    rw [StakeAddress.toBytes, StakeAddress.toBytes, List.length_cons, List.length_cons,
      first.credential.hash.length_bytes, second.credential.hash.length_bytes]
  encode_eq same := congrArg Encoder.bytes (StakeAddress.rank_eq_iff.1 same)

/-- The bytes are a map of some written keys and values, in the canonical order of the keys. -/
structure IsCanonicalMap (bytes : Bytes) (entries : List (Bytes × Bytes)) : Prop where
  written : bytes =
    Encoder.map entries.length ++ entries.flatMap fun entry => entry.1 ++ entry.2
  ascending : entries.Pairwise fun earlier later => earlier.1.CanonicallyBefore later.1

end Cbor

/-! ## Maps -/

namespace OrderedMap

open Cbor

variable {κ ν : Type} [Ranked κ] [Codec κ] [Codec ν]

/-- The written forms of the keys and the values. -/
def writtenEntries (map : OrderedMap κ ν) : List (Bytes × Bytes) :=
  map.entries.map fun entry => (encode entry.1, encode entry.2)

theorem encode_eq (map : OrderedMap κ ν) :
    encode map = Encoder.map map.writtenEntries.length ++
      map.writtenEntries.flatMap fun entry => entry.1 ++ entry.2 := by
  rw [writtenEntries, List.length_map, List.flatMap_map]
  rfl

variable [CanonicalKey κ]

theorem writtenEntries_ascending (map : OrderedMap κ ν) :
    map.writtenEntries.Pairwise fun earlier later => earlier.1.CanonicallyBefore later.1 :=
  List.pairwise_map.2 (map.ascending.imp CanonicalKey.before_encode)

theorem isCanonicalMap_encode (map : OrderedMap κ ν) :
    IsCanonicalMap (encode map) map.writtenEntries :=
  ⟨map.encode_eq, map.writtenEntries_ascending⟩

theorem writtenEntries_subset {first second : OrderedMap κ ν}
    (same : ∀ key, first.atPlace? key = second.atPlace? key) :
    first.writtenEntries ⊆ second.writtenEntries := by
  intro bytes member
  obtain ⟨⟨key, value⟩, listed, rfl⟩ := List.mem_map.1 member
  have present : first.atPlace? key = some value :=
    (lookupPlace_eq_some_iff first.nodup_places).2 ⟨key, rfl, listed⟩
  rw [same key] at present
  obtain ⟨other, level, found⟩ := (lookupPlace_eq_some_iff second.nodup_places).1 present
  refine List.mem_map.2 ⟨(other, value), found, ?_⟩
  rw [CanonicalKey.encode_eq level]

/-- Maps with the same value at every place are written alike. -/
theorem encode_eq_of_atPlace?_eq {first second : OrderedMap κ ν}
    (same : ∀ key, first.atPlace? key = second.atPlace? key) : encode first = encode second := by
  have distinct (map : OrderedMap κ ν) : map.writtenEntries.Nodup :=
    map.writtenEntries_ascending.imp fun before equal => before.ne (congrArg Prod.fst equal)
  have perm : first.writtenEntries.Perm second.writtenEntries := by
    refine (List.perm_ext_iff_of_nodup (distinct first) (distinct second)).2 fun entry => ?_
    exact ⟨(writtenEntries_subset same ·), (writtenEntries_subset (fun key => (same key).symm) ·)⟩
  have equal : first.writtenEntries = second.writtenEntries := by
    refine List.Perm.eq_of_pairwise ?_ first.writtenEntries_ascending
      second.writtenEntries_ascending perm
    intro earlier later _ _ before after
    exact absurd after before.asymm
  rw [encode_eq, encode_eq, equal]

end OrderedMap

/-! ## Bundles and withdrawals -/

namespace MultiAsset

open Cbor

/-- The policies of a bundle and the names under each policy are written canonically. -/
structure IsWrittenCanonically (bundle : MultiAsset) : Prop where
  policies : IsCanonicalMap (encode bundle) bundle.policies.writtenEntries
  names : ∀ group ∈ bundle.policies.entries, IsCanonicalMap (encode group.2) group.2.writtenEntries

theorem isWrittenCanonically (bundle : MultiAsset) : bundle.IsWrittenCanonically where
  policies := bundle.policies.isCanonicalMap_encode
  names group _ := group.2.isCanonicalMap_encode

/-- Quantities of different assets may be added in any order. -/
theorem ofEntries_perm {first second : List (Asset × Int64)} (same : first.Perm second)
    (assets : (first.map Prod.fst).Nodup) : ofEntries first = ofEntries second := by
  apply ext_get
  intro asset
  rw [ofEntries, ofEntries, get_addAll, get_addAll]
  -- There is one entry of the asset at the most, so no two of them can change places.
  refine (same.filter fun entry => decide (entry.1 = asset)).foldl_eq' ?_ _
  intro entry member other otherMember total
  obtain ⟨listed, ofAsset⟩ := List.mem_filter.1 member
  obtain ⟨otherListed, otherOfAsset⟩ := List.mem_filter.1 otherMember
  have equal : entry.1 = other.1 :=
    (of_decide_eq_true ofAsset).trans (of_decide_eq_true otherOfAsset).symm
  rw [List.inj_on_of_nodup_map assets listed otherListed equal]

end MultiAsset

open Cbor

/-- The maps of a bundle and a map of withdrawals list their keys in canonical order. Their written
forms tell their content alone: what stands at every asset or account, and not in which order it
was set. -/
theorem encode_canonical (bundle : MultiAsset) (withdrawals : Withdrawals) :
    bundle.IsWrittenCanonically ∧
      IsCanonicalMap (encode withdrawals) withdrawals.writtenEntries ∧
      (∀ other : MultiAsset, (∀ asset, bundle.get asset = other.get asset) →
        encode bundle = encode other) ∧
      (∀ other : Withdrawals, (∀ account, withdrawals.atPlace? account = other.atPlace? account) →
        encode withdrawals = encode other) ∧
      (∀ entries others : List (Asset × Int64), entries.Perm others →
        (entries.map Prod.fst).Nodup →
        encode (MultiAsset.ofEntries entries) = encode (MultiAsset.ofEntries others)) ∧
      ∀ entries others : List (StakeAddress × UInt64), entries.Perm others →
        (entries.map (·.1.toBytes)).Nodup →
        encode (OrderedMap.ofList entries) = encode (OrderedMap.ofList others) := by
  refine ⟨bundle.isWrittenCanonically, withdrawals.isCanonicalMap_encode, ?_, ?_, ?_, ?_⟩
  · intro other same
    rw [MultiAsset.ext_get same]
  · intro other same
    exact OrderedMap.encode_eq_of_atPlace?_eq same
  · intro entries others same assets
    rw [MultiAsset.ofEntries_perm same assets]
  · intro entries others same accounts
    exact congrArg encode (StakeAddress.foldl_insert_perm same accounts .empty)

namespace CanonicalOrder

/-- A name whose head takes a byte more than that of the other name. -/
def longName : AssetName := ⟨List.replicate 24 0, by decide⟩

def shortName : AssetName := ⟨List.replicate 23 255, by decide⟩

def quantities : List (Asset × Int64) :=
  [(⟨⟨.replicate 28 1⟩, longName⟩, 5), (⟨⟨.replicate 28 1⟩, shortName⟩, 7)]

def rewards : List (StakeAddress × UInt64) :=
  [(⟨.mainnet, .key ⟨.replicate 28 2⟩⟩, 4), (⟨.testnet, .key ⟨.replicate 28 3⟩⟩, 3)]

end CanonicalOrder

/-- Two names and two accounts, set in either order. -/
theorem encode_canonical_reversed :
    (MultiAsset.ofEntries CanonicalOrder.quantities).IsWrittenCanonically ∧
      (CanonicalOrder.quantities.Perm CanonicalOrder.quantities.reverse ∧
        (CanonicalOrder.quantities.map Prod.fst).Nodup) ∧
      encode (MultiAsset.ofEntries CanonicalOrder.quantities) =
        encode (MultiAsset.ofEntries CanonicalOrder.quantities.reverse) ∧
      (CanonicalOrder.rewards.Perm CanonicalOrder.rewards.reverse ∧
        (CanonicalOrder.rewards.map (·.1.toBytes)).Nodup) ∧
      encode (OrderedMap.ofList CanonicalOrder.rewards) =
        encode (OrderedMap.ofList CanonicalOrder.rewards.reverse) := by
  have quantities := List.reverse_perm CanonicalOrder.quantities
  have rewards := List.reverse_perm CanonicalOrder.rewards
  have assets : (CanonicalOrder.quantities.map Prod.fst).Nodup := by decide
  have accounts : (CanonicalOrder.rewards.map (·.1.toBytes)).Nodup := by decide
  obtain ⟨canonical, -, -, -, bundles, withdrawals⟩ := encode_canonical
    (MultiAsset.ofEntries CanonicalOrder.quantities) (.ofList CanonicalOrder.rewards)
  exact ⟨canonical, ⟨quantities.symm, assets⟩, bundles _ _ quantities.symm assets,
    ⟨rewards.symm, accounts⟩, withdrawals _ _ rewards.symm accounts⟩

end UtxoLedger
