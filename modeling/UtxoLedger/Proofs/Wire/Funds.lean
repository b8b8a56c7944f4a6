import UtxoLedger.Proofs.Wire.Names

/-!
# Addresses and values that survive

An address is read back when its own bytes are; not all are, since a network
number may not fit the half byte that it is written in. Values always are: a
bundle is canonical, which is what its decoder asks for.
-/

namespace UtxoLedger

open Cbor

/-! ## Addresses -/

/-- The address is what its own bytes are read as. -/
def Address.IsReadable (address : Address) : Prop :=
  Address.ofBytes address.toBytes = .ok address

/-- The account is what its own bytes are read as. -/
def StakeAddress.IsReadable (account : StakeAddress) : Prop :=
  Address.IsReadable (.stake account)

theorem Address.survives_of_isReadable {address : Address} (readable : address.IsReadable) :
    Survives address :=
  reads_checkedBytes readable

theorem StakeAddress.survives_of_isReadable {account : StakeAddress}
    (readable : account.IsReadable) : Survives account := by
  have reads := Address.survives_of_isReadable readable
  exact reads_position fun start => reads.bind_last (reads_pure account)

instance : ProperCodec StakeAddress :=
  ⟨fun account => ⟨.bytes, announces_bytes account.toBytes, nofun, nofun⟩⟩

/-- Every account of a map of amounts is readable. -/
def StakeAddress.AllReadable (amounts : OrderedMap StakeAddress UInt64) : Prop :=
  ∀ entry ∈ amounts.entries, entry.1.IsReadable

theorem StakeAddress.survives_of_allReadable {amounts : OrderedMap StakeAddress UInt64}
    (readable : AllReadable amounts) : Survives amounts :=
  survives_orderedMap (fun entry listed => survives_of_isReadable (readable entry listed))
    fun entry _ => survives entry.2

/-! ## Values -/

instance : LawfulCodec MultiAsset where
  survives bundle := by
    refine reads_position fun start => (survives bundle.policies).bind_last ?_
    have clean := (MultiAsset.fault?_eq_none_iff bundle.policies).2 bundle.canonical
    split
    next reason fault =>
      rw [clean] at fault
      cases fault
    next => exact reads_pure bundle

/-- A bundle without policies is the empty one. -/
theorem MultiAsset.eq_empty_of_isEmpty {bundle : MultiAsset} (nothing : bundle.isEmpty = true) :
    bundle = .empty := by
  obtain ⟨⟨entries, ascending⟩, canonical⟩ := bundle
  have none : entries = [] := List.isEmpty_iff.1 nothing
  subst none
  rfl

theorem Value.reads_ofCoin (coin : UInt64) :
    Reads (decode : Decoder Value) (encode coin) (Value.ofCoin coin) := by
  obtain ⟨kind, listed, announces⟩ := announces_unsigned coin.toNat
  have reads := Reads.map (survives coin) Value.ofCoin
  refine reads_kind announces ?_
  rcases mem_wordKinds.1 listed with rfl | rfl | rfl | rfl <;> exact reads

instance : LawfulCodec Value where
  survives value := by
    obtain ⟨coin, assets⟩ := value
    unfold Survives
    cases pure : assets.isEmpty with
    | true =>
        rw [MultiAsset.eq_empty_of_isEmpty pure]
        exact Value.reads_ofCoin coin
    | false =>
        have shape : encode (⟨coin, assets⟩ : Value) =
            Encoder.array 2 ++ (encode coin ++ encode assets) := by
          change (if assets.isEmpty then _ else _) = _
          rw [pure, if_neg Bool.false_ne_true, List.append_assoc]
        rw [shape]
        refine reads_kind ((announces_array 2).append _) ?_
        refine reads_position fun start => (reads_array (by decide)).bind ?_
        rw [if_pos rfl]
        exact (survives coin).bind ((survives assets).bind_last (reads_pure _))

end UtxoLedger
