import UtxoLedger.Proofs.Bech32.Reading
import UtxoLedger.Proofs.Wire.Addresses

/-!
# What a prefix means

The prefix of a text names a kind and a network, and so does the header byte
behind it. A reader looks at the header alone: it takes a text of either valid
residue under any prefix. The text that it came from is therefore shown again
only when the prefix agrees with the header.
-/

namespace UtxoLedger.Address

/-- Reading asks for some prefix and drops it. -/
theorem ofBech32_eq_ok_iff {text : String} {address : Address} :
    ofBech32 text = .ok address ↔
      ∃ named bytes, Bech32.decodeBytes text = .ok (named, bytes) ∧
        ofBytes bytes = .ok address := by
  unfold ofBech32
  constructor
  · intro read
    split at read
    next named bytes decoded => exact ⟨named, bytes, decoded, read⟩
    next => cases read
  · rintro ⟨named, bytes, decoded, read⟩
    rw [decoded]
    exact read

theorem toBech32_eq_ok {address : Address} {shown : String}
    (written : address.toBech32 = .ok shown) :
    ∃ named, address.humanPart = .ok named ∧
      Bech32.encodeBytes named address.toBytes = shown := by
  obtain ⟨named, found, written⟩ := Except.bind_eq_ok.1 written
  cases written
  exact ⟨named, found, rfl⟩

/-- An address that is read from a text under some prefix is shown as the same text in lower
case exactly when that is the prefix of its own kind and network, when no group of zero stands
in front of the integers of its pointer, and when the text has the residue of the older form. -/
theorem toBech32_eq_toLower_iff {text shown : String} {address : Address}
    (read : ofBech32 text = .ok address) (written : address.toBech32 = .ok shown) :
    ∃ named padding, Bech32.decodeBytes text = .ok (named, address.padded padding) ∧
      (∃ valid ∈ Bech32.validResidues, Bech32.residueOf? text = some valid) ∧
      (shown = text.toLower ↔
        address.humanPart = .ok named ∧ (address.pointer?.isSome → padding = .none) ∧
          Bech32.residueOf? text = some 1) := by
  obtain ⟨named, bytes, decoded, found⟩ := ofBech32_eq_ok_iff.1 read
  obtain ⟨_, padding, rfl⟩ := ofBytes_eq_ok_iff.1 found
  obtain ⟨own, humanPart, rfl⟩ := toBech32_eq_ok written
  refine ⟨named, padding, decoded, Bech32.exists_residue_of_decodeBytes decoded, ?_⟩
  rw [Bech32.encodeBytes_eq_toLower_iff decoded, padded_eq_toBytes_iff, humanPart, Except.ok.injEq]

namespace Sample

/-- What a key spends from on the network of number zero. -/
def payee : Address := .shelley ⟨.testnet, .key ⟨.replicate 28 9⟩, .none⟩

def payeeText : String := "addr_test1vqysjzgfpyysjzgfpyysjzgfpyysjzgfpyysjzgfpyysjzge3skru"

/-- The same bytes under the prefix of the other named network. -/
def misnamedText : String := "addr1vqysjzgfpyysjzgfpyysjzgfpyysjzgfpyysjzgfpyysjzgzt5mv7"

theorem toLower_payeeText : payeeText.toLower = payeeText := by
  rw [← String.toList_inj, Bech32.toList_toLower]
  decide +kernel

theorem toLower_misnamedText : misnamedText.toLower = misnamedText := by
  rw [← String.toList_inj, Bech32.toList_toLower]
  decide +kernel

end Sample

theorem toBech32_eq_toLower_iff_payee :
    ofBech32 Sample.payeeText = .ok Sample.payee ∧
      Sample.payee.toBech32 = .ok Sample.payeeText ∧
      Bech32.residueOf? Sample.payeeText = some 1 := by
  have read : ofBech32 Sample.payeeText = .ok Sample.payee :=
    Except.toOption_eq_some.1 (by decide +kernel)
  have written : Sample.payee.toBech32 = .ok Sample.payeeText :=
    Except.toOption_eq_some.1 (by decide +kernel)
  obtain ⟨_, _, _, _, shown⟩ := toBech32_eq_toLower_iff read written
  exact ⟨read, written, (shown.1 Sample.toLower_payeeText.symm).2.2⟩

/-- An address of the network of number zero is read from a text whose prefix names the other
network, and shown as another text. -/
theorem toBech32_ne_misnamedText :
    ofBech32 Sample.misnamedText = .ok Sample.payee ∧
      Sample.payee.toBech32 = .ok Sample.payeeText ∧
      Sample.payeeText ≠ Sample.misnamedText.toLower := by
  refine ⟨Except.toOption_eq_some.1 (by decide +kernel),
    Except.toOption_eq_some.1 (by decide +kernel), ?_⟩
  rw [Sample.toLower_misnamedText]
  decide

end UtxoLedger.Address
