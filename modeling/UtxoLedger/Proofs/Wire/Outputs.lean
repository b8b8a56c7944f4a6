import UtxoLedger.Proofs.Cbor.Records
import UtxoLedger.Proofs.Cbor.Skip
import UtxoLedger.Proofs.Wire.Funds
import UtxoLedger.Proofs.Wire.Scripts

/-!
# Outputs that survive

An output is read back in the form that it asks for. The array form has no
place for inline data or a script, so an output that carries either and asks
for the array form comes back asking for the map form.
-/

namespace UtxoLedger

open Cbor

/-! ## Datums -/

/-- Data that stands inline is one item. -/
def Datum.IsWellFormed : Datum → Prop
  | hash _ => True
  | inline data => data.IsSingle

theorem Datum.survives_of_isWellFormed {datum : Datum} (sound : datum.IsWellFormed) :
    Survives datum := by
  refine reads_position fun start => ?_
  cases datum with
  | hash found =>
      change Reads _ (Encoder.array 2 ++ Encoder.unsigned 0 ++ encode found) _
      rw [List.append_assoc]
      refine (reads_array (by decide)).bind ?_
      rw [if_neg (fun differs => differs rfl)]
      exact (reads_unsigned (by decide)).bind (Reads.map (survives found) hash)
  | inline data =>
      change Reads _ (Encoder.array 2 ++ Encoder.unsigned 1 ++ Encoder.tag embeddedTag ++
        Encoder.bytes data.bytes) _
      rw [List.append_assoc, List.append_assoc]
      refine (reads_array (by decide)).bind ?_
      rw [if_neg (fun differs => differs rfl)]
      refine (reads_unsigned (by decide)).bind (reads_position fun place => ?_)
      refine (reads_embeddedBytes data.bytes).bind_last ?_
      rw [show RawItem.ofBytes data.bytes = .ok data from sound]
      exact reads_pure _

namespace TransactionOutput

/-! ## Forms -/

/-- The address is readable, inline data is one item, and the output asks for the map form
when it carries inline data or a script. -/
structure IsWellFormed (output : TransactionOutput) : Prop where
  address : output.address.IsReadable
  datum : ∀ datum ∈ output.datum, datum.IsWellFormed
  inline : ∀ data, output.datum = some (.inline data) → output.format = .postAlonzo
  script : output.script.isSome = true → output.format = .postAlonzo

/-- An output that asks for the array form is written in it. -/
theorem IsWellFormed.encodesAsLegacy_iff {output : TransactionOutput}
    (sound : output.IsWellFormed) :
    output.encodesAsLegacy = true ↔ output.format = .legacy := by
  obtain ⟨address, amount, datum, script, format⟩ := output
  cases format with
  | postAlonzo => simp [encodesAsLegacy]
  | legacy =>
      cases script with
      | some script => exact absurd (sound.script rfl) nofun
      | none =>
          cases datum with
          | none => simp [encodesAsLegacy]
          | some datum =>
              cases datum with
              | hash found => simp [encodesAsLegacy]
              | inline data => exact absurd (sound.inline data rfl) nofun

/-- What is written in the array form has nothing that needs the map form. -/
theorem isWellFormed_of_encodesAsLegacy {output : TransactionOutput}
    (legacy : output.encodesAsLegacy = true) (address : output.address.IsReadable) :
    output.IsWellFormed := by
  obtain ⟨_, amount, datum, script, format⟩ := output
  cases format with
  | postAlonzo => cases legacy
  | legacy =>
      cases script with
      | some script => cases legacy
      | none =>
          cases datum with
          | none => exact ⟨address, nofun, nofun, nofun⟩
          | some datum =>
              cases datum with
              | inline data => cases legacy
              | hash found =>
                  refine ⟨address, ?_, nofun, nofun⟩
                  rintro datum ⟨⟩
                  exact trivial

/-- The array form is read back. -/
theorem reads_decodeLegacy {output : TransactionOutput} (sound : output.IsWellFormed)
    (legacy : output.encodesAsLegacy = true) :
    Reads decodeLegacy output.encodeLegacy output := by
  have format := sound.encodesAsLegacy_iff.1 legacy
  have readable := Address.survives_of_isReadable sound.address
  obtain ⟨address, amount, datum, script, _⟩ := output
  cases format
  cases script with
  | some script => cases legacy
  | none =>
      cases datum with
      | none =>
          change Reads decodeLegacy (Encoder.array 2 ++ encode address ++ encode amount ++ []) _
          rw [List.append_nil, List.append_assoc]
          refine Reads.bind (reads_position fun start => (reads_array (by decide)).bind_last
            (reads_pure 2)) ?_
          exact readable.bind (Reads.bind_last (survives amount) (reads_pure _))
      | some datum =>
          cases datum with
          | inline data => cases legacy
          | hash found =>
              change Reads decodeLegacy
                (Encoder.array 3 ++ encode address ++ encode amount ++ encode found) _
              rw [List.append_assoc, List.append_assoc]
              refine Reads.bind (reads_position fun start => (reads_array (by decide)).bind_last
                (reads_pure 3)) ?_
              exact readable.bind (Reads.bind (survives amount)
                ((Reads.map (survives found) (some ∘ Datum.hash)).bind_last (reads_pure _)))

/-- The map form is read back as an output that asks for it, whatever was asked for before. -/
theorem reads_decodeMap {output : TransactionOutput} (address : output.address.IsReadable)
    (datum : ∀ datum ∈ output.datum, datum.IsWellFormed) :
    Reads (mapRecord.decode blank) (mapRecord.encode output) output.inMapForm := by
  have encoded : mapRecord.encode output = mapRecord.encode output.inMapForm := rfl
  rw [encoded]
  refine Record.reads_decode ?_
  refine .mandatory (Address.survives_of_isReadable address) ?_
  refine .mandatory (survives output.amount) ?_
  refine .optional rfl (fun found held => Datum.survives_of_isWellFormed (datum found held)) ?_
  refine .optional rfl (fun held _ => survives_embedded (survives held.value)) ?_
  obtain ⟨address, amount, datum, script, _⟩ := output
  cases script <;> exact .nil _

theorem survives_of_isWellFormed {output : TransactionOutput} (sound : output.IsWellFormed) :
    Survives output := by
  change Reads decode (if output.encodesAsLegacy then _ else _) output
  by_cases legacy : output.encodesAsLegacy = true
  · have announces : Announces output.encodeLegacy .array :=
      (((announces_array _).append _).append _).append _
    rw [if_pos legacy]
    exact reads_kind announces (reads_decodeLegacy sound legacy)
  · have same : output.inMapForm = output := by
      have other := mt sound.encodesAsLegacy_iff.2 legacy
      obtain ⟨address, amount, datum, script, format⟩ := output
      cases format with
      | legacy => exact absurd rfl other
      | postAlonzo => rfl
    have reads := reads_decodeMap sound.address sound.datum
    rw [same] at reads
    rw [if_neg legacy]
    exact reads_kind (Record.announces_encode mapRecord output) reads

end TransactionOutput

instance : ProperCodec TransactionOutput where
  announces output := by
    change ∃ kind, Announces (if output.encodesAsLegacy then _ else _) kind ∧ _
    split
    · exact ⟨.array, (((announces_array _).append _).append _).append _, nofun, nofun⟩
    · exact ⟨.map, Record.announces_encode _ output, nofun, nofun⟩

end UtxoLedger
