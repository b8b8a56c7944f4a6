import UtxoLedger.Proofs.Cbor.Yields
import UtxoLedger.Proofs.Wire.Forward
import UtxoLedger.Proofs.Wire.Outputs

/-!
# What hides behind the script of an output

An output refers to a script by embedding it. The script is read from the start
of the embedded string, so bytes may hide behind it: the output is accepted,
and they are gone when it is written again. Inline data is embedded in the same
way, but its reader asks for exactly one item.
-/

namespace UtxoLedger

open Cbor

/-! ## Records with the same readers -/

/-- How a record is read does not depend on how its fields are written. -/
theorem Cbor.Record.decode_eq_of_readers {ρ : Type} {first second : Record ρ}
    (named : first.name = second.name)
    (same : (first.entries.map fun entry => (entry.field, entry.read)) =
      second.entries.map fun entry => (entry.field, entry.read)) (blank : ρ) :
    first.decode blank = second.decode blank := by
  have layout : first.layout = second.layout := by
    have fields := congrArg (List.map Prod.fst) same
    rw [List.map_map, List.map_map] at fields
    exact (MapLayout.mk.injEq ..).mpr ⟨named, fields⟩
  have visit : first.visit = second.visit := by
    funext field value
    have reader (record : Record ρ) : record.visit field value =
        ((record.entries.map fun entry => (entry.field, entry.read)).find?
          (·.1.key = field.key)).elim
            (Decoder.fail (.unknownKey field.key record.name)) (·.2 value) := by
      rw [List.find?_map, Record.visit]
      change _ = ((record.entry? field).map _).elim _ _
      cases record.entry? field <;> rfl
    rw [reader, reader, same, named]
  rw [decode, decode, layout, visit]

namespace TransactionOutput

/-! ## Reading the script -/

variable {state next final output : TransactionOutput} {cursor after : Cursor} {script : Script}

/-- A field leaves the script as it is or reads it. -/
theorem script_of_visit {field : Field}
    (read : (mapRecord.visit field state).run cursor = .ok (next, after)) :
    next.script = state.script ∨ ∃ script, next.script = some script ∧
      (decode : Decoder (Embedded Script)).run cursor = .ok (⟨script⟩, after) := by
  unfold Record.visit at read
  split at read
  next entry found =>
    have member := List.mem_of_find?_eq_some found
    simp only [mapRecord, List.mem_cons, List.not_mem_nil, or_false] at member
    rcases member with rfl | rfl | rfl | rfl
    · obtain ⟨address, -, rfl⟩ := Decoder.run_map_eq_ok.1 read
      exact .inl rfl
    · obtain ⟨amount, -, rfl⟩ := Decoder.run_map_eq_ok.1 read
      exact .inl rfl
    · obtain ⟨datum, -, rfl⟩ := Decoder.run_map_eq_ok.1 read
      exact .inl rfl
    · obtain ⟨embedded, decoded, rfl⟩ := Decoder.run_map_eq_ok.1 read
      exact .inr ⟨embedded.value, rfl, decoded⟩
  next => cases read

/-- Somewhere in the bytes between two cursors stands an embedded string that starts with the
script; `hidden` is what stands behind it in the string. -/
def RefersTo (cursor after : Cursor) (script : Script) (content hidden : Bytes) : Prop :=
  ∃ before bytes behind, cursor.Passes (before ++ (bytes ++ behind)) after ∧
    IsEmbedding content bytes ∧ LeavesUnread content script hidden

theorem RefersTo.leavesUnread {content hidden : Bytes}
    (refers : RefersTo cursor after script content hidden) : LeavesUnread content script hidden := by
  obtain ⟨before, bytes, behind, _, _, leaves⟩ := refers
  exact leaves

/-- A script that fields have put into an output has been read from one of them. -/
theorem refersTo_of_visits {entries : List MapLayout.Entry}
    (visits : MapLayout.Visits mapRecord.visit entries state cursor final after)
    (holds : final.script = some script) :
    state.script = some script ∨ ∃ content hidden, RefersTo cursor after script content hidden := by
  induction visits with
  | nil => exact .inl holds
  | @cons entry rest state next final cursor inside behind after key visited value later ih =>
      rcases ih holds with earlier | ⟨content, hidden, before, bytes, last, passes, embeds⟩
      · rcases script_of_visit visited with kept | ⟨found, set, read⟩
        · exact .inl (kept ▸ earlier)
        · cases set.symm.trans earlier
          obtain ⟨content, bytes, hidden, embedding, taken, leaves⟩ := run_embedded_eq_ok_iff.1 read
          exact .inr ⟨content, hidden, entry.key, bytes, _,
            Cursor.passes_append.2 ⟨inside, key,
              Cursor.passes_append.2 ⟨behind, taken, later.passes⟩⟩, embedding, leaves⟩
      · refine .inr ⟨content, hidden, entry.bytes ++ before, bytes, last, ?_, embeds⟩
        rw [List.append_assoc]
        exact Cursor.passes_append.2
          ⟨behind, Cursor.passes_append.2 ⟨inside, key, value⟩, passes⟩

/-- The script of an output that is read stands in the bytes of the output. -/
theorem refersTo_of_decode
    (read : (decode : Decoder TransactionOutput).run cursor = .ok (output, after))
    (holds : output.script = some script) :
    ∃ content hidden, RefersTo cursor after script content hidden := by
  have inMap (read : (mapRecord.decode blank).run cursor = .ok (output, after)) :
      ∃ content hidden, RefersTo cursor after script content hidden := by
    obtain ⟨entries, opening, closing, first, last, -, -, start, visits, close⟩ :=
      (MapLayout.walk_eq_ok_iff (Record.takesItems_visit moves_fields)).1 (MapLayout.run_decodeEntries_eq_ok_iff.1 read)
    obtain ⟨content, hidden, before, bytes, behind, passes, embeds⟩ :=
      (refersTo_of_visits visits holds).resolve_left nofun
    refine ⟨content, hidden, opening ++ before, bytes, behind ++ closing, ?_, embeds⟩
    have whole := Cursor.passes_append.2
      ⟨first, start, Cursor.passes_append.2 ⟨last, passes, close⟩⟩
    simpa only [List.append_assoc] using whole
  have inArray : Yields decodeLegacy fun output => output.script ≠ some script := by
    refine yields_bind fun length => yields_bind fun address => yields_bind fun amount => ?_
    exact yields_ite (fun _ => yields_bind fun _ => yields_pure nofun)
      fun _ => yields_bind fun _ => yields_pure nofun
  obtain ⟨kind, between, announced, decoded⟩ := Decoder.run_bind_eq_ok.1 read
  obtain ⟨rfl, -⟩ := run_kind_eq_ok announced
  split at decoded
  next => exact absurd holds (inArray decoded)
  next => exact absurd holds (inArray decoded)
  next => exact inMap decoded
  next => exact inMap decoded
  next => cases decoded

/-! ## Hiding bytes behind the script -/

/-- The map form of an output with further bytes in the string of its script. -/
def hidingRecord (hidden : Bytes) : Record TransactionOutput where
  name := "transaction output"
  entries :=
    [.mandatory 0 "address" address fun output found => { output with address := found },
      .mandatory 1 "amount" amount fun output found => { output with amount := found },
      .optional 2 "datum_option" datum fun output found => { output with datum := found },
      { field := .optional 3 "script_ref"
        write := fun output => output.script.map (encodeHiding hidden)
        read := fun output =>
          (fun found => { output with script := some found.value }) <$>
            (decode : Decoder (Embedded Script)) }]
  distinct := mapRecord.distinct

def encodeHiding (hidden : Bytes) (output : TransactionOutput) : Bytes :=
  (hidingRecord hidden).encode output

theorem decode_hidingRecord (hidden : Bytes) :
    (hidingRecord hidden).decode blank = mapRecord.decode blank :=
  @Record.decode_eq_of_readers _ (hidingRecord hidden) mapRecord rfl rfl blank

/-- The bytes of the script come last, and only they change with what hides there. -/
theorem exists_front (holds : output.script = some script) :
    ∃ front, ∀ hidden, encodeHiding hidden output =
      front ++ Encoder.bytes (encode script ++ hidden) := by
  obtain ⟨address, amount, datum, _, format⟩ := output
  cases holds
  cases datum <;>
    exact ⟨_, fun hidden => by
      simp only [encodeHiding, Record.encode, Record.present, hidingRecord, RecordEntry.mandatory,
        RecordEntry.optional, List.filterMap_cons, List.filterMap_nil, Option.map_some,
        Option.map_none, List.flatMap_cons, List.flatMap_nil, List.append_nil, Cbor.encodeHiding,
        ← List.append_assoc, List.length_cons, List.length_nil]
      rfl⟩

theorem encodeHiding_nil (holds : output.script = some script) :
    encodeHiding [] output = encode output := by
  have fields : (hidingRecord []).present output = mapRecord.present output := by
    simp only [Record.present, hidingRecord, mapRecord, List.filterMap_cons, RecordEntry.optional,
      holds, Option.map_some, Cbor.encodeHiding_nil]
  have inMap : output.encodesAsLegacy = false := by
    obtain ⟨address, amount, datum, _, format⟩ := output
    cases holds
    cases format <;> rfl
  change (hidingRecord []).encode output =
    if output.encodesAsLegacy then output.encodeLegacy else mapRecord.encode output
  rw [inMap, if_neg Bool.false_ne_true, Record.encode, Record.encode, fields]

theorem encodeHiding_eq_encode_iff (holds : output.script = some script) {hidden : Bytes}
    (small : (encodeHiding hidden output).length < bound64) :
    encodeHiding hidden output = encode output ↔ hidden = [] := by
  constructor
  · intro same
    obtain ⟨front, shape⟩ := exists_front holds
    rw [← encodeHiding_nil holds, shape, shape] at same
    rw [shape, List.length_append] at small
    have content := Encoder.bytes_inj (by omega) (List.append_cancel_left same)
    exact List.append_cancel_left content
  · rintro rfl
    exact encodeHiding_nil holds

/-- Whatever hides behind the script, the output is read. -/
theorem reads_encodeHiding (sound : output.IsWellFormed) (holds : output.script = some script)
    (hidden : Bytes) : Reads decode (encodeHiding hidden output) output := by
  refine reads_kind (Record.announces_encode (hidingRecord hidden) output) ?_
  change Reads (mapRecord.decode blank) _ _
  rw [← decode_hidingRecord hidden]
  refine Record.reads_decode ?_
  refine .mandatory (Address.survives_of_isReadable sound.address) ?_
  refine .mandatory (survives output.amount) ?_
  refine .optional rfl (fun found held =>
    Datum.survives_of_isWellFormed (sound.datum found held)) ?_
  have written : output.script.map (Cbor.encodeHiding hidden) =
      some (Cbor.encodeHiding hidden script) := by
    rw [holds, Option.map_some]
  refine .present written ((Cbor.reads_encodeHiding (survives script) hidden).map _) ?_
  have format := sound.script (by rw [holds, Option.isSome_some])
  obtain ⟨address, amount, datum, _, _⟩ := output
  cases holds
  cases format
  exact .nil _

end TransactionOutput

/-! ## What is accepted -/

open TransactionOutput in
/-- An embedded value is read from a string under its tag that starts with the value, and the
string is one encoding of it exactly when nothing hides behind. So the script of an accepted
output stands at the start of its string, and an output may hide any bytes behind its script: it
is accepted as the same output, and these are its own bytes only when it hides none. -/
theorem embedded_complete_iff {α : Type} [Codec α] (value : α) (cursor after : Cursor) :
    ((decode : Decoder (Embedded α)).run cursor = .ok (⟨value⟩, after) ↔
      ∃ content bytes hidden, IsEmbedding content bytes ∧ cursor.Passes bytes after ∧
        LeavesUnread content value hidden ∧
          (decodeFragment α content = .ok value ↔ hidden = [])) ∧
      ∀ (output : TransactionOutput) (script : Script), output.script = some script →
        ((decode : Decoder TransactionOutput).run cursor = .ok (output, after) →
          ∃ content hidden, RefersTo cursor after script content hidden ∧
            (decodeFragment Script content = .ok script ↔ hidden = [])) ∧
        (output.IsWellFormed → ∀ hidden, (output.encodeHiding hidden).length < bound64 →
          decodeFragment TransactionOutput (output.encodeHiding hidden) = .ok output ∧
            (output.encodeHiding hidden = encode output ↔ hidden = [])) := by
  refine ⟨run_embedded_eq_ok_iff.trans ?_, fun output script holds => ⟨fun read => ?_, ?_⟩⟩
  · constructor
    · rintro ⟨content, bytes, hidden, embedding, passes, leaves⟩
      exact ⟨content, bytes, hidden, embedding, passes, leaves, leaves.decodeFragment_iff⟩
    · rintro ⟨content, bytes, hidden, embedding, passes, leaves, -⟩
      exact ⟨content, bytes, hidden, embedding, passes, leaves⟩
  · obtain ⟨content, hidden, refers⟩ := refersTo_of_decode read holds
    exact ⟨content, hidden, refers, refers.leavesUnread.decodeFragment_iff⟩
  · intro sound hidden small
    exact ⟨decodeFragment_of_reads (reads_encodeHiding sound holds hidden) small,
      encodeHiding_eq_encode_iff holds small⟩

namespace ScriptReferences

/-- One ada at the address of a key, with an empty compiled script. -/
def output : TransactionOutput :=
  ⟨.shelley ⟨.testnet, .key ⟨.replicate 28 9⟩, .none⟩, .ofCoin 1000000, none,
    some (.plutusV1 ⟨[]⟩), .postAlonzo⟩

theorem isWellFormed_output : output.IsWellFormed := ⟨rfl, nofun, nofun, fun _ => rfl⟩

/-- The embedded form of an empty compiled script with one byte behind it. -/
def hidingBytes : Bytes := [0xd8, 0x18, 0x44, 0x82, 0x01, 0x40, 0x00]

end ScriptReferences

open ScriptReferences TransactionOutput in
/-- A byte behind an embedded script, and behind the script of an output. -/
theorem embedded_complete_iff_output :
    (∃ content bytes hidden, IsEmbedding content bytes ∧
      Cursor.Passes ⟨hidingBytes, 0⟩ bytes ⟨[], 7⟩ ∧
        LeavesUnread content (Script.plutusV1 ⟨[]⟩) hidden ∧
          (decodeFragment Script content = .ok (.plutusV1 ⟨[]⟩) ↔ hidden = [])) ∧
      decodeFragment TransactionOutput (output.encodeHiding [0x00]) = .ok output ∧
        (output.encodeHiding [0x00] = encode output ↔ [0x00] = ([] : Bytes)) :=
  have complete := embedded_complete_iff (Script.plutusV1 ⟨[]⟩) ⟨hidingBytes, 0⟩ ⟨[], 7⟩
  ⟨complete.1.1 rfl, (complete.2 output _ rfl).2 isWellFormed_output [0x00] (by decide)⟩

open ScriptReferences TransactionOutput in
/-- A string may hold a byte behind a script, and so may the reference of an output, which is
written again without it. -/
theorem embedded_hides :
    (¬ ∀ (cursor after : Cursor) (script : Script),
      (decode : Decoder (Embedded Script)).run cursor = .ok (⟨script⟩, after) →
        ∃ content bytes, IsEmbedding content bytes ∧ cursor.Passes bytes after ∧
          decodeFragment Script content = .ok script) ∧
      decodeFragment TransactionOutput (output.encodeHiding [0x00]) = .ok output ∧
      output.encodeHiding [0x00] ≠ encode output := by
  refine ⟨fun complete => ?_, by rfl, by decide⟩
  have read : (decode : Decoder (Embedded Script)).run ⟨hidingBytes, 0⟩ =
      .ok (⟨.plutusV1 ⟨[]⟩⟩, ⟨[], 7⟩) := rfl
  obtain ⟨content, bytes, embedding, passes, whole⟩ := complete _ _ _ read
  have taken := run_embeddedBytes_eq_ok_iff.2 ⟨bytes, embedding, passes⟩
  have held : Decoder.embeddedBytes.run ⟨hidingBytes, 0⟩ =
      .ok ([0x82, 0x01, 0x40, 0x00], ⟨[], 7⟩) := rfl
  cases held.symm.trans taken
  cases whole

end UtxoLedger
