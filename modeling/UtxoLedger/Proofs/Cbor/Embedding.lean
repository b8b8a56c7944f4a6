import UtxoLedger.Proofs.Cbor.Moves

/-!
# Embedded items and what hides behind them

An embedded item stands in a string of its own, under a tag. Its reader takes
the string and reads a value from the start of it; whether the value fills the
string is not asked. So any bytes may stand behind the value, and they are lost
when the value is written again.
-/

namespace UtxoLedger.Cbor

variable {α : Type} {cursor after : Cursor} {content bytes hidden : Bytes}

/-- The bytes are a string with this content under the tag of embedded items, with heads of any
form. -/
inductive IsEmbedding (content : Bytes) : Bytes → Prop where
  | mk {tag head : Bytes} (tagged : IsHead 6 24 tag) (counted : IsHead 2 content.length head) :
      IsEmbedding content (tag ++ (head ++ content))

/-- A value is read from the start of the bytes and those behind it stay unread. -/
def LeavesUnread [Codec α] (content : Bytes) (value : α) (hidden : Bytes) : Prop :=
  ∃ position, (decode : Decoder α).run ⟨content, 0⟩ = .ok (value, ⟨hidden, position⟩)

theorem run_embeddedBytes_eq_ok_iff :
    Decoder.embeddedBytes.run cursor = .ok (content, after) ↔
      ∃ bytes, IsEmbedding content bytes ∧ cursor.Passes bytes after := by
  unfold Decoder.embeddedBytes
  rw [Decoder.run_bind_eq_ok]
  constructor
  · rintro ⟨_, middle, tagged, read⟩
    obtain ⟨tag, form, before⟩ := Decoder.run_expectTag_eq_ok_iff.1 tagged
    obtain ⟨head, counted, behind⟩ := Decoder.run_bytes_eq_ok_iff.1 read
    exact ⟨_, .mk form counted, Cursor.passes_append.2 ⟨middle, before, behind⟩⟩
  · rintro ⟨_, ⟨form, counted⟩, passes⟩
    obtain ⟨middle, before, behind⟩ := Cursor.passes_append.1 passes
    exact ⟨(), middle, Decoder.run_expectTag_eq_ok_iff.2 ⟨_, form, before⟩,
      Decoder.run_bytes_eq_ok_iff.2 ⟨_, counted, behind⟩⟩

theorem moves_embeddedBytes : Moves Decoder.embeddedBytes := by
  intro cursor content after read
  obtain ⟨bytes, -, passes⟩ := run_embeddedBytes_eq_ok_iff.1 read
  exact ⟨bytes, passes⟩

section

variable [Codec α] {value : α}

/-- An embedded value is read from a string that starts with one. -/
theorem run_embedded_eq_ok_iff :
    (decode : Decoder (Embedded α)).run cursor = .ok (⟨value⟩, after) ↔
      ∃ content bytes hidden, IsEmbedding content bytes ∧ cursor.Passes bytes after ∧
        LeavesUnread content value hidden := by
  constructor
  · intro read
    obtain ⟨content, behind, taken, read⟩ := Decoder.run_bind_eq_ok.1 read
    split at read
    next found last inner =>
      cases read
      obtain ⟨bytes, embedding, passes⟩ := run_embeddedBytes_eq_ok_iff.1 taken
      exact ⟨content, bytes, last.rest, embedding, passes, last.position, inner⟩
    next => cases read
  · rintro ⟨content, bytes, hidden, embedding, passes, position, inner⟩
    have taken := run_embeddedBytes_eq_ok_iff.2 ⟨bytes, embedding, passes⟩
    refine Decoder.run_bind_eq_ok.2 ⟨content, after, taken, ?_⟩
    rw [inner]
    rfl

/-- The content is one encoding of the value and no more when nothing hides behind it. -/
theorem LeavesUnread.decodeFragment_iff (leaves : LeavesUnread content value hidden) :
    decodeFragment α content = .ok value ↔ hidden = [] := by
  obtain ⟨position, read⟩ := leaves
  rw [decodeFragment, read]
  cases hidden with
  | nil => exact ⟨fun _ => rfl, fun _ => rfl⟩
  | cons first rest =>
      constructor
      · intro accepted
        cases accepted
      · intro none
        cases none

instance : ForwardCodec (Embedded α) where
  moves_decode := by
    intro cursor ⟨value⟩ after read
    obtain ⟨content, bytes, hidden, -, passes, -⟩ := run_embedded_eq_ok_iff.1 read
    exact ⟨bytes, passes⟩

/-! ## Hiding bytes -/

/-- The embedded form of a value with further bytes in the string. -/
def encodeHiding (hidden : Bytes) (value : α) : Bytes :=
  Encoder.tag embeddedTag ++ Encoder.bytes (encode value ++ hidden)

theorem encodeHiding_nil (value : α) : encodeHiding [] value = encode (Embedded.mk value) := by
  rw [encodeHiding, List.append_nil]
  rfl

/-- Whatever the string holds behind a value, the value is read from it. -/
theorem reads_encodeHiding (survives : Survives value) (hidden : Bytes) :
    Reads decode (encodeHiding hidden value) (Embedded.mk value) := by
  refine Reads.of_fits (encode value).length ?_ fun small => ?_
  · rw [encodeHiding, Encoder.bytes]
    simp only [List.length_append]
    omega
  · refine (reads_embeddedBytes (encode value ++ hidden)).bind_last ?_
    simp only [survives small hidden 0]
    exact reads_pure _

end

/-- Strings with different contents are written differently. -/
theorem Encoder.bytes_inj {other : Bytes} (small : (Encoder.bytes content).length < bound64)
    (same : Encoder.bytes content = Encoder.bytes other) : content = other := by
  have here := reads_bytes content small [] 0
  have there := reads_bytes other (same ▸ small) [] 0
  rw [← same, here] at there
  exact congrArg Prod.fst (Except.ok.inj there)

end UtxoLedger.Cbor
