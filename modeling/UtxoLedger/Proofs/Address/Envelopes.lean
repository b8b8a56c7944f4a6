import UtxoLedger.Address.Byron
import UtxoLedger.Proofs.Cbor.Heads

/-!
# The form of an envelope

An envelope is an array of two elements, of definite length: a byte string
under the tag of embedded items, and a word. Every head may take any of its
forms. Bytes are read as an envelope exactly when they are one.
-/

namespace UtxoLedger

open Cbor (IsHead)

/-- The bytes are an array of a tagged byte string and a checksum, and nothing else. -/
inductive IsEnvelope (checksum : UInt64) : Bytes → Prop where
  | mk {array tag string content number : Bytes} (two : IsHead 4 2 array)
      (tagged : IsHead 6 24 tag) (length : IsHead 2 content.length string)
      (last : IsHead 0 checksum.toNat number) :
      IsEnvelope checksum (array ++ (tag ++ (string ++ content) ++ number))

namespace Cbor.Decoder

variable {cursor after : Cursor}

theorem run_tuple_eq_ok_iff {length : Nat} :
    (tuple length).run cursor = .ok ((), after) ↔
      ∃ bytes, IsHead 4 length bytes ∧ cursor.Passes bytes after := by
  rw [← run_openHead_some_eq_ok_iff (by decide)]
  constructor
  · intro read
    obtain ⟨found, between, opened, read⟩ := run_bind_eq_ok.1 read
    split at read
    next same =>
      cases read
      exact same ▸ opened
    next => cases read
  · intro opened
    refine run_bind_eq_ok.2 ⟨some length, after, opened, ?_⟩
    rw [if_pos rfl]
    rfl

end Cbor.Decoder

/-- A tagged byte string is read exactly where a head of the tag and a byte string stand. -/
theorem run_tagged_eq_ok_iff {tag : UInt64} {content : Bytes} {cursor after : Cbor.Cursor} :
    (Cbor.decode : Cbor.Decoder (Cbor.Tagged tag Cbor.Blob)).run cursor =
        .ok (⟨⟨content⟩⟩, after) ↔
      ∃ mark string, IsHead 6 tag.toNat mark ∧ IsHead 2 content.length string ∧
        cursor.Passes (mark ++ (string ++ content)) after := by
  constructor
  · intro read
    obtain ⟨_, middle, marked, read⟩ := Cbor.Decoder.run_bind_eq_ok.1 read
    obtain ⟨blob, inside, same⟩ := Cbor.Decoder.run_map_eq_ok.1 read
    obtain ⟨found, taken, rfl⟩ := Cbor.Decoder.run_map_eq_ok.1 inside
    cases same
    obtain ⟨mark, tagged, before⟩ := Cbor.Decoder.run_expectTag_eq_ok_iff.1 marked
    obtain ⟨string, length, behind⟩ := Cbor.Decoder.run_bytes_eq_ok_iff.1 taken
    exact ⟨mark, string, tagged, length, Cbor.Cursor.passes_append.2 ⟨middle, before, behind⟩⟩
  · rintro ⟨mark, string, tagged, length, passes⟩
    obtain ⟨middle, before, behind⟩ := Cbor.Cursor.passes_append.1 passes
    have read := Cbor.Decoder.run_bytes_eq_ok_iff.2 ⟨string, length, behind⟩
    refine Cbor.Decoder.run_bind_eq_ok.2 ⟨(), middle, ?_, ?_⟩
    · exact Cbor.Decoder.run_expectTag_eq_ok_iff.2 ⟨mark, tagged, before⟩
    refine Cbor.Decoder.run_map_eq_ok.2 ⟨⟨content⟩, ?_, rfl⟩
    exact Cbor.Decoder.run_map_eq_ok.2 ⟨content, read, rfl⟩

/-- An envelope is read exactly where the bytes of one stand. -/
theorem run_envelope_eq_ok_iff {cursor after : Cbor.Cursor} {checksum : UInt64} :
    (∃ payload, (Cbor.decode : Cbor.Decoder (Cbor.Tagged 24 Cbor.Blob × UInt64)).run cursor =
        .ok ((payload, checksum), after)) ↔
      ∃ bytes, IsEnvelope checksum bytes ∧ cursor.Passes bytes after := by
  constructor
  · rintro ⟨payload, read⟩
    obtain ⟨_, first, opened, read⟩ := Cbor.Decoder.run_bind_eq_ok.1 read
    obtain ⟨tagged, second, inside, read⟩ := Cbor.Decoder.run_bind_eq_ok.1 read
    obtain ⟨word, last, counted, same⟩ := Cbor.Decoder.run_bind_eq_ok.1 read
    cases same
    obtain ⟨array, two, before⟩ := Cbor.Decoder.run_tuple_eq_ok_iff.1 opened
    obtain ⟨tag, string, marked, length, between⟩ := run_tagged_eq_ok_iff.1 inside
    obtain ⟨number, final, behind⟩ := (Cbor.Decoder.run_word_eq_ok_iff (by decide)).1 counted
    refine ⟨_, .mk two marked length final, Cbor.Cursor.passes_append.2 ⟨first, before, ?_⟩⟩
    exact Cbor.Cursor.passes_append.2 ⟨second, between, behind⟩
  · rintro ⟨_, @⟨array, tag, string, content, number, two, marked, length, final⟩, passes⟩
    obtain ⟨first, before, passes⟩ := Cbor.Cursor.passes_append.1 passes
    obtain ⟨second, between, behind⟩ := Cbor.Cursor.passes_append.1 passes
    have opened := Cbor.Decoder.run_tuple_eq_ok_iff.2 ⟨array, two, before⟩
    have inside : (Cbor.decode : Cbor.Decoder (Cbor.Tagged 24 Cbor.Blob)).run first =
        .ok (⟨⟨content⟩⟩, second) :=
      run_tagged_eq_ok_iff.2 ⟨tag, string, marked, length, between⟩
    have counted : (Cbor.decode : Cbor.Decoder UInt64).run second = .ok (checksum, after) :=
      (Cbor.Decoder.run_word_eq_ok_iff (by decide)).2 ⟨number, final, behind⟩
    refine ⟨⟨⟨content⟩⟩, Cbor.Decoder.run_bind_eq_ok.2 ⟨(), first, opened, ?_⟩⟩
    refine Cbor.Decoder.run_bind_eq_ok.2 ⟨_, second, inside, ?_⟩
    exact Cbor.Decoder.run_bind_eq_ok.2 ⟨_, after, counted, rfl⟩

/-- The whole of the bytes is read as an envelope exactly when they are one. -/
theorem readEnvelope_eq_ok_iff {bytes : Bytes} {checksum : UInt64} :
    readEnvelope bytes = .ok checksum ↔ IsEnvelope checksum bytes := by
  constructor
  · intro read
    unfold readEnvelope at read
    split at read
    next => cases read
    next payload found after decoded =>
      split at read
      next ends =>
        cases read
        obtain ⟨used, envelope, passes⟩ := run_envelope_eq_ok_iff.1 ⟨payload, decoded⟩
        obtain ⟨rest, position⟩ := after
        obtain rfl : rest = [] := List.isEmpty_iff.1 ends
        obtain rfl : bytes = used := by
          generalize start : Cbor.Cursor.mk bytes 0 = cursor at passes
          obtain ⟨_, _, _⟩ := passes
          exact (Cbor.Cursor.mk.inj start).1.trans (List.append_nil _)
        exact envelope
      next => cases read
  · intro envelope
    have passes := Cbor.Cursor.Passes.mk bytes [] 0
    rw [List.append_nil] at passes
    obtain ⟨payload, decoded⟩ := run_envelope_eq_ok_iff.2 ⟨bytes, envelope, passes⟩
    unfold readEnvelope
    rw [decoded]
    rfl

end UtxoLedger
