import Mathlib.Algebra.Ring.Nat
import UtxoLedger.Cbor.Record

/-!
# Lengths of wire forms

The shortest form of a number gets longer as the number grows. A record whose
fields all get no shorter gets no shorter itself.
-/

namespace UtxoLedger.Cbor

namespace Encoder

/-- How many bytes the head of an item takes. -/
def headLength (number : Nat) : Nat :=
  if number < 24 then 1
  else if number < 256 then 2
  else if number < bound16 then 3
  else if number < bound32 then 5
  else 9

theorem length_head (major number : Nat) : (head major number).length = headLength number := by
  unfold head headLength
  split
  · rfl
  · split
    · simp [Bytes.length_ofNat]
    · split
      · simp [Bytes.length_ofNat]
      · split <;> simp [Bytes.length_ofNat]

theorem headLength_mono {first second : Nat} (least : first ≤ second) :
    headLength first ≤ headLength second := by
  unfold headLength
  repeat' split
  all_goals omega

theorem headLength_of_ge {number : Nat} (wide : bound32 ≤ number) : headLength number = 9 := by
  unfold headLength bound16
  unfold bound32 at wide ⊢
  repeat' split
  all_goals omega

theorem headLength_le (number : Nat) : headLength number ≤ 9 := by
  unfold headLength
  repeat' split
  all_goals omega

theorem headLength_pos (number : Nat) : 0 < headLength number :=
  headLength_mono (Nat.zero_le number)

end Encoder

theorem length_encode_orderedMap {α β : Type} [Ranked α] [Codec α] [Codec β]
    (map : OrderedMap α β) :
    (encode map).length = Encoder.headLength map.size +
      (map.entries.map fun entry => (encode entry.1).length + (encode entry.2).length).sum := by
  change (Encoder.map map.size ++ encodeEntries encode encode map.entries).length = _
  rw [List.length_append, Encoder.map, Encoder.length_head, encodeEntries, List.length_flatMap]
  simp only [List.length_append]

/-- A field that is written before is written after, in no fewer bytes. -/
def NoShorter (first second : Option Bytes) : Prop :=
  ∀ bytes, first = some bytes → ∃ longer, second = some longer ∧ bytes.length ≤ longer.length

theorem NoShorter.refl (bytes : Option Bytes) : NoShorter bytes bytes :=
  fun bytes found => ⟨bytes, found, Nat.le_refl _⟩

theorem noShorter_none (bytes : Option Bytes) : NoShorter none bytes := nofun

theorem noShorter_some {bytes longer : Bytes} (least : bytes.length ≤ longer.length) :
    NoShorter (some bytes) (some longer) := by
  rintro _ ⟨⟩
  exact ⟨longer, rfl, least⟩

namespace Record

variable {ρ : Type}

/-- The keys and values that some entries present. -/
def presentIn (entries : List (RecordEntry ρ)) (value : ρ) : List (UInt64 × Bytes) :=
  entries.filterMap fun entry => (entry.write value).map fun bytes => (entry.field.key, bytes)

/-- The wire form of a key and its value. -/
def writeField (field : UInt64 × Bytes) : Bytes := Encoder.unsigned field.1.toNat ++ field.2

theorem encode_eq (record : Record ρ) (value : ρ) :
    record.encode value = Encoder.map (presentIn record.entries value).length ++
      (presentIn record.entries value).flatMap writeField := rfl

section

variable {entry : RecordEntry ρ} {value : ρ} (rest : List (RecordEntry ρ))

theorem presentIn_of_absent (absent : entry.write value = none) :
    presentIn (entry :: rest) value = presentIn rest value := by
  rw [presentIn, List.filterMap_cons, absent]
  rfl

theorem presentIn_of_written {bytes : Bytes} (written : entry.write value = some bytes) :
    presentIn (entry :: rest) value = (entry.field.key, bytes) :: presentIn rest value := by
  rw [presentIn, List.filterMap_cons, written]
  rfl

end

/-- No fewer fields are present, and they take no fewer bytes. -/
theorem presentIn_noShorter (entries : List (RecordEntry ρ)) {first second : ρ}
    (grows : ∀ entry ∈ entries, NoShorter (entry.write first) (entry.write second)) :
    (presentIn entries first).length ≤ (presentIn entries second).length ∧
      ((presentIn entries first).flatMap writeField).length ≤
        ((presentIn entries second).flatMap writeField).length := by
  induction entries with
  | nil => exact ⟨Nat.le_refl _, Nat.le_refl _⟩
  | cons entry rest ih =>
      obtain ⟨count, size⟩ := ih fun other member => grows other (List.mem_cons_of_mem _ member)
      have here := grows entry List.mem_cons_self
      cases before : entry.write first with
      | none =>
          rw [presentIn_of_absent rest before]
          cases after : entry.write second with
          | none =>
              rw [presentIn_of_absent rest after]
              exact ⟨count, size⟩
          | some bytes =>
              rw [presentIn_of_written rest after]
              simp only [List.length_cons, List.flatMap_cons, List.length_append]
              omega
      | some shorter =>
          obtain ⟨longer, after, least⟩ := here shorter before
          rw [presentIn_of_written rest before, presentIn_of_written rest after]
          simp only [writeField, List.length_cons, List.flatMap_cons, List.length_append]
            at size ⊢
          omega

/-- A record gets no shorter when no field does. -/
theorem length_encode_le (record : Record ρ) {first second : ρ}
    (grows : ∀ entry ∈ record.entries, NoShorter (entry.write first) (entry.write second)) :
    (record.encode first).length ≤ (record.encode second).length := by
  obtain ⟨count, size⟩ := presentIn_noShorter record.entries grows
  have head := Encoder.headLength_mono count
  rw [encode_eq, encode_eq, List.length_append, List.length_append, Encoder.map,
    Encoder.length_head, Encoder.map, Encoder.length_head]
  exact Nat.add_le_add head size

end Record

end UtxoLedger.Cbor
