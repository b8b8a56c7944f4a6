import UtxoLedger.Metadata.Document
import UtxoLedger.Proofs.Outcome
import UtxoLedger.Proofs.Wire.Metadata

/-!
# Documents that metadata can carry

A JSON value becomes metadata when every value in it, at any depth, is one that
metadata can carry: an integer of a word, a string of at most 64 bytes, an
array, or an object with keys of at most 64 bytes. What it becomes has no
string that is too long, so it is read back from its wire form.
-/

namespace UtxoLedger

open Cbor

/-- The integer that a number is written as. A floating point number is none, even when it has
no fraction. -/
def JsonNumber.integer? : JsonNumber → Option Int
  | unsigned word => some word.toNat
  | negative word => some word.toInt
  | float _ => none

/-- The integer fits a word, signed or unsigned. -/
def FitsWord (integer : Int) : Prop :=
  (-bound63 ≤ integer ∧ integer < bound63) ∨ (0 ≤ integer ∧ integer < bound64)

namespace Json

/-- A value contains itself and what its items and members contain. -/
inductive Contains : Json → Json → Prop where
  | self (value : Json) : Contains value value
  | item {items : List Json} {item part : Json} (listed : item ∈ items)
      (inside : Contains item part) : Contains (.array items) part
  | member {members : List (String × Json)} {member : String × Json} {part : Json}
      (listed : member ∈ members) (inside : Contains member.2 part) :
      Contains (.object members) part

/-- Metadata can carry the value, as far as its items and members can be carried. -/
def IsCarried : Json → Prop
  | .null => False
  | .bool _ => False
  | .number found => ∃ integer, found.integer? = some integer ∧ FitsWord integer
  | .string content => content.utf8ByteSize ≤ Metadatum.sizeLimit
  | .array _ => True
  | .object members => ∀ member ∈ members, member.1.utf8ByteSize ≤ Metadatum.sizeLimit

/-- Metadata can carry everything in the value. -/
def IsCarriedThroughout (value : Json) : Prop := ∀ part, value.Contains part → part.IsCarried

section

variable {items : List Json} {members : List (String × Json)}

theorem isCarriedThroughout_array :
    IsCarriedThroughout (.array items) ↔ ∀ item ∈ items, item.IsCarriedThroughout := by
  constructor
  · exact fun carried item listed part inside => carried part (.item listed inside)
  · rintro carried part (_ | ⟨listed, inside⟩)
    · exact trivial
    · exact carried _ listed part inside

theorem isCarriedThroughout_object :
    IsCarriedThroughout (.object members) ↔
      ∀ member ∈ members, member.1.utf8ByteSize ≤ Metadatum.sizeLimit ∧
        member.2.IsCarriedThroughout := by
  constructor
  · exact fun carried member listed => ⟨carried _ (.self _) member listed,
      fun part inside => carried part (.member listed inside)⟩
  · rintro carried part (_ | _ | ⟨listed, inside⟩)
    · exact fun member listed => (carried member listed).1
    · exact (carried _ listed).2 part inside

/-- A value without items and members contains nothing but itself. -/
theorem isCarriedThroughout_of_flat {value : Json}
    (flat : ∀ part, value.Contains part → part = value) :
    value.IsCarriedThroughout ↔ value.IsCarried :=
  ⟨fun carried => carried value (.self value),
    fun carried part inside => flat part inside ▸ carried⟩

end

end Json

namespace Metadatum

/-! ## What is accepted -/

theorem exists_ofText_iff {content : String} :
    (∃ datum, ofText content = .ok datum) ↔ content.utf8ByteSize ≤ sizeLimit := by
  unfold ofText
  split
  next long => exact ⟨nofun, fun short => absurd short (Nat.not_le.2 long)⟩
  next short => exact ⟨fun _ => Nat.not_lt.1 short, fun _ => ⟨_, rfl⟩⟩

theorem exists_ofJsonNumber_iff {number : JsonNumber} :
    (∃ datum, ofJsonNumber number = .ok datum) ↔
      ∃ integer, number.integer? = some integer ∧ FitsWord integer := by
  cases number with
  | unsigned word =>
      have fits : FitsWord word.toNat := .inr ⟨Int.natCast_nonneg _, Int.ofNat_lt.2 word.toNat_lt⟩
      exact ⟨fun _ => ⟨_, rfl, fits⟩, fun _ => ⟨_, rfl⟩⟩
  | negative word =>
      have fits : FitsWord word.toInt := .inl ⟨word.le_toInt, word.toInt_lt⟩
      exact ⟨fun _ => ⟨_, rfl, fits⟩, fun _ => ⟨_, rfl⟩⟩
  | float number => exact ⟨nofun, nofun⟩

mutual

/-- A value is accepted when metadata can carry everything in it. -/
theorem exists_ofJson_iff : (value : Json) →
    ((∃ datum, ofJson value = .ok datum) ↔ value.IsCarriedThroughout)
  | .null => by
      rw [Json.isCarriedThroughout_of_flat (by rintro _ ⟨⟩; rfl), ofJson]
      exact ⟨nofun, nofun⟩
  | .bool value => by
      rw [Json.isCarriedThroughout_of_flat (by rintro _ ⟨⟩; rfl), ofJson]
      exact ⟨nofun, nofun⟩
  | .number number => by
      rw [Json.isCarriedThroughout_of_flat (by rintro _ ⟨⟩; rfl), ofJson]
      exact exists_ofJsonNumber_iff
  | .string content => by
      rw [Json.isCarriedThroughout_of_flat (by rintro _ ⟨⟩; rfl), ofJson]
      exact exists_ofText_iff
  | .array items => by
      rw [Json.isCarriedThroughout_array, ← exists_ofJsonItems_iff items, ofJson]
      exact Except.exists_map_iff
  | .object members => by
      rw [Json.isCarriedThroughout_object, ← exists_ofJsonMembers_iff members, ofJson]
      exact Except.exists_map_iff

theorem exists_ofJsonItems_iff : (items : List Json) →
    ((∃ data, ofJsonItems items = .ok data) ↔ ∀ item ∈ items, item.IsCarriedThroughout)
  | [] => by
      rw [ofJsonItems]
      exact ⟨fun _ => nofun, fun _ => ⟨_, rfl⟩⟩
  | first :: rest => by
      rw [List.forall_mem_cons, ← exists_ofJson_iff first, ← exists_ofJsonItems_iff rest,
        ofJsonItems]
      exact Except.exists_bind_iff fun item => Except.exists_map_iff

theorem exists_ofJsonMembers_iff : (members : List (String × Json)) →
    ((∃ entries, ofJsonMembers members = .ok entries) ↔
      ∀ member ∈ members, member.1.utf8ByteSize ≤ sizeLimit ∧ member.2.IsCarriedThroughout)
  | [] => by
      rw [ofJsonMembers]
      exact ⟨fun _ => nofun, fun _ => ⟨_, rfl⟩⟩
  | (key, value) :: rest => by
      rw [List.forall_mem_cons, ← exists_ofText_iff, ← exists_ofJson_iff value,
        ← exists_ofJsonMembers_iff rest, ofJsonMembers, and_assoc]
      exact Except.exists_bind_iff fun label =>
        Except.exists_bind_iff fun content => Except.exists_map_iff

end

/-! ## What it becomes -/

theorem isShort_of_ofText {content : String} {datum : Metadatum}
    (accepted : ofText content = .ok datum) : datum.isShort = true := by
  have short := exists_ofText_iff.1 ⟨datum, accepted⟩
  rw [ofText_eq_ok short] at accepted
  cases accepted
  rw [isShort, decide_eq_true_eq]
  exact short

theorem isShort_of_ofJsonNumber {number : JsonNumber} {datum : Metadatum}
    (accepted : ofJsonNumber number = .ok datum) : datum.isShort = true := by
  cases number with
  | unsigned word =>
      cases accepted
      rw [isShort]
  | negative word =>
      cases accepted
      rw [ofInt64, isShort]
  | float number => cases accepted

mutual

/-- No string of what a value becomes is too long. -/
theorem isShort_of_ofJson : (value : Json) → {datum : Metadatum} → ofJson value = .ok datum →
    datum.isShort = true
  | .null, _, accepted => by
      rw [ofJson] at accepted
      cases accepted
  | .bool value, _, accepted => by
      rw [ofJson] at accepted
      cases accepted
  | .number number, _, accepted => by
      rw [ofJson] at accepted
      exact isShort_of_ofJsonNumber accepted
  | .string content, _, accepted => by
      rw [ofJson] at accepted
      exact isShort_of_ofText accepted
  | .array items, _, accepted => by
      rw [ofJson] at accepted
      obtain ⟨data, read, rfl⟩ := Except.map_eq_ok.1 accepted
      rw [isShort]
      exact areShort_of_ofJsonItems items read
  | .object members, _, accepted => by
      rw [ofJson] at accepted
      obtain ⟨entries, read, rfl⟩ := Except.map_eq_ok.1 accepted
      rw [isShort]
      exact entriesAreShort_of_ofJsonMembers members read

theorem areShort_of_ofJsonItems : (items : List Json) → {data : List Metadatum} →
    ofJsonItems items = .ok data → areShort data = true
  | [], _, accepted => by
      rw [ofJsonItems] at accepted
      cases accepted
      rw [areShort]
  | first :: rest, _, accepted => by
      rw [ofJsonItems] at accepted
      obtain ⟨item, here, accepted⟩ := Except.bind_eq_ok.1 accepted
      obtain ⟨items, later, done⟩ := Except.bind_eq_ok.1 accepted
      cases done
      rw [areShort, isShort_of_ofJson first here, areShort_of_ofJsonItems rest later,
        Bool.and_self]

theorem entriesAreShort_of_ofJsonMembers : (members : List (String × Json)) →
    {entries : List (Metadatum × Metadatum)} → ofJsonMembers members = .ok entries →
      entriesAreShort entries = true
  | [], _, accepted => by
      rw [ofJsonMembers] at accepted
      cases accepted
      rw [entriesAreShort]
  | (key, value) :: rest, _, accepted => by
      rw [ofJsonMembers] at accepted
      obtain ⟨label, named, accepted⟩ := Except.bind_eq_ok.1 accepted
      obtain ⟨content, here, accepted⟩ := Except.bind_eq_ok.1 accepted
      obtain ⟨entries, later, done⟩ := Except.bind_eq_ok.1 accepted
      cases done
      rw [entriesAreShort, isShort_of_ofText named, isShort_of_ofJson value here,
        entriesAreShort_of_ofJsonMembers rest later]
      rfl

end

/-- A JSON value becomes metadata exactly when metadata can carry everything in it, and what it
becomes is read back from its wire form. -/
theorem ofJson_exact (value : Json) :
    ((∃ datum, ofJson value = .ok datum) ↔ ∀ part, value.Contains part → part.IsCarried) ∧
      ∀ datum, ofJson value = .ok datum → (Codec.encode datum).length < bound64 →
        decodeFragment Metadatum (Codec.encode datum) = .ok datum :=
  ⟨exists_ofJson_iff value, fun _ accepted small =>
    decodeFragment_encode (survives_of_isShort (isShort_of_ofJson value accepted)) small⟩

/-- An object with an empty list and the least integer of a signed word. -/
def sampleDocument : Json :=
  .object [("list", .array []), ("number", .number (.negative Int64.minValue))]

def sample : Metadatum :=
  map [(text "list", array []), (text "number", int (.negative 9223372036854775807))] true

theorem ofJson_exact_sample :
    ofJson sampleDocument = .ok sample ∧ (Codec.encode sample).length < bound64 ∧
      decodeFragment Metadatum (Codec.encode sample) = .ok sample :=
  ⟨by rfl, by decide, (ofJson_exact sampleDocument).2 sample (by rfl) (by decide)⟩

end Metadatum

end UtxoLedger
