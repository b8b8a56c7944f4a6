import Mathlib.Data.List.Nodup
import Mathlib.Data.Nat.Bitwise
import UtxoLedger.Cbor.KeyMask
import UtxoLedger.Proofs.Cbor.Records

/-!
# Seen keys in a word are seen fields

The word of a walk has the bits of the fields that have been read and no other
bits of the layout. So both walks refuse the same keys and miss the same
fields, and as the keys are below 64 no shift overflows.
-/

namespace UtxoLedger.Cbor

/-! ## Bits -/

theorem toNat_bit {key : UInt64} (low : key < 64) :
    ((1 : UInt64) <<< key).toNat = 2 ^ key.toNat := by
  have small : key.toNat < 64 := UInt64.lt_iff_toNat_lt.1 low
  have fits : 2 ^ key.toNat < 2 ^ 64 := Nat.pow_lt_pow_right (by decide) small
  simp only [UInt64.toNat_shiftLeft, UInt64.reduceToNat, Nat.one_shiftLeft,
    Nat.mod_eq_of_lt small, Nat.mod_eq_of_lt fits]

theorem isMarked?_of_lt {mask key : UInt64} (low : key < 64) :
    isMarked? mask key = some (mask.toNat.testBit key.toNat) := by
  have same : mask &&& (1 <<< key) ≠ 0 ↔ mask.toNat.testBit key.toNat = true := by
    rw [ne_eq, ← UInt64.toNat_inj, UInt64.toNat_and, toNat_bit low, Nat.and_two_pow]
    cases mask.toNat.testBit key.toNat <;> simp
  rw [isMarked?, keyBit?, if_pos low, Option.map_some, Option.some.injEq, Bool.eq_iff_iff,
    decide_eq_true_eq]
  exact same

theorem mark?_of_lt {mask key : UInt64} (low : key < 64) :
    mark? mask key = some (mask ||| 1 <<< key) := by
  rw [mark?, keyBit?, if_pos low, Option.map_some]

namespace MapLayout

variable {σ : Type} {layout : MapLayout} {mask : UInt64} {seen : List Field} {field : Field}

theorem key_lt (member : field ∈ layout.fields) : field.key < 64 := layout.distinct.2 field member

/-- A field is found by its key. -/
theorem field?_eq_some_iff {key : UInt64} :
    layout.field? key = some field ↔ field ∈ layout.fields ∧ field.key = key := by
  constructor
  · intro found
    exact ⟨List.mem_of_find?_eq_some found, by simpa using List.find?_some found⟩
  · rintro ⟨member, rfl⟩
    exact find?_of_nodup layout.distinct.1 member

theorem eq_of_key_eq {other : Field} (member : field ∈ layout.fields)
    (listed : other ∈ layout.fields) (same : field.key = other.key) : field = other :=
  List.inj_on_of_nodup_map layout.distinct.1 member listed same

/-- The bits of the word are those of the fields that have been read. -/
def Marks (layout : MapLayout) (mask : UInt64) (seen : List Field) : Prop :=
  ∀ field ∈ layout.fields, mask.toNat.testBit field.key.toNat = seen.contains field

theorem marks_zero (layout : MapLayout) : layout.Marks 0 [] :=
  fun field _ => Nat.zero_testBit field.key.toNat

theorem Marks.insert (marks : layout.Marks mask seen) (member : field ∈ layout.fields) :
    layout.Marks (mask ||| 1 <<< field.key) (field :: seen) := by
  intro other listed
  have same : decide (field.key.toNat = other.key.toNat) = (other == field) := by
    rw [Bool.eq_iff_iff, decide_eq_true_eq, beq_iff_eq, UInt64.toNat_inj]
    exact ⟨fun equal => (eq_of_key_eq member listed equal).symm, fun equal => by rw [equal]⟩
  rw [UInt64.toNat_or, Nat.testBit_or, toNat_bit (key_lt member), Nat.testBit_two_pow, same,
    marks other listed, List.contains_cons, Bool.or_comm]

theorem Marks.isMarked? (marks : layout.Marks mask seen) (member : field ∈ layout.fields) :
    isMarked? mask field.key = some (seen.contains field) := by
  rw [isMarked?_of_lt (key_lt member), marks field member]

theorem Marks.unmarked? (marks : layout.Marks mask seen) :
    unmarked? mask layout.fields = some (layout.missing? seen) := by
  have among (fields : List Field) (known : ∀ field ∈ fields, field ∈ layout.fields) :
      MapLayout.unmarked? mask fields =
        some (fields.find? fun field => field.required && !seen.contains field) := by
    induction fields with
    | nil => rfl
    | cons field rest ih =>
        obtain ⟨here, later⟩ := List.forall_mem_cons.1 known
        rw [MapLayout.unmarked?, ih later, marks.isMarked? here, List.find?_cons]
        cases field.required <;> cases seen.contains field <;> rfl
  exact among layout.fields fun _ member => member

/-- A key is read before its field is looked up. -/
theorem run_decodeKey (layout : MapLayout) (seen : List Field) (cursor : Cursor) :
    (layout.decodeKey seen).run cursor =
      match (decode : Decoder UInt64).run cursor with
      | .error error => .error error
      | .ok (key, after) =>
          match layout.field? key with
          | none => .error ⟨.unknownKey key layout.record, some cursor.position⟩
          | some field =>
              if seen.contains field then
                .error ⟨.duplicateKey key field.name layout.record, some cursor.position⟩
              else .ok (field, after) := by
  unfold decodeKey
  rw [Decoder.run_bind_ok (show Decoder.position.run cursor = .ok (cursor.position, cursor) from rfl),
    Decoder.run_bind]
  cases (decode : Decoder UInt64).run cursor with
  | error error => rfl
  | ok found =>
      obtain ⟨key, after⟩ := found
      dsimp only
      cases layout.field? key with
      | none => rfl
      | some field =>
          dsimp only
          split <;> rfl

/-- No shift of the walk overflows, and it is the walk that keeps the fields. -/
theorem walkMarkedWithin_eq (visit : Field → σ → Decoder σ) (marks : layout.Marks mask seen)
    (fuel : Nat) (left : Option Nat) (state : σ) (cursor : Cursor) :
    layout.walkMarkedWithin visit fuel left mask state cursor =
      some (layout.walkWithin visit fuel left seen state cursor) := by
  induction fuel generalizing left mask seen state cursor with
  | zero => rfl
  | succ fuel ih =>
      rw [walkMarkedWithin, walkWithin]
      cases (atEnd left).run cursor with
      | error error => rfl
      | ok found =>
          obtain ⟨ended, after⟩ := found
          cases ended with
          | true =>
              simp only [marks.unmarked?, decodeEnd]
              cases layout.missing? seen <;> rfl
          | false =>
              dsimp only
              rw [run_decodeKey]
              cases (decode : Decoder UInt64).run after with
              | error error => rfl
              | ok found =>
                  obtain ⟨key, afterKey⟩ := found
                  dsimp only
                  cases known : layout.field? key with
                  | none => rfl
                  | some field =>
                      obtain ⟨member, rfl⟩ := field?_eq_some_iff.1 known
                      dsimp only
                      rw [marks.isMarked? member, mark?_of_lt (key_lt member)]
                      cases seen.contains field with
                      | true => rfl
                      | false =>
                          simp only [Option.bind_eq_bind, Option.bind_some, Bool.false_eq_true,
                            if_false]
                          cases (visit field state).run afterKey with
                          | error error => rfl
                          | ok found =>
                              obtain ⟨next, afterValue⟩ := found
                              exact ih (marks.insert member) _ _ _

/-- Reading a record never shifts by 64 or more. -/
theorem walkMarked_eq (layout : MapLayout) (visit : Field → σ → Decoder σ) (state : σ)
    (cursor : Cursor) : layout.walkMarked visit state cursor = some (layout.walk visit state cursor) := by
  unfold walkMarked walk
  cases Decoder.map.run cursor with
  | error error => rfl
  | ok found => exact walkMarkedWithin_eq visit layout.marks_zero _ _ _ _

end MapLayout

end UtxoLedger.Cbor
