import UtxoLedger.Cbor.Codec

/-!
# Record layouts

A layout is the list of a record's fields: the key or position of each, its
name and whether it has to be present. Reading through a layout reports
unknown keys, repeated keys, absent required fields and wrong lengths in one
way for every record.
-/

namespace UtxoLedger.Cbor

/-- A field of a record. -/
structure Field where
  key : UInt64
  name : String
  required : Bool
  deriving DecidableEq, Repr

namespace Field

def mandatory (key : UInt64) (name : String) : Field := ⟨key, name, true⟩

def optional (key : UInt64) (name : String) : Field := ⟨key, name, false⟩

end Field

/-- Why a list of fields is not a layout. -/
inductive LayoutError where
  | keysNotDistinct
  | positionsNotSequential
  deriving DecidableEq, Repr

namespace LayoutError

def message : LayoutError → String
  | keysNotDistinct => "map layout keys must be distinct and lower than 64"
  | positionsNotSequential =>
      "array layout positions must be sequential with optional fields last"

end LayoutError

/-! ## Maps -/

/-- The keys are pairwise distinct and below 64. -/
def DistinctKeys (fields : List Field) : Prop :=
  (fields.map Field.key).Nodup ∧ ∀ field ∈ fields, field.key < 64

instance (fields : List Field) : Decidable (DistinctKeys fields) :=
  inferInstanceAs (Decidable (_ ∧ _))

/-- A record written as a map with numeric keys. -/
structure MapLayout where
  record : String
  fields : List Field
  distinct : DistinctKeys fields

namespace MapLayout

/-- The layout of the given fields. -/
def ofFields (record : String) (fields : List Field) : Except LayoutError MapLayout :=
  if distinct : DistinctKeys fields then .ok ⟨record, fields, distinct⟩
  else .error .keysNotDistinct

/-- The field with the given key. -/
def field? (layout : MapLayout) (key : UInt64) : Option Field :=
  layout.fields.find? (·.key = key)

/-- The first required field that has not been seen. -/
def missing? (layout : MapLayout) (seen : List Field) : Option Field :=
  layout.fields.find? fun field => field.required && !seen.contains field

/-- Reads the key of an entry and finds its field. -/
def decodeKey (layout : MapLayout) (seen : List Field) : Decoder Field := do
  let start ← Decoder.position
  let key ← (decode : Decoder UInt64)
  match layout.field? key with
  | none => Decoder.failAt start (.unknownKey key layout.record)
  | some field =>
      if seen.contains field then
        Decoder.failAt start (.duplicateKey key field.name layout.record)
      else pure field

/-- The end of the record: all required fields have been seen. -/
def decodeEnd (layout : MapLayout) (seen : List Field) : Decoder Unit :=
  match layout.missing? seen with
  | some field => Decoder.fail (.missingKey field.key field.name layout.record)
  | none => pure ()

/-- Reads the stop byte of a map of indefinite length, or leaves another item unread. -/
def atStop : Decoder Bool := do
  if (← Decoder.kind) = .stop then
    let _ ← Decoder.byte
    return true
  else return false

/-- There is no further entry, given how many are left. -/
def atEnd : (left : Option Nat) → Decoder Bool
  | some left => pure (left = 0)
  | none => atStop

variable {σ : Type}

/-- Reads entries one by one and hands each value to `visit`, which reads it and updates a
state. The state reached is kept when the record turns out to be malformed. There are no
more entries than fields, so `fuel` is one more than the number of fields left. -/
def walkWithin (layout : MapLayout) (visit : Field → σ → Decoder σ) :
    (fuel : Nat) → (left : Option Nat) → (seen : List Field) → σ → Cursor →
      σ × Except DecodeError Cursor
  | 0, _, _, state, _ => (state, .error ⟨.endOfInput, none⟩)
  | fuel + 1, left, seen, state, cursor =>
      match (atEnd left).run cursor with
      | .error error => (state, .error error)
      | .ok (true, after) =>
          (state, ((layout.decodeEnd seen).run after).map Prod.snd)
      | .ok (false, after) =>
          match (layout.decodeKey seen).run after with
          | .error error => (state, .error error)
          | .ok (field, afterKey) =>
              match (visit field state).run afterKey with
              | .error error => (state, .error error)
              | .ok (next, afterValue) =>
                  walkWithin layout visit fuel (left.map (· - 1)) (field :: seen) next afterValue

/-- Reads a record: the state after the entries that could be read, and where the record ends
or why it is malformed. -/
def walk (layout : MapLayout) (visit : Field → σ → Decoder σ) (state : σ) (cursor : Cursor) :
    σ × Except DecodeError Cursor :=
  match Decoder.map.run cursor with
  | .error error => (state, .error error)
  | .ok (left, after) => layout.walkWithin visit (layout.fields.length + 1) left [] state after

/-- Reads a record into a state. -/
def decodeEntries (layout : MapLayout) (visit : Field → σ → Decoder σ) (state : σ) :
    Decoder σ := fun cursor =>
  match layout.walk visit state cursor with
  | (final, .ok after) => .ok (final, after)
  | (_, .error error) => .error error

end MapLayout

/-! ## Arrays -/

/-- The fields stand at the positions from `index` on, and once a field is optional the later
ones are too. -/
def sequentialFrom (index : Nat) (allOptional : Bool) : List Field → Bool
  | [] => true
  | field :: rest =>
      field.key.toNat = index && !(field.required && allOptional) &&
        sequentialFrom (index + 1) (allOptional || !field.required) rest

/-- A record written as an array whose optional fields come last. -/
structure ArrayLayout where
  record : String
  fields : List Field
  sequential : sequentialFrom 0 false fields = true

namespace ArrayLayout

/-- The layout of the given fields. -/
def ofFields (record : String) (fields : List Field) : Except LayoutError ArrayLayout :=
  if sequential : sequentialFrom 0 false fields = true then .ok ⟨record, fields, sequential⟩
  else .error .positionsNotSequential

def leastLength (layout : ArrayLayout) : Nat := layout.fields.countP Field.required

def mostLength (layout : ArrayLayout) : Nat := layout.fields.length

/-- Reads the head of a record and checks its length. -/
def decodeHeader (layout : ArrayLayout) : Decoder Nat := do
  let start ← Decoder.position
  match ← Decoder.array with
  | none => Decoder.failAt start (.indefiniteArray layout.record)
  | some length =>
      if layout.leastLength ≤ length && length ≤ layout.mostLength then pure length
      else
        Decoder.failAt start
          (.recordArity layout.record layout.leastLength layout.mostLength (UInt64.ofNat length))

/-- The number of elements to write, given which fields are present: absent fields are
dropped from the end. -/
def encodedLength (layout : ArrayLayout) (present : List Bool) : Nat :=
  max (present.reverse.dropWhile (!·)).length layout.leastLength

end ArrayLayout

end UtxoLedger.Cbor
