import UtxoLedger.Cbor.Layout

/-!
# Seen keys in a word

The keys of a layout are below 64, so those that have been read fit into one
word, a bit for each. The bit of a key is reached by a shift, which overflows
when the key is 64 or more. A walk that keeps the keys this way never makes
such a shift, and it is the walk that keeps a list of fields.
-/

namespace UtxoLedger.Cbor

/-- The word with the bit of a key alone, `none` when the shift overflows. -/
def keyBit? (key : UInt64) : Option UInt64 := if key < 64 then some (1 <<< key) else none

/-- The bit of a key is set in a word. -/
def isMarked? (mask key : UInt64) : Option Bool :=
  (keyBit? key).map fun bit => mask &&& bit ≠ 0

/-- Sets the bit of a key. -/
def mark? (mask key : UInt64) : Option UInt64 := (keyBit? key).map (mask ||| ·)

namespace MapLayout

/-- The first required field whose bit is not set. -/
def unmarked? (mask : UInt64) : List Field → Option (Option Field)
  | [] => some none
  | field :: rest =>
      if field.required then do
        if ← isMarked? mask field.key then unmarked? mask rest else return some field
      else unmarked? mask rest

variable {σ : Type}

/-- The walk over the entries with the keys that have been read in a word; `none` as soon as a
shift overflows. -/
def walkMarkedWithin (layout : MapLayout) (visit : Field → σ → Decoder σ) :
    (fuel : Nat) → (left : Option Nat) → (mask : UInt64) → σ → Cursor →
      Option (σ × Except DecodeError Cursor)
  | 0, _, _, state, _ => some (state, .error ⟨.endOfInput, none⟩)
  | fuel + 1, left, mask, state, cursor =>
      match (atEnd left).run cursor with
      | .error error => some (state, .error error)
      | .ok (true, after) => do
          match ← unmarked? mask layout.fields with
          | some field =>
              return (state, .error ⟨.missingKey field.key field.name layout.record, none⟩)
          | none => return (state, .ok after)
      | .ok (false, after) =>
          match (decode : Decoder UInt64).run after with
          | .error error => some (state, .error error)
          | .ok (key, afterKey) =>
              match layout.field? key with
              | none =>
                  some (state, .error ⟨.unknownKey key layout.record, some after.position⟩)
              | some field => do
                  if ← isMarked? mask key then
                    return (state,
                      .error ⟨.duplicateKey key field.name layout.record, some after.position⟩)
                  else
                    let marked ← mark? mask key
                    match (visit field state).run afterKey with
                    | .error error => return (state, .error error)
                    | .ok (next, afterValue) =>
                        walkMarkedWithin layout visit fuel (left.map (· - 1)) marked next afterValue

/-- Reads a record with the keys that have been read in a word. -/
def walkMarked (layout : MapLayout) (visit : Field → σ → Decoder σ) (state : σ)
    (cursor : Cursor) : Option (σ × Except DecodeError Cursor) :=
  match Decoder.map.run cursor with
  | .error error => some (state, .error error)
  | .ok (left, after) =>
      layout.walkMarkedWithin visit (layout.fields.length + 1) left 0 state after

end MapLayout

end UtxoLedger.Cbor
