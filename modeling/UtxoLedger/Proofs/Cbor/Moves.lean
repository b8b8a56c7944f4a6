import UtxoLedger.Proofs.Cbor.Layouts

/-!
# Decoders move forward

A decoder that succeeds has gone over bytes that stand at its cursor and
stops right behind them. The primitive readers do, and what is put together
from such decoders does. So the visits of a record's fields divide the bytes of
the record among them.
-/

namespace UtxoLedger.Cbor

variable {α β : Type} {decoder : Decoder α}

/-- When the decoder reads a value it stops behind bytes that stand at the cursor. -/
def Moves (decoder : Decoder α) : Prop :=
  ∀ ⦃cursor value after⦄, decoder.run cursor = .ok (value, after) →
    ∃ bytes, cursor.Passes bytes after

/-! ## Steps -/

theorem Uses.moves {least : Nat} (uses : Uses least decoder) : Moves decoder := by
  intro cursor value after read
  obtain ⟨used, _, passes, _⟩ := uses.exists_passes read
  exact ⟨used, passes⟩

/-- A look at the bytes leaves them unread. -/
theorem moves_of_stays
    (stays : ∀ ⦃cursor value after⦄, decoder.run cursor = .ok (value, after) → after = cursor) :
    Moves decoder :=
  fun _ _ _ read => ⟨[], Cursor.passes_nil.2 (stays read).symm⟩

theorem moves_pure (value : α) : Moves (pure value) := (uses_pure value).moves

theorem moves_of_fails (fails : ∀ cursor, ∃ error, decoder.run cursor = .error error) :
    Moves decoder :=
  (uses_of_fails fails : Uses 0 decoder).moves

theorem moves_fail (cause : Cause) : Moves (Decoder.fail cause : Decoder α) :=
  moves_of_fails fun _ => ⟨_, rfl⟩

theorem moves_failAt (place : Nat) (cause : Cause) :
    Moves (Decoder.failAt place cause : Decoder α) :=
  moves_of_fails fun _ => ⟨_, rfl⟩

theorem Moves.bind {next : α → Decoder β} (moves : Moves decoder)
    (continues : ∀ value, Moves (next value)) : Moves (decoder >>= next) := by
  intro cursor result final read
  obtain ⟨value, after, here, read⟩ := Decoder.run_bind_eq_ok.1 read
  obtain ⟨first, before⟩ := moves here
  obtain ⟨second, behind⟩ := continues value read
  exact ⟨first ++ second, Cursor.passes_append.2 ⟨after, before, behind⟩⟩

theorem Moves.map (moves : Moves decoder) (change : α → β) : Moves (change <$> decoder) :=
  moves.bind fun _ => moves_pure _

theorem moves_ite {condition : Prop} [Decidable condition] {left right : Decoder α}
    (yes : Moves left) (no : Moves right) : Moves (if condition then left else right) := by
  split
  · exact yes
  · exact no

theorem moves_position : Moves Decoder.position :=
  moves_of_stays fun cursor value after read => by
    cases read
    rfl

theorem moves_remaining : Moves Decoder.remaining :=
  moves_of_stays fun cursor value after read => by
    cases read
    rfl

theorem moves_peek : Moves Decoder.peek := moves_of_stays fun _ _ _ => cursor_of_peek

theorem moves_kind : Moves Decoder.kind := moves_of_stays fun _ _ _ read => (run_kind_eq_ok read).1

theorem moves_orReject {ε : Type} (place : Nat) (wording : ε → String) (outcome : Except ε α) :
    Moves (Decoder.orReject place wording outcome) := by
  cases outcome with
  | ok value => exact moves_pure value
  | error error => exact moves_failAt _ _

theorem moves_expectTag (expected : UInt64) (description : String) :
    Moves (Decoder.expectTag expected description) :=
  moves_position.bind fun start => ((uses_head 6).moves.map UInt64.ofNat).bind fun _ =>
    moves_ite (moves_pure ()) (moves_failAt start _)

/-- Bytes that have to pass a check. -/
theorem moves_checkedBytes {ε : Type} (check : Bytes → Except ε α) (wording : ε → String) :
    Moves (do
      let start ← Decoder.position
      let bytes ← Decoder.bytes
      Decoder.orReject start wording (check bytes)) :=
  moves_position.bind fun start => uses_bytes.moves.bind fun _ => moves_orReject start wording _

/-! ## Repetition -/

theorem moves_times (moves : Moves decoder) (count : Nat) :
    Moves (Decoder.times decoder count) := by
  induction count with
  | zero => exact moves_pure []
  | succ count ih => exact moves.bind fun _ => ih.bind fun _ => moves_pure _

theorem moves_untilStop (moves : Moves decoder) : Moves (Decoder.untilStop decoder) := by
  have within (fuel : Nat) : Moves (Decoder.untilStopWithin decoder fuel) := by
    induction fuel with
    | zero => exact moves_fail _
    | succ fuel ih =>
        refine moves_peek.bind fun first => moves_ite ?_ ?_
        · exact uses_byte.moves.bind fun _ => moves_pure []
        · exact moves.bind fun _ => ih.bind fun _ => moves_pure _
  exact moves_remaining.bind within

theorem moves_entriesOf {value : Decoder β} (keys : Moves decoder) (values : Moves value) :
    Moves (Decoder.entriesOf decoder value) := by
  have entry : Moves (do
      let key ← decoder
      let value ← value
      return (key, value)) :=
    keys.bind fun _ => values.bind fun _ => moves_pure _
  refine (uses_openHead 5).moves.bind fun length => ?_
  cases length with
  | some count => exact moves_times entry count
  | none => exact moves_untilStop entry

theorem moves_listOf (moves : Moves decoder) : Moves (Decoder.listOf decoder) := by
  refine (uses_openHead 4).moves.bind fun length => ?_
  cases length with
  | some count => exact moves_times moves count
  | none => exact moves_untilStop moves

/-! ## Types that are read forward -/

/-- The reader of the type moves forward. -/
class ForwardCodec (α : Type) [Codec α] : Prop where
  moves_decode : Moves (decode : Decoder α)

export ForwardCodec (moves_decode)

instance : ForwardCodec UInt64 := ⟨(uses_head 0).moves.map UInt64.ofNat⟩

instance : ForwardCodec UInt32 :=
  ⟨((uses_head 0).moves.bind fun _ => moves_ite (moves_pure _) (moves_fail _)).map UInt32.ofNat⟩

instance : ForwardCodec Int64 :=
  ⟨uses_signed.moves.bind fun _ => moves_ite (moves_pure _) (moves_fail _)⟩

instance : ForwardCodec String := ⟨uses_text.moves⟩

instance : ForwardCodec Blob := ⟨uses_bytes.moves.map Blob.mk⟩

section

variable [Codec α] [ForwardCodec α]

instance : ForwardCodec (List α) := ⟨moves_listOf moves_decode⟩

instance : ForwardCodec (Option α) where
  moves_decode := by
    refine moves_kind.bind fun kind => moves_ite ?_ (moves_decode.map some)
    exact uses_byte.moves.bind fun _ => moves_pure none

instance : ForwardCodec (WireSet α) where
  moves_decode := by
    have items (isTagged : Bool) : Moves (do return (⟨← decode, isTagged⟩ : WireSet α)) :=
      moves_decode.bind fun _ => moves_pure _
    refine moves_kind.bind fun kind => moves_ite ?_ ((moves_pure false).bind items)
    exact (moves_expectTag setTag _).bind fun _ => (moves_pure true).bind items

variable [Codec β] [ForwardCodec β]

instance : ForwardCodec (α × β) where
  moves_decode := by
    have tuple : Moves (Decoder.tuple 2) :=
      (uses_openHead 4).moves.bind fun length => moves_ite (moves_pure ()) (moves_fail _)
    exact tuple.bind fun _ => moves_decode.bind fun _ => moves_decode.bind fun _ => moves_pure _

instance [Ranked α] : ForwardCodec (OrderedMap α β) :=
  ⟨(moves_entriesOf moves_decode moves_decode).map OrderedMap.ofList⟩

end

/-- An opaque item is the bytes that a walk over it goes past. -/
instance : ForwardCodec RawItem where
  moves_decode := by
    refine Moves.map (fun cursor bytes after read => ?_) RawItem.mk
    unfold Decoder.rawItem Decoder.run at read
    dsimp only at read
    split at read
    next found last skipped =>
      cases read
      exact uses_skip.moves skipped
    next => cases read

/-! ## Unions and records -/

/-- The code of a union stands in front of its fields. -/
theorem moves_decodeCode (family : String) (fieldCount : Nat → Option Nat) :
    Moves (Union.decodeCode family fieldCount) := by
  refine moves_position.bind fun start => (uses_openHead 4).moves.bind fun length => ?_
  cases length with
  | none => exact moves_failAt start _
  | some length =>
      refine (uses_head 0).moves.bind fun code => ?_
      split
      next => exact moves_failAt start _
      next fields known => exact moves_ite (moves_pure code) (moves_failAt start _)

theorem moves_decodeHeader (layout : ArrayLayout) : Moves layout.decodeHeader := by
  refine moves_position.bind fun start => (uses_openHead 4).moves.bind fun length => ?_
  cases length with
  | none => exact moves_failAt start _
  | some length => exact moves_ite (moves_pure length) (moves_failAt start _)

namespace Positional

theorem moves_next [Codec α] [ForwardCodec α] (index : Nat) (left : Remaining) :
    Moves (next index left : Decoder (α × Remaining)) := by
  match left with
  | some 0 => exact moves_fail _
  | some (count + 1) => exact moves_decode.bind fun _ => moves_pure _
  | none =>
      refine moves_kind.bind fun kind => moves_ite (moves_fail _) ?_
      exact moves_decode.bind fun _ => moves_pure _

theorem moves_skipToStop (fuel : Nat) : Moves (skipToStop fuel) := by
  induction fuel with
  | zero => exact moves_fail _
  | succ fuel ih =>
      refine moves_kind.bind fun kind => moves_ite ?_ (uses_skip.moves.bind fun _ => ih)
      exact uses_byte.moves.bind fun _ => moves_pure ()

theorem moves_finish (left : Remaining) : Moves (finish left) := by
  cases left with
  | some count => exact (moves_times uses_skip.moves count).bind fun _ => moves_pure ()
  | none => exact moves_remaining.bind moves_skipToStop

theorem moves_start : Moves start := (uses_openHead 4).moves

/-- A record of two fields. -/
theorem moves_pair {γ : Type} [Codec α] [ForwardCodec α] [Codec β] [ForwardCodec β]
    (make : α → β → γ) :
    Moves (do
      let (first, left) ← next 0 (← start)
      let (second, left) ← next 1 left
      finish left
      return make first second) :=
  moves_start.bind fun opened => (moves_next 0 opened).bind fun ⟨_, left⟩ =>
    (moves_next 1 left).bind fun ⟨_, left⟩ => (moves_finish left).bind fun _ => moves_pure _

end Positional

namespace Record

variable {record : Record α}

/-- The fields of a record take some bytes each when their readers move forward. -/
theorem takesItems_visit (each : ∀ entry ∈ record.entries, ∀ state, Moves (entry.read state)) :
    MapLayout.TakesItems (fun _ => True) record.visit := by
  intro field state cursor next after read
  unfold visit at read
  split at read
  next entry found =>
    obtain ⟨bytes, passes⟩ := each entry (List.mem_of_find?_eq_some found) state read
    exact ⟨bytes, trivial, passes⟩
  next => cases read

/-- A record takes the bytes from the head of its map to the end of it. -/
theorem moves_decode (each : ∀ entry ∈ record.entries, ∀ state, Moves (entry.read state))
    (blank : α) : Moves (record.decode blank) := by
  intro cursor final after read
  obtain ⟨entries, opening, closing, first, last, -, -, start, visits, close⟩ :=
    (MapLayout.walk_eq_ok_iff (takesItems_visit each)).1
      (MapLayout.run_decodeEntries_eq_ok_iff.1 read)
  exact ⟨_, Cursor.passes_append.2
    ⟨first, start, Cursor.passes_append.2 ⟨last, visits.passes, close⟩⟩⟩

end Record

end UtxoLedger.Cbor
