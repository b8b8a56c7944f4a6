import UtxoLedger.Proofs.Cbor.Survival

/-!
# Skipping depends on the item alone

A decoder uses the bytes that it reads and no others when it reads the same
value from them whatever follows them and wherever they stand. The walk over
an item is put together from such decoders. So an item that is skipped on its
own is skipped in the middle of other bytes too, and what is skipped there is
one item on its own.
-/

namespace UtxoLedger.Cbor

variable {α β : Type} {least : Nat}

/-- The decoder reads at least so many bytes, and what it reads depends on them alone. -/
def Uses (least : Nat) (decoder : Decoder α) : Prop :=
  ∀ ⦃cursor value after⦄, decoder.run cursor = .ok (value, after) →
    ∃ used, least ≤ used.length ∧ cursor.rest = used ++ after.rest ∧
      after.position = cursor.position + used.length ∧
      ∀ more position, decoder.run ⟨used ++ more, position⟩ =
        .ok (value, ⟨more, position + used.length⟩)

/-! ## Combining -/

theorem uses_pure (value : α) : Uses 0 (pure value) := by
  intro cursor found after run
  cases run
  exact ⟨[], Nat.le_refl 0, rfl, rfl, fun _ _ => rfl⟩

/-- Nothing is asked of a decoder that always fails. -/
theorem uses_of_fails {decoder : Decoder α}
    (fails : ∀ cursor, ∃ error, decoder.run cursor = .error error) : Uses least decoder := by
  intro cursor value after run
  obtain ⟨error, failed⟩ := fails cursor
  rw [failed] at run
  cases run

theorem uses_fail (cause : Cause) : Uses least (Decoder.fail cause : Decoder α) :=
  uses_of_fails fun _ => ⟨_, rfl⟩

theorem Uses.bind {decoder : Decoder α} {next : α → Decoder β} (uses : Uses least decoder)
    (continues : ∀ value, Uses 0 (next value)) : Uses least (decoder >>= next) := by
  intro cursor result final run
  obtain ⟨value, after, read, run⟩ := Decoder.run_bind_eq_ok.1 run
  obtain ⟨used, enough, split, moved, again⟩ := uses read
  obtain ⟨others, _, splitLater, movedLater, againLater⟩ := continues value run
  refine ⟨used ++ others, ?_, ?_, ?_, fun more position => ?_⟩
  · rw [List.length_append]
    exact Nat.le_add_right_of_le enough
  · rw [split, splitLater, List.append_assoc]
  · rw [movedLater, moved, List.length_append, Nat.add_assoc]
  · rw [List.append_assoc, Decoder.run_bind_ok (again _ position), againLater,
      List.length_append, Nat.add_assoc]

theorem Uses.map {decoder : Decoder α} (uses : Uses least decoder) (change : α → β) :
    Uses least (change <$> decoder) :=
  uses.bind fun _ => uses_pure _

theorem Uses.weaken {decoder : Decoder α} (uses : Uses least decoder) : Uses 0 decoder := by
  intro cursor value after run
  obtain ⟨used, _, rest⟩ := uses run
  exact ⟨used, Nat.zero_le _, rest⟩

theorem uses_ite {condition : Prop} [Decidable condition] {left right : Decoder α}
    (yes : condition → Uses least left) (no : ¬ condition → Uses least right) :
    Uses least (if condition then left else right) := by
  split
  next holds => exact yes holds
  next fails => exact no fails

/-! ## Bytes and heads -/

/-- A byte that is looked at first is one of those read after it. -/
theorem uses_peek {next : UInt8 → Decoder β} (continues : ∀ first, Uses 1 (next first)) :
    Uses 1 (Decoder.peek >>= next) := by
  intro cursor result final run
  obtain ⟨first, after, peeked, run⟩ := Decoder.run_bind_eq_ok.1 run
  obtain ⟨rest, place⟩ := cursor
  cases rest with
  | nil => cases peeked
  | cons head rest =>
      cases peeked
      obtain ⟨used, enough, split, moved, again⟩ := continues first run
      refine ⟨used, enough, split, moved, fun more position => ?_⟩
      cases used with
      | nil => cases enough
      | cons head others =>
          obtain ⟨rfl, _⟩ := List.cons.inj split
          exact again more position

theorem uses_byte : Uses 1 Decoder.byte := by
  intro cursor value after run
  obtain ⟨rest, place⟩ := cursor
  cases rest with
  | nil => cases run
  | cons first rest =>
      cases run
      exact ⟨[_], Nat.le_refl 1, rfl, rfl, fun _ _ => rfl⟩

theorem uses_take (count : Nat) : Uses 0 (Decoder.take count) := by
  intro cursor value after run
  obtain ⟨rest, place⟩ := cursor
  unfold Decoder.take Decoder.run at run
  cases parted : Bytes.splitAt? count rest with
  | none =>
      simp only [parted] at run
      cases run
  | some parts =>
      obtain ⟨taken, left⟩ := parts
      simp only [parted] at run
      cases run
      obtain ⟨rfl, rfl⟩ := Bytes.append_of_splitAt? parted
      exact ⟨_, Nat.zero_le _, rfl, rfl, fun more position => run_take _ _ position⟩

theorem uses_argument (info : Nat) : Uses 0 (Decoder.argument info) := by
  have digits (width : Nat) := (uses_take width).map Bytes.toNat
  unfold Decoder.argument
  refine uses_ite (fun _ => uses_pure info) fun _ => ?_
  refine uses_ite (fun _ => digits 1) fun _ => ?_
  refine uses_ite (fun _ => digits 2) fun _ => ?_
  refine uses_ite (fun _ => digits 4) fun _ => ?_
  exact uses_ite (fun _ => digits 8) fun _ => uses_fail _

theorem wrongType_fails (first : UInt8) (cursor : Cursor) :
    ∃ error, (Decoder.wrongType first : Decoder α).run cursor = .error error := by
  unfold Decoder.wrongType Decoder.run
  dsimp only
  split <;> exact ⟨_, rfl⟩

theorem uses_wrongType (first : UInt8) : Uses least (Decoder.wrongType first : Decoder α) :=
  uses_of_fails (wrongType_fails first)

theorem uses_head (major : Nat) : Uses 1 (Decoder.head major) :=
  uses_byte.bind fun first => uses_ite (fun _ => uses_argument _) fun _ => uses_wrongType first

theorem uses_openHead (major : Nat) : Uses 1 (Decoder.openHead major) :=
  uses_byte.bind fun first =>
    uses_ite (fun _ => uses_ite (fun _ => uses_pure none) fun _ => (uses_argument _).map some)
      fun _ => uses_wrongType first

theorem uses_signed : Uses 1 Decoder.signed := by
  have number (isNegative : Bool) (info : Nat) :
      Uses 0 (do return (isNegative, ← Decoder.argument info)) :=
    (uses_argument info).bind fun _ => uses_pure _
  exact uses_byte.bind fun first =>
    uses_ite (fun _ => number false _) fun _ =>
      uses_ite (fun _ => number true _) fun _ => uses_wrongType first

theorem uses_bytes : Uses 1 Decoder.bytes :=
  uses_byte.bind fun first =>
    uses_ite (fun _ => (uses_argument _).bind uses_take) fun _ => uses_wrongType first

theorem uses_text : Uses 1 Decoder.text := by
  refine uses_byte.bind fun first => uses_ite (fun _ => ?_) fun _ => uses_wrongType first
  refine (uses_argument _).bind fun count => (uses_take count).bind fun content => ?_
  split
  next text _ => exact uses_pure text
  next => exact uses_fail _

/-! ## Items up to a stop byte -/

theorem uses_untilStopWithin {item : Decoder α} (uses : Uses 1 item) (fuel : Nat) :
    Uses 1 (Decoder.untilStopWithin item fuel) := by
  induction fuel with
  | zero => exact uses_fail _
  | succ fuel ih =>
      refine uses_peek fun first => uses_ite (fun _ => ?_) fun _ => ?_
      · exact uses_byte.bind fun _ => uses_pure []
      · exact uses.bind fun _ => ih.weaken.bind fun _ => uses_pure _

theorem cursor_of_peek {cursor after : Cursor} {first : UInt8}
    (peeked : Decoder.peek.run cursor = .ok (first, after)) : after = cursor := by
  obtain ⟨rest, place⟩ := cursor
  cases rest with
  | nil => cases peeked
  | cons head rest =>
      cases peeked
      rfl

/-- Every item takes a byte, so fuel for the bytes that are read is enough. -/
theorem run_untilStopWithin_of_le {item : Decoder α} (uses : Uses 1 item) {fuel enough : Nat}
    {cursor after : Cursor} {items : List α}
    (run : (Decoder.untilStopWithin item fuel).run cursor = .ok (items, after))
    (least : cursor.rest.length ≤ after.rest.length + enough) :
    (Decoder.untilStopWithin item enough).run cursor = .ok (items, after) := by
  induction fuel generalizing enough cursor items with
  | zero => cases run
  | succ fuel ih =>
      cases enough with
      | zero =>
          obtain ⟨used, proceeds, split, _⟩ := uses_untilStopWithin uses _ run
          rw [split, List.length_append] at least
          omega
      | succ enough =>
          unfold Decoder.untilStopWithin at run ⊢
          obtain ⟨first, peeked, peek, goesOn⟩ := Decoder.run_bind_eq_ok.1 run
          obtain rfl := cursor_of_peek peek
          rw [Decoder.run_bind_ok peek]
          by_cases stop : first = 0xff
          · rw [if_pos stop] at goesOn ⊢
            exact goesOn
          · rw [if_neg stop] at goesOn ⊢
            obtain ⟨value, next, read, goesOn⟩ := Decoder.run_bind_eq_ok.1 goesOn
            obtain ⟨rest, final, later, goesOn⟩ := Decoder.run_bind_eq_ok.1 goesOn
            cases goesOn
            obtain ⟨used, proceeds, split, _⟩ := uses read
            rw [split, List.length_append] at least
            rw [Decoder.run_bind_ok read, Decoder.run_bind_ok (ih later (by omega))]
            rfl

theorem uses_untilStop {item : Decoder α} (uses : Uses 1 item) :
    Uses 1 (Decoder.untilStop item) := by
  intro cursor value after run
  change (Decoder.untilStopWithin item cursor.rest.length).run cursor = _ at run
  obtain ⟨used, proceeds, split, moved, again⟩ := uses_untilStopWithin uses _ run
  refine ⟨used, proceeds, split, moved, fun more position => ?_⟩
  refine run_untilStopWithin_of_le uses (again more position) ?_
  rw [Nat.add_comm]
  exact Nat.le_add_right _ _

/-! ## The walk -/

theorem uses_chunked {chunk : Decoder α} (uses : Uses 1 chunk) (major : Nat) :
    Uses 1 (Decoder.chunked major chunk) :=
  uses_peek fun _ =>
    uses_ite
      (fun _ => uses_byte.bind fun _ =>
        (uses_untilStop uses).weaken.bind fun _ => uses_pure ())
      fun _ => uses.bind fun _ => uses_pure ()

theorem uses_simple : Uses 1 Decoder.simple :=
  uses_byte.bind fun _ => (uses_argument _).bind fun _ => uses_pure ()

/-- A step depends on the item or head that it reads alone. -/
theorem uses_skipStep (pending : Pending) : Uses 1 (Decoder.skipStep pending) := by
  have settled {β : Type} {decoder : Decoder β} (uses : Uses 1 decoder)
      (next : Option Pending) : Uses 1 (decoder >>= fun _ => pure next) :=
    uses.bind fun _ => uses_pure next
  refine uses_peek fun first => ?_
  refine uses_ite (fun _ => settled (uses_head 0) _) fun _ => ?_
  refine uses_ite (fun _ => settled uses_signed _) fun _ => ?_
  refine uses_ite (fun _ => settled (uses_chunked uses_bytes 2) _) fun _ => ?_
  refine uses_ite (fun _ => settled (uses_chunked uses_text 3) _) fun _ => ?_
  refine uses_ite (fun _ => (uses_openHead 4).bind fun length => ?_) fun _ => ?_
  · cases length <;> exact uses_pure _
  refine uses_ite (fun _ => (uses_openHead 5).bind fun length => ?_) fun _ => ?_
  · cases length <;> exact uses_pure _
  refine uses_ite (fun _ => settled ((uses_head 6).map UInt64.ofNat) _) fun _ => ?_
  refine uses_ite (fun _ => settled uses_simple _) fun _ => ?_
  exact uses_ite (fun _ => settled uses_byte _) fun _ => uses_fail _

theorem uses_skipWithin (fuel : Nat) (pending : Pending) :
    Uses 0 (Decoder.skipWithin fuel pending) := by
  induction fuel generalizing pending with
  | zero => exact uses_fail _
  | succ fuel ih =>
      refine uses_ite (fun _ => uses_pure ()) fun _ => ?_
      refine (uses_skipStep pending).weaken.bind fun next => ?_
      cases next with
      | none => exact uses_pure ()
      | some owed => exact ih owed

/-- Every step takes a byte, so fuel for the bytes that are read and one more is enough. -/
theorem run_skipWithin_of_lt {fuel enough : Nat} {pending : Pending} {cursor after : Cursor}
    (run : (Decoder.skipWithin fuel pending).run cursor = .ok ((), after))
    (least : cursor.rest.length < after.rest.length + enough) :
    (Decoder.skipWithin enough pending).run cursor = .ok ((), after) := by
  induction fuel generalizing enough pending cursor with
  | zero => cases run
  | succ fuel ih =>
      cases enough with
      | zero =>
          obtain ⟨used, _, split, _⟩ := uses_skipWithin _ _ run
          rw [split, List.length_append] at least
          omega
      | succ enough =>
          unfold Decoder.skipWithin at run ⊢
          split at run
          next done =>
            rw [if_pos done]
            exact run
          next owes =>
            obtain ⟨owed, next, step, run⟩ := Decoder.run_bind_eq_ok.1 run
            rw [if_neg owes, Decoder.run_bind_ok step]
            cases owed with
            | none => exact run
            | some pending =>
                obtain ⟨used, proceeds, split, _⟩ := uses_skipStep _ step
                rw [split, List.length_append] at least
                exact ih run (by omega)

theorem uses_skip : Uses 0 Decoder.skip := by
  intro cursor value after run
  change (Decoder.skipWithin (cursor.rest.length + 2) .single).run cursor = _ at run
  obtain ⟨used, proceeds, split, moved, again⟩ := uses_skipWithin _ _ run
  refine ⟨used, proceeds, split, moved, fun more position => ?_⟩
  refine run_skipWithin_of_lt (again more position) ?_
  rw [List.length_append]
  dsimp only
  omega

/-! ## Opaque items -/

/-- The bytes hold exactly one item. -/
def RawItem.IsSingle (item : RawItem) : Prop := RawItem.ofBytes item.bytes = .ok item

theorem RawItem.isSingle_iff {item : RawItem} :
    item.IsSingle ↔ ∃ position, Decoder.skip.run ⟨item.bytes, 0⟩ = .ok ((), ⟨[], position⟩) := by
  unfold RawItem.IsSingle RawItem.ofBytes
  constructor
  · intro whole
    split at whole
    next _ after skipped =>
      split at whole
      next ends =>
        obtain ⟨rest, position⟩ := after
        obtain rfl : rest = [] := List.isEmpty_iff.1 ends
        exact ⟨position, skipped⟩
      next => cases whole
    next => cases whole
  · rintro ⟨position, skipped⟩
    rw [skipped]
    rfl

/-- Bytes that are accepted as an item are one. -/
theorem RawItem.isSingle_of_ofBytes {bytes : Bytes} {item : RawItem}
    (read : ofBytes bytes = .ok item) : item.IsSingle := by
  have same : item = ⟨bytes⟩ := by
    unfold RawItem.ofBytes at read
    split at read
    next =>
      split at read
      next =>
        cases read
        rfl
      next => cases read
    next => cases read
  rw [same] at read ⊢
  exact read

/-- Exactly one item is skipped as a whole. -/
theorem reads_skip {item : RawItem} (whole : item.IsSingle) :
    Reads Decoder.skip item.bytes () := by
  intro _ tail position
  obtain ⟨stop, skipped⟩ := RawItem.isSingle_iff.1 whole
  obtain ⟨used, _, split, _, again⟩ := uses_skip skipped
  rw [List.append_nil] at split
  rw [show item.bytes = used from split]
  exact again tail position

theorem RawItem.survives_of_isSingle {item : RawItem} (whole : item.IsSingle) :
    Survives item := by
  intro small tail position
  have walked := reads_skip whole small tail position
  have read : Decoder.rawItem.run ⟨item.bytes ++ tail, position⟩ =
      .ok (item.bytes, ⟨tail, position + item.bytes.length⟩) := by
    unfold Decoder.run at walked
    unfold Decoder.rawItem Decoder.run
    simp [walked]
  exact (Decoder.run_bind_ok read).trans rfl

/-- What is cut out of other bytes is one item. -/
theorem RawItem.isSingle_of_rawItem {cursor after : Cursor} {bytes : Bytes}
    (read : Decoder.rawItem.run cursor = .ok (bytes, after)) : IsSingle ⟨bytes⟩ := by
  unfold Decoder.rawItem Decoder.run at read
  dsimp only at read
  split at read
  next _ final skipped =>
    cases read
    obtain ⟨used, _, split, moved, again⟩ := uses_skip skipped
    have cut : cursor.rest.take (after.position - cursor.position) = used := by
      rw [moved, Nat.add_sub_cancel_left, split, List.take_left]
    have alone := again [] 0
    rw [List.append_nil] at alone
    rw [cut, RawItem.isSingle_iff]
    exact ⟨_, alone⟩
  next => cases read

end UtxoLedger.Cbor
