import UtxoLedger.Cbor.ByKind
import UtxoLedger.Proofs.Cbor.Arity
import UtxoLedger.Proofs.Cbor.Walk

/-!
# Where unions told apart by kind end

An alternative that is a single item is read up to the end of the item. The
fields of the alternative that is an array are read whatever the head says, so
the end of what is read is the end of the item exactly when the head counts
the fields. A head that counts fewer leaves some of the fields to be items
behind the array; with a head that counts more, the array goes on behind them.
Bytes in memory are fewer than `bound63`, so no count of their items saturates.
-/

namespace UtxoLedger.Cbor

open Decoder

variable {α β : Type} {count more : Nat} {decoder : Decoder α} {cursor after : Cursor}

/-! ## Decoders of items -/

/-- What the decoder reads is a number of well-formed items. -/
def ReadsItems (count : Nat) (decoder : Decoder α) : Prop :=
  ∀ ⦃cursor value after⦄, decoder.run cursor = .ok (value, after) →
    ∃ bytes, AreItems count bytes ∧ cursor.Passes bytes after

theorem readsItems_pure (value : α) : ReadsItems 0 (pure value) := by
  intro cursor found after read
  cases read
  exact ⟨[], .none, Cursor.passes_nil.2 rfl⟩

theorem ReadsItems.bind {next : α → Decoder β} (reads : ReadsItems count decoder)
    (continues : ∀ value, ReadsItems more (next value)) :
    ReadsItems (count + more) (decoder >>= next) := by
  intro cursor result final read
  obtain ⟨value, middle, here, later⟩ := run_bind_eq_ok.1 read
  obtain ⟨first, items, before⟩ := reads here
  obtain ⟨second, others, behind⟩ := continues value later
  exact ⟨first ++ second, items.append others, Cursor.passes_append.2 ⟨middle, before, behind⟩⟩

theorem ReadsItems.map (reads : ReadsItems count decoder) (change : α → β) :
    ReadsItems count (change <$> decoder) :=
  reads.bind fun value => readsItems_pure (change value)

theorem readsItems_word : ReadsItems 1 (decode : Decoder UInt64) := by
  intro cursor word after read
  obtain ⟨bytes, form, passes⟩ := (run_word_eq_ok_iff (by decide)).1 read
  exact ⟨bytes, isItem_scalar (.number (.inl rfl) form), passes⟩

theorem readsItems_text : ReadsItems 1 (decode : Decoder String) := by
  intro cursor text after read
  obtain ⟨head, content, valid, form, passes⟩ := run_text_eq_ok_iff.1 read
  exact ⟨head ++ content, isItem_scalar (.string (.text form valid)), passes⟩

theorem readsItems_blob : ReadsItems 1 (decode : Decoder Blob) := by
  intro cursor blob after read
  obtain ⟨content, found, rfl⟩ := run_map_eq_ok.1 read
  obtain ⟨head, form, passes⟩ := run_bytes_eq_ok_iff.1 found
  exact ⟨head ++ content, isItem_scalar (.string (.bytes form)), passes⟩

/-! ## Arrays with another number of elements than their head counts -/

/-- Where elements of an array are missing it is not skipped. -/
theorem position_lt_of_missing {length : Nat} {head items : Bytes} {first late : Cursor}
    (form : IsHead 4 length head) (elements : AreItems count items) (missing : count < length)
    (start : cursor.Passes head first) (passes : first.Passes items after)
    (small : cursor.rest.length < bound63) (skipped : skip.run cursor = .ok ((), late)) :
    after.position < late.position := by
  have within := congrArg List.length start.rest_eq
  rw [List.length_append] at within
  have fits := length_le_of_run_skip form start (by omega) skipped
  have passed := Cursor.passes_append.2 ⟨first, start, passes⟩
  have stands := passed.rest_eq
  obtain ⟨used, _, split, moved, again⟩ := uses_skip skipped
  rw [moved, passed.position_eq]
  by_contra early
  obtain ⟨left, shape⟩ : used <+: head ++ items :=
    List.prefix_of_prefix_length_le ⟨late.rest, split.symm⟩ ⟨after.rest, stands.symm⟩ (by omega)
  -- With the missing elements behind them the bytes are an item, which is skipped as a whole.
  obtain ⟨absent, rfl⟩ := Nat.exists_eq_add_of_lt missing
  have whole := isItem_array form (elements.append (areItems_zeros (absent + 1)))
  rw [← List.append_assoc] at whole
  have short : ((head ++ items) ++ List.replicate (absent + 1) 0x00).length < bound64 := by
    have size := congrArg List.length stands
    have room : bound63 + bound63 ≤ bound64 := by decide
    rw [List.length_append] at size ⊢
    rw [List.length_replicate]
    omega
  have skips := whole.run_skip short (.mk _ [] 0)
  rw [List.append_nil, ← shape, List.append_assoc, again] at skips
  have left := congrArg (fun final : Cursor => final.rest.length)
    (Prod.mk.inj (Except.ok.inj skips)).2
  simp at left

namespace KindUnion

variable {union : KindUnion α}

/-- Every alternative that is a single item reads one, and the fields of the one that is an array
are so many items. -/
structure HasItems (union : KindUnion α) (count : Nat) : Prop where
  single : ∀ part ∈ union.single, ReadsItems 1 part.decode
  fields : ∀ ⦃fields⦄, union.fields = some fields → ReadsItems count fields

/-- An array is read as fields, and its head counts so many elements. -/
def Counts (union : KindUnion α) (cursor : Cursor) (length : Nat) : Prop :=
  union.fields.isSome = true ∧ Decoder.kind.run cursor = .ok (.array, cursor) ∧
    ∃ first, Decoder.array.run cursor = .ok (some length, first)

/-- What is announced as an array has a head that counts. -/
theorem exists_head_of_array {length : Option Nat} {first : Cursor}
    (announced : Decoder.kind.run cursor = .ok (.array, cursor))
    (opened : Decoder.array.run cursor = .ok (length, first)) :
    ∃ counted head, length = some counted ∧ IsHead 4 counted head ∧ cursor.Passes head first := by
  cases length with
  | some counted =>
      obtain ⟨head, form, passes⟩ := (run_openHead_some_eq_ok_iff (by decide)).1 opened
      exact ⟨counted, head, rfl, form, passes⟩
  | none =>
      obtain ⟨_, tail, position⟩ := (run_openHead_none_eq_ok_iff (by decide)).1 opened
      cases announced

/-- What is read is one item, or the fields that stand behind the head of an array. -/
theorem parts_of_decode (parts : union.HasItems count) {value : α}
    (read : union.decode.run cursor = .ok (value, after)) :
    ((∀ length, ¬ union.Counts cursor length) ∧ ∃ item, IsItem item ∧ cursor.Passes item after) ∨
      ∃ length head items first, union.Counts cursor length ∧ IsHead 4 length head ∧
        cursor.Passes head first ∧ AreItems count items ∧ first.Passes items after := by
  obtain ⟨kind, middle, announced, chosen⟩ := run_bind_eq_ok.1 read
  obtain ⟨rfl, -⟩ := run_kind_eq_ok announced
  cases known : union.decoder? kind with
  | none =>
      rw [known] at chosen
      cases chosen
  | some decoder =>
      rw [known] at chosen
      unfold decoder? at known
      split at known
      next fields present =>
        obtain rfl := Option.some.inj known
        obtain ⟨length, first, opened, rest⟩ := run_bind_eq_ok.1 chosen
        obtain ⟨counted, head, rfl, form, start⟩ := exists_head_of_array announced opened
        obtain ⟨items, elements, passes⟩ := parts.fields present rest
        exact .inr ⟨counted, head, items, first, ⟨by rw [present]; rfl, announced, first, opened⟩,
          form, start, elements, passes⟩
      next other =>
        obtain ⟨part, found, rfl⟩ := Option.map_eq_some_iff.1 known
        refine .inl ⟨?_, parts.single part (List.mem_of_find?_eq_some found) chosen⟩
        rintro length ⟨present, array, -⟩
        obtain ⟨fields, present⟩ := Option.isSome_iff_exists.1 present
        rw [announced] at array
        exact other fields (Prod.mk.inj (Except.ok.inj array)).1 present

/-- A head tells one count. -/
theorem Counts.eq {length other : Nat} (counts : union.Counts cursor length)
    (again : union.Counts cursor other) : length = other := by
  obtain ⟨-, -, first, opened⟩ := counts
  obtain ⟨-, -, second, others⟩ := again
  rw [opened] at others
  exact Option.some.inj (Prod.mk.inj (Except.ok.inj others)).1

/-- The end of what is read is the end of one item exactly when the head of an array counts the
fields. With fewer counted the item ends before it, and with more counted no item ends there or
before it. -/
theorem decode_lands (parts : union.HasItems count) {value : α}
    (small : cursor.rest.length < bound63) (read : union.decode.run cursor = .ok (value, after)) :
    (skip.run cursor = .ok ((), after) ↔ ∀ length, union.Counts cursor length → length = count) ∧
      (∀ length, union.Counts cursor length → length < count →
        ∃ early, skip.run cursor = .ok ((), early) ∧ early.position < after.position) ∧
      (∀ length, union.Counts cursor length → count < length →
        ∀ late, skip.run cursor = .ok ((), late) → after.position < late.position) := by
  rcases parts_of_decode parts read with ⟨single, item, whole, passes⟩ |
    ⟨length, head, items, first, counts, form, start, elements, passes⟩
  · have skips := whole.skips small passes
    exact ⟨⟨fun _ length counts => absurd counts (single length), fun _ => skips⟩,
      fun length counts => absurd counts (single length),
      fun length counts => absurd counts (single length)⟩
  · have fewer (less : length < count) :
        ∃ early, skip.run cursor = .ok ((), early) ∧ early.position < after.position := by
      obtain ⟨others, rfl⟩ := Nat.exists_eq_add_of_lt less
      obtain ⟨front, back, rfl, some, missed⟩ := elements.exists_parts (Nat.add_assoc ..)
      obtain ⟨middle, inside, behind⟩ := Cursor.passes_append.1 passes
      have skips := (isItem_array form some).skips small
        (Cursor.passes_append.2 ⟨first, start, inside⟩)
      have proceeds := missed.le_length
      refine ⟨middle, skips, ?_⟩
      rw [behind.position_eq]
      omega
    have more (greater : count < length) (late : Cursor)
        (skipped : skip.run cursor = .ok ((), late)) : after.position < late.position :=
      position_lt_of_missing form elements greater start passes small skipped
    refine ⟨⟨fun skips other others => ?_, fun fits => ?_⟩, ?_, ?_⟩
    · obtain rfl := counts.eq others
      rcases Nat.lt_trichotomy length count with less | same | greater
      · obtain ⟨early, skipped, before⟩ := fewer less
        rw [skips] at skipped
        cases skipped
        exact absurd before (Nat.lt_irrefl _)
      · exact same
      · exact absurd (more greater after skips) (Nat.lt_irrefl _)
    · obtain rfl := fits length counts
      exact (isItem_array form elements).skips small
        (Cursor.passes_append.2 ⟨first, start, passes⟩)
    · rintro other others
      obtain rfl := counts.eq others
      exact fewer
    · rintro other others
      obtain rfl := counts.eq others
      exact more

end KindUnion

/-! ## A union of this kind -/

theorem Mixed.hasItems : Mixed.union.HasItems 2 where
  single part member := by
    rcases List.mem_cons.1 member with rfl | member
    · exact readsItems_word.map number
    · obtain rfl := List.mem_singleton.1 member
      exact readsItems_text.map text
  fields fields same := by
    obtain rfl := Option.some.inj same
    exact readsItems_word.bind fun word => readsItems_blob.bind fun blob => readsItems_pure _

theorem Mixed.lands_sample :
    Mixed.union.HasItems 2 ∧ (⟨[0x82, 0x01, 0x40, 0xff], 7⟩ : Cursor).rest.length < bound63 ∧
      Mixed.union.decode.run ⟨[0x82, 0x01, 0x40, 0xff], 7⟩ =
        .ok (.pair 1 ⟨[]⟩, ⟨[0xff], 10⟩) ∧
      skip.run ⟨[0x82, 0x01, 0x40, 0xff], 7⟩ = .ok ((), ⟨[0xff], 10⟩) := by
  have small : (⟨[0x82, 0x01, 0x40, 0xff], 7⟩ : Cursor).rest.length < bound63 := by decide
  have read : Mixed.union.decode.run ⟨[0x82, 0x01, 0x40, 0xff], 7⟩ =
      .ok (.pair 1 ⟨[]⟩, ⟨[0xff], 10⟩) := rfl
  refine ⟨hasItems, small, read, (KindUnion.decode_lands hasItems small read).1.2 ?_⟩
  rintro length ⟨-, -, first, opened⟩
  cases opened
  rfl

/-- An array whose head counts one element is read as a pair: the second field is the item behind
the array. -/
theorem Mixed.swallows_next :
    (decode : Decoder Mixed).run ⟨[0x81, 0x01, 0x40], 0⟩ = .ok (.pair 1 ⟨[]⟩, ⟨[], 3⟩) ∧
      skip.run ⟨[0x81, 0x01, 0x40], 0⟩ = .ok ((), ⟨[0x40], 2⟩) :=
  ⟨rfl, rfl⟩

end UtxoLedger.Cbor
