import Mathlib.Algebra.Order.Ring.Nat
import UtxoLedger.Proofs.Cbor.Projections
import UtxoLedger.Proofs.Cbor.Skip

/-!
# Heads in all their forms

A number below 24 may stand in the first byte of a head; any number may stand
in one, two, four or eight bytes behind it. Writing takes the shortest form
and reading takes every one. So a head, a string or a tag is read exactly where
bytes of its form stand, and the cursor moves behind them.
-/

namespace UtxoLedger.Cbor

variable {α : Type} {cursor after : Cursor} {major number : Nat} {bytes more : Bytes}

/-! ## Going over bytes -/

/-- The bytes stand at the first cursor and the second one is right behind them. -/
inductive Cursor.Passes : Cursor → Bytes → Cursor → Prop where
  | mk (bytes tail : Bytes) (position : Nat) :
      Passes ⟨bytes ++ tail, position⟩ bytes ⟨tail, position + bytes.length⟩

namespace Cursor

theorem passes_nil : cursor.Passes [] after ↔ cursor = after := by
  constructor
  · rintro ⟨⟩
    rfl
  · rintro rfl
    exact .mk [] cursor.rest cursor.position

theorem Passes.rest_eq (passes : cursor.Passes bytes after) :
    cursor.rest = bytes ++ after.rest := by
  obtain ⟨_, tail, position⟩ := passes
  rfl

theorem Passes.position_eq (passes : cursor.Passes bytes after) :
    after.position = cursor.position + bytes.length := by
  obtain ⟨_, tail, position⟩ := passes
  rfl

/-- Two runs of bytes one after the other are one run. -/
theorem passes_append :
    cursor.Passes (bytes ++ more) after ↔
      ∃ middle, cursor.Passes bytes middle ∧ middle.Passes more after := by
  constructor
  · rintro ⟨_, tail, position⟩
    rw [List.append_assoc, List.length_append, ← Nat.add_assoc]
    exact ⟨_, .mk bytes (more ++ tail) position, .mk more tail _⟩
  · rintro ⟨_, ⟨_, _, position⟩, ⟨_, tail, _⟩⟩
    rw [← List.append_assoc, Nat.add_assoc, ← List.length_append]
    exact .mk (bytes ++ more) tail position

theorem passes_cons {byte : UInt8} :
    cursor.Passes (byte :: more) after ↔
      ∃ middle, cursor.Passes [byte] middle ∧ middle.Passes more after :=
  @passes_append cursor after [byte] more

/-- Two cursors tell the bytes between them. -/
theorem Passes.bytes_eq (passes : cursor.Passes bytes after) (others : cursor.Passes more after) :
    bytes = more := by
  obtain ⟨_, tail, position⟩ := passes
  generalize same : Cursor.mk (bytes ++ tail) position = start at others
  generalize ended : Cursor.mk tail (position + bytes.length) = stop at others
  obtain ⟨_, rest, _⟩ := others
  obtain rfl : tail = rest := (Cursor.mk.inj ended).1
  exact List.append_cancel_right (Cursor.mk.inj same).1

theorem Passes.after_eq {other : Cursor} (passes : cursor.Passes bytes after)
    (again : cursor.Passes bytes other) : after = other := by
  obtain ⟨_, tail, position⟩ := passes
  generalize same : Cursor.mk (bytes ++ tail) position = start at again
  obtain ⟨_, rest, place⟩ := again
  obtain ⟨joined, rfl⟩ := Cursor.mk.inj same
  rw [List.append_cancel_left joined]

end Cursor

/-- The bytes that a decoder uses are those that it goes over. -/
theorem Uses.exists_passes {least : Nat} {decoder : Decoder α} (uses : Uses least decoder)
    {value : α} (read : decoder.run cursor = .ok (value, after)) :
    ∃ used, least ≤ used.length ∧ cursor.Passes used after ∧
      ∀ more position, decoder.run ⟨used ++ more, position⟩ =
        .ok (value, ⟨more, position + used.length⟩) := by
  obtain ⟨used, enough, split, moved, again⟩ := uses read
  refine ⟨used, enough, ?_, again⟩
  obtain ⟨rest, position⟩ := cursor
  obtain ⟨tail, place⟩ := after
  obtain rfl : rest = used ++ tail := split
  obtain rfl : place = position + used.length := moved
  exact .mk used tail position

namespace Decoder

theorem run_byte_eq_ok_iff {byte : UInt8} :
    Decoder.byte.run cursor = .ok (byte, after) ↔ cursor.Passes [byte] after := by
  constructor
  · intro read
    obtain ⟨rest, position⟩ := cursor
    cases rest with
    | nil => cases read
    | cons first rest =>
        cases read
        exact .mk [_] rest position
  · rintro ⟨⟩
    rfl

theorem run_take_eq_ok_iff {count : Nat} :
    (take count).run cursor = .ok (bytes, after) ↔
      bytes.length = count ∧ cursor.Passes bytes after := by
  constructor
  · intro taken
    obtain ⟨rest, position⟩ := cursor
    unfold take Decoder.run at taken
    dsimp only at taken
    split at taken
    next found left cut =>
      cases taken
      obtain ⟨rfl, rfl⟩ := Bytes.append_of_splitAt? cut
      exact ⟨rfl, .mk _ _ position⟩
    next => cases taken
  · rintro ⟨rfl, ⟨_, tail, position⟩⟩
    unfold take Decoder.run
    simp only [Bytes.splitAt?_append]

end Decoder

/-! ## Heads -/

/-- How a head may give its number: by the low bits of its first byte, or by the digits behind
it, whose count the low bits tell. -/
inductive IsArgument : (info : Nat) → (digits : Bytes) → (number : Nat) → Prop where
  | short {number : Nat} (small : number < 24) : IsArgument number [] number
  | long {digits : Bytes} (exponent : Nat) (low : exponent < 4)
      (size : digits.length = 2 ^ exponent) : IsArgument (24 + exponent) digits digits.toNat

/-- The bytes are a head of a major type with a number, in any of its forms. -/
inductive IsHead (major number : Nat) : Bytes → Prop where
  | mk {info : Nat} {digits : Bytes} (argument : IsArgument info digits number) :
      IsHead major number (UInt8.ofNat (32 * major + info) :: digits)

theorem IsArgument.info_lt {info : Nat} {digits : Bytes}
    (argument : IsArgument info digits number) : info < 28 := by
  cases argument with
  | short small => exact Nat.lt_trans small (by decide)
  | long exponent low => omega

theorem foldl_digits_lt (digits : Bytes) (total : Nat) :
    digits.foldl (fun total byte => 256 * total + byte.toNat) total <
      (total + 1) * 256 ^ digits.length := by
  induction digits generalizing total with
  | nil => simp
  | cons first rest ih =>
      have byte := first.toNat_lt
      calc
        rest.foldl _ (256 * total + first.toNat)
            < (256 * total + first.toNat + 1) * 256 ^ rest.length := ih _
        _ ≤ ((total + 1) * 256) * 256 ^ rest.length := Nat.mul_le_mul_right _ (by omega)
        _ = (total + 1) * 256 ^ (rest.length + 1) := by
          rw [Nat.pow_succ, Nat.mul_assoc, Nat.mul_comm 256]

/-- A head has no room for a number of more than eight digits. -/
theorem IsHead.number_lt (head : IsHead major number bytes) : number < bound64 := by
  obtain @⟨info, digits, argument⟩ := head
  cases argument with
  | short small => exact Nat.lt_trans small (by decide)
  | long exponent low size =>
      have few : digits.length ≤ 8 := by
        rw [size]
        exact Nat.pow_le_pow_right (by decide) (Nat.le_of_lt_succ low)
      calc
        digits.toNat < (0 + 1) * 256 ^ digits.length := foldl_digits_lt digits 0
        _ ≤ 1 * 256 ^ 8 := Nat.mul_le_mul_left 1 (Nat.pow_le_pow_right (by decide) few)
        _ = bound64 := by decide

namespace Decoder

theorem run_digits_eq_ok_iff {count : Nat} :
    (Bytes.toNat <$> take count).run cursor = .ok (number, after) ↔
      ∃ digits, digits.length = count ∧ digits.toNat = number ∧ cursor.Passes digits after := by
  rw [run_map_eq_ok]
  constructor
  · rintro ⟨digits, taken, same⟩
    obtain ⟨size, passes⟩ := run_take_eq_ok_iff.1 taken
    exact ⟨digits, size, same, passes⟩
  · rintro ⟨digits, size, same, passes⟩
    exact ⟨digits, run_take_eq_ok_iff.2 ⟨size, passes⟩, same⟩

theorem run_argument_eq_ok_iff {info : Nat} :
    (argument info).run cursor = .ok (number, after) ↔
      ∃ digits, IsArgument info digits number ∧ cursor.Passes digits after := by
  constructor
  · intro read
    have long (exponent : Nat) (low : exponent < 4)
        (read : (Bytes.toNat <$> take (2 ^ exponent)).run cursor = .ok (number, after)) :
        ∃ digits, IsArgument (24 + exponent) digits number ∧ cursor.Passes digits after := by
      obtain ⟨digits, size, rfl, passes⟩ := run_digits_eq_ok_iff.1 read
      exact ⟨digits, .long exponent low size, passes⟩
    unfold argument at read
    split at read
    next small =>
      cases read
      exact ⟨[], .short small, Cursor.passes_nil.2 rfl⟩
    next =>
      split at read
      next same => exact same ▸ long 0 (by decide) read
      next =>
        split at read
        next same => exact same ▸ long 1 (by decide) read
        next =>
          split at read
          next same => exact same ▸ long 2 (by decide) read
          next =>
            split at read
            next same => exact same ▸ long 3 (by decide) read
            next => cases read
  · rintro ⟨digits, announced, passes⟩
    cases announced with
    | short small =>
        rw [argument, if_pos small, Cursor.passes_nil.1 passes]
        rfl
    | long exponent low size =>
        have read := run_digits_eq_ok_iff.2 ⟨digits, size, rfl, passes⟩
        have widths : exponent = 0 ∨ exponent = 1 ∨ exponent = 2 ∨ exponent = 3 := by omega
        rcases widths with rfl | rfl | rfl | rfl <;> exact read

theorem run_wrongType_ne_ok {first : UInt8} {found : α × Cursor} :
    (wrongType first).run cursor ≠ .ok found := by
  obtain ⟨error, failed⟩ := @wrongType_fails α first cursor
  rw [failed]
  exact nofun

theorem ofNat_parts {first : UInt8} (same : first.toNat / 32 = major) :
    UInt8.ofNat (32 * major + first.toNat % 32) = first := by
  rw [← same, Nat.div_add_mod, UInt8.ofNat_toNat]

theorem toNat_parts {info : Nat} (known : major < 8) (low : info < 32) :
    (UInt8.ofNat (32 * major + info)).toNat = 32 * major + info := by
  rw [UInt8.toNat_ofNat']
  omega

/-- A reader of one major type goes on with the low bits of the first byte. -/
theorem run_major_eq_ok_iff (known : major < 8) (next : Nat → Decoder α) {value : α} :
    (do
      let first ← byte
      if first.toNat / 32 = major then next (first.toNat % 32) else wrongType first).run cursor =
        .ok (value, after) ↔
      ∃ info middle, info < 32 ∧ cursor.Passes [UInt8.ofNat (32 * major + info)] middle ∧
        (next info).run middle = .ok (value, after) := by
  rw [run_bind_eq_ok]
  simp only [run_byte_eq_ok_iff]
  constructor
  · rintro ⟨first, middle, passes, read⟩
    split at read
    next same =>
      refine ⟨first.toNat % 32, middle, Nat.mod_lt _ (by decide), ?_, read⟩
      rw [ofNat_parts same]
      exact passes
    next => exact absurd read run_wrongType_ne_ok
  · rintro ⟨info, middle, low, passes, read⟩
    refine ⟨_, middle, passes, ?_⟩
    rw [toNat_parts known low, if_pos (by omega), show (32 * major + info) % 32 = info by omega]
    exact read

theorem run_head_eq_ok_iff (known : major < 8) :
    (head major).run cursor = .ok (number, after) ↔
      ∃ bytes, IsHead major number bytes ∧ cursor.Passes bytes after := by
  refine (run_major_eq_ok_iff known argument).trans ?_
  constructor
  · rintro ⟨info, middle, -, start, read⟩
    obtain ⟨digits, announced, passes⟩ := run_argument_eq_ok_iff.1 read
    exact ⟨_, .mk announced, Cursor.passes_cons.2 ⟨middle, start, passes⟩⟩
  · rintro ⟨_, ⟨announced⟩, passes⟩
    obtain ⟨middle, start, passes⟩ := Cursor.passes_cons.1 passes
    have low := Nat.lt_trans announced.info_lt (show 28 < 32 by decide)
    exact ⟨_, middle, low, start, run_argument_eq_ok_iff.2 ⟨_, announced, passes⟩⟩

/-- What the low bits of the first byte tell of a length, none when all of them are set. -/
def openArgument (info : Nat) : Decoder (Option Nat) :=
  if info = 31 then pure none else some <$> argument info

theorem run_openHead_some_eq_ok_iff (known : major < 8) :
    (openHead major).run cursor = .ok (some number, after) ↔
      ∃ bytes, IsHead major number bytes ∧ cursor.Passes bytes after := by
  refine (run_major_eq_ok_iff known openArgument).trans ?_
  constructor
  · rintro ⟨info, middle, -, start, read⟩
    unfold openArgument at read
    split at read
    next => cases read
    next =>
      obtain ⟨found, read, same⟩ := run_map_eq_ok.1 read
      cases same
      obtain ⟨digits, announced, passes⟩ := run_argument_eq_ok_iff.1 read
      exact ⟨_, .mk announced, Cursor.passes_cons.2 ⟨middle, start, passes⟩⟩
  · rintro ⟨_, ⟨announced⟩, passes⟩
    obtain ⟨middle, start, passes⟩ := Cursor.passes_cons.1 passes
    have low := announced.info_lt
    refine ⟨_, middle, Nat.lt_trans low (by decide), start, ?_⟩
    rw [openArgument, if_neg (by omega)]
    exact run_map_eq_ok.2 ⟨number, run_argument_eq_ok_iff.2 ⟨_, announced, passes⟩, rfl⟩

/-- A head of indefinite length is one byte, whose low bits are all set. -/
theorem run_openHead_none_eq_ok_iff (known : major < 8) :
    (openHead major).run cursor = .ok (none, after) ↔
      cursor.Passes [UInt8.ofNat (32 * major + 31)] after := by
  refine (run_major_eq_ok_iff known openArgument).trans ?_
  constructor
  · rintro ⟨info, middle, -, start, read⟩
    unfold openArgument at read
    split at read
    next full =>
      cases read
      exact full ▸ start
    next =>
      obtain ⟨found, -, same⟩ := run_map_eq_ok.1 read
      cases same
  · intro passes
    exact ⟨31, after, by decide, passes, rfl⟩

/-! ## Strings and tags -/

/-- A reader of strings goes on with the size that the head of a definite length gives. -/
theorem run_sized_eq_ok_iff (known : major < 8) (next : Nat → Decoder α) {value : α} :
    (do
      let first ← byte
      if first.toNat / 32 = major && first.toNat % 32 ≠ 31 then
        argument (first.toNat % 32) >>= next
      else wrongType first).run cursor = .ok (value, after) ↔
      ∃ size head middle, IsHead major size head ∧ cursor.Passes head middle ∧
        (next size).run middle = .ok (value, after) := by
  constructor
  · intro read
    obtain ⟨first, middle, opened, read⟩ := run_bind_eq_ok.1 read
    split at read
    next form =>
      have same : first.toNat / 32 = major := by simp_all
      obtain ⟨size, behind, counted, read⟩ := run_bind_eq_ok.1 read
      obtain ⟨digits, announced, passes⟩ := run_argument_eq_ok_iff.1 counted
      have start := run_byte_eq_ok_iff.1 opened
      rw [← ofNat_parts same] at start
      exact ⟨size, _, behind, .mk announced, Cursor.passes_cons.2 ⟨middle, start, passes⟩, read⟩
    next => exact absurd read run_wrongType_ne_ok
  · rintro ⟨size, _, behind, @⟨info, _, announced⟩, passes, read⟩
    obtain ⟨middle, start, passes⟩ := Cursor.passes_cons.1 passes
    have low := announced.info_lt
    refine run_bind_eq_ok.2 ⟨_, middle, run_byte_eq_ok_iff.2 start, ?_⟩
    rw [toNat_parts known (by omega), if_pos (by simp; omega),
      show (32 * major + info) % 32 = info by omega]
    exact run_bind_eq_ok.2 ⟨size, behind, run_argument_eq_ok_iff.2 ⟨_, announced, passes⟩, read⟩

theorem run_bytes_eq_ok_iff {content : Bytes} :
    Decoder.bytes.run cursor = .ok (content, after) ↔
      ∃ head, IsHead 2 content.length head ∧ cursor.Passes (head ++ content) after := by
  refine (run_sized_eq_ok_iff (by decide) take).trans ?_
  constructor
  · rintro ⟨_, head, middle, form, passes, taken⟩
    obtain ⟨rfl, inside⟩ := run_take_eq_ok_iff.1 taken
    exact ⟨head, form, Cursor.passes_append.2 ⟨middle, passes, inside⟩⟩
  · rintro ⟨head, form, passes⟩
    obtain ⟨middle, passes, inside⟩ := Cursor.passes_append.1 passes
    exact ⟨_, head, middle, form, passes, run_take_eq_ok_iff.2 ⟨rfl, inside⟩⟩

/-- The text that is the whole of some bytes. -/
def textOf (content : Bytes) : Decoder String :=
  match Text.ofBytes? content with
  | some text => pure text
  | none => fail .invalidUtf8

theorem run_textOf_eq_ok_iff {content : Bytes} {text : String} :
    (textOf content).run cursor = .ok (text, after) ↔
      Text.ofBytes? content = some text ∧ cursor = after := by
  unfold textOf
  cases Text.ofBytes? content with
  | none => exact ⟨nofun, fun ⟨same, _⟩ => nomatch same⟩
  | some found => simp

theorem run_text_eq_ok_iff {text : String} :
    Decoder.text.run cursor = .ok (text, after) ↔
      ∃ head content, Text.ofBytes? content = some text ∧ IsHead 3 content.length head ∧
        cursor.Passes (head ++ content) after := by
  refine (run_sized_eq_ok_iff (by decide) fun size => take size >>= textOf).trans ?_
  constructor
  · rintro ⟨_, head, middle, form, passes, read⟩
    obtain ⟨content, behind, taken, judged⟩ := run_bind_eq_ok.1 read
    obtain ⟨rfl, inside⟩ := run_take_eq_ok_iff.1 taken
    obtain ⟨valid, rfl⟩ := run_textOf_eq_ok_iff.1 judged
    exact ⟨head, content, valid, form, Cursor.passes_append.2 ⟨middle, passes, inside⟩⟩
  · rintro ⟨head, content, valid, form, passes⟩
    obtain ⟨middle, passes, inside⟩ := Cursor.passes_append.1 passes
    refine ⟨_, head, middle, form, passes, ?_⟩
    exact run_bind_eq_ok.2 ⟨content, after, run_take_eq_ok_iff.2 ⟨rfl, inside⟩,
      run_textOf_eq_ok_iff.2 ⟨valid, rfl⟩⟩

/-- A word is read from any head that gives it. -/
theorem run_word_eq_ok_iff (known : major < 8) {word : UInt64} :
    (UInt64.ofNat <$> head major).run cursor = .ok (word, after) ↔
      ∃ bytes, IsHead major word.toNat bytes ∧ cursor.Passes bytes after := by
  rw [run_map_eq_ok]
  constructor
  · rintro ⟨number, read, rfl⟩
    obtain ⟨bytes, form, passes⟩ := (run_head_eq_ok_iff known).1 read
    refine ⟨bytes, ?_, passes⟩
    rw [UInt64.toNat_ofNat_of_lt' form.number_lt]
    exact form
  · intro form
    exact ⟨word.toNat, (run_head_eq_ok_iff known).2 form, UInt64.ofNat_toNat⟩

theorem run_expectTag_eq_ok_iff {expected : UInt64} {description : String} :
    (expectTag expected description).run cursor = .ok ((), after) ↔
      ∃ bytes, IsHead 6 expected.toNat bytes ∧ cursor.Passes bytes after := by
  constructor
  · intro read
    obtain ⟨start, here, unmoved, read⟩ := run_bind_eq_ok.1 read
    cases unmoved
    obtain ⟨found, behind, tagged, read⟩ := run_bind_eq_ok.1 read
    split at read
    next same =>
      cases read
      exact same ▸ (run_word_eq_ok_iff (by decide)).1 tagged
    next => cases read
  · intro form
    have tagged : tag.run cursor = .ok (expected, after) := (run_word_eq_ok_iff (by decide)).2 form
    refine run_bind_eq_ok.2 ⟨cursor.position, cursor, rfl, ?_⟩
    rw [run_bind_ok tagged, if_pos rfl]
    rfl

end Decoder

end UtxoLedger.Cbor
