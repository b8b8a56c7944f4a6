import UtxoLedger.Cbor.Error

/-!
# Decoders

A decoder reads from a cursor: the bytes still to be read and the offset of
the first of them. It either fails with the first fault that it meets or
yields a value and the cursor behind what it read.
-/

namespace UtxoLedger.Cbor

/-- The bytes still to be read and the offset of the first of them. -/
structure Cursor where
  rest : Bytes
  position : Nat
  deriving DecidableEq, Repr

/-- A reader of one value. -/
def Decoder (α : Type) := Cursor → Except DecodeError (α × Cursor)

namespace Decoder

variable {α β : Type}

/-- Runs a decoder from a cursor. -/
def run (decoder : Decoder α) (cursor : Cursor) : Except DecodeError (α × Cursor) :=
  decoder cursor

instance : Monad Decoder where
  pure value := fun cursor => .ok (value, cursor)
  bind decoder next := fun cursor =>
    match decoder cursor with
    | .ok (value, after) => next value after
    | .error error => .error error

@[simp] theorem run_pure (value : α) (cursor : Cursor) :
    (pure value : Decoder α).run cursor = .ok (value, cursor) := rfl

theorem run_bind (decoder : Decoder α) (next : α → Decoder β) (cursor : Cursor) :
    (decoder >>= next).run cursor =
      match decoder.run cursor with
      | .ok (value, after) => (next value).run after
      | .error error => .error error := rfl

theorem run_bind_ok {decoder : Decoder α} {next : α → Decoder β} {cursor after : Cursor}
    {value : α} (read : decoder.run cursor = .ok (value, after)) :
    (decoder >>= next).run cursor = (next value).run after := by
  rw [run_bind, read]

/-- A sequence yields what its second step yields on what the first one yields. -/
theorem run_bind_eq_ok {decoder : Decoder α} {next : α → Decoder β} {cursor final : Cursor}
    {result : β} :
    (decoder >>= next).run cursor = .ok (result, final) ↔
      ∃ value after, decoder.run cursor = .ok (value, after) ∧
        (next value).run after = .ok (result, final) := by
  rw [run_bind]
  cases decoder.run cursor with
  | error error => simp
  | ok found =>
      obtain ⟨value, after⟩ := found
      constructor
      · exact fun run => ⟨value, after, rfl, run⟩
      · rintro ⟨_, _, same, run⟩
        cases same
        exact run

/-! ## Failing -/

/-- Fails without naming a position. -/
def fail (cause : Cause) : Decoder α := fun _ => .error ⟨cause, none⟩

/-- Fails at the given position. -/
def failAt (position : Nat) (cause : Cause) : Decoder α := fun _ => .error ⟨cause, some position⟩

/-- Keeps a successful result and turns a failure into a rejection at the given position. -/
def orReject {ε : Type} (position : Nat) (wording : ε → String) :
    Except ε α → Decoder α
  | .ok value => pure value
  | .error error => failAt position (.rejected (wording error))

/-! ## Bytes -/

/-- The offset of the next byte. -/
def position : Decoder Nat := fun cursor => .ok (cursor.position, cursor)

/-- The next byte, which stays unread. -/
def peek : Decoder UInt8 := fun cursor =>
  match cursor.rest with
  | [] => .error ⟨.endOfInput, none⟩
  | byte :: _ => .ok (byte, cursor)

/-- Reads one byte. -/
def byte : Decoder UInt8 := fun cursor =>
  match cursor.rest with
  | [] => .error ⟨.endOfInput, none⟩
  | byte :: rest => .ok (byte, ⟨rest, cursor.position + 1⟩)

/-- Reads an exact number of bytes. -/
def take (count : Nat) : Decoder Bytes := fun cursor =>
  match Bytes.splitAt? count cursor.rest with
  | some (taken, left) => .ok (taken, ⟨left, cursor.position + count⟩)
  | none => .error ⟨.endOfInput, none⟩

/-- The number of bytes left. -/
def remaining : Decoder Nat := fun cursor => .ok (cursor.rest.length, cursor)

/-! ## Heads -/

/-- The kind of the next item, which stays unread. -/
def kind : Decoder Kind := fun cursor =>
  match cursor.rest with
  | [] => .error ⟨.endOfInput, none⟩
  | first :: rest =>
      match Kind.ofBytes? first rest.head? with
      | some kind => .ok (kind, cursor)
      | none => .error ⟨.endOfInput, none⟩

/-- Refuses an item whose first byte has been read. Naming the kind of a long negative
number takes one byte past the next one. -/
def wrongType (first : UInt8) : Decoder α := fun cursor =>
  match Kind.ofFirst? first, cursor.rest with
  | none, [] => .error ⟨.endOfInput, none⟩
  | none, [_] => .error ⟨.endOfInput, none⟩
  | _, _ => .error ⟨.unexpectedType, none⟩

/-- The number that a head announces through the low five bits of its first byte. -/
def argument (info : Nat) : Decoder Nat :=
  if info < 24 then pure info
  else if info = 24 then Bytes.toNat <$> take 1
  else if info = 25 then Bytes.toNat <$> take 2
  else if info = 26 then Bytes.toNat <$> take 4
  else if info = 27 then Bytes.toNat <$> take 8
  else fail .unexpectedType

/-- Reads the head of an item of one major type. -/
def head (major : Nat) : Decoder Nat := do
  let first ← byte
  if first.toNat / 32 = major then argument (first.toNat % 32) else wrongType first

/-- Reads the head of an item that may have an indefinite length, which is `none`. -/
def openHead (major : Nat) : Decoder (Option Nat) := do
  let first ← byte
  if first.toNat / 32 = major then
    if first.toNat % 32 = 31 then pure none else some <$> argument (first.toNat % 32)
  else wrongType first

/-! ## Scalars -/

/-- An unsigned number. -/
def unsigned : Decoder Nat := head 0

/-- An unsigned number that fits the given number of values. -/
def unsignedBelow (limit : Nat) : Decoder Nat := do
  let number ← unsigned
  if number < limit then pure number else fail .overflow

/-- The whole range of integers: a sign (`true` for negative) and the number after it,
which stands for minus one minus the number when negative. -/
def signed : Decoder (Bool × Nat) := do
  let first ← byte
  if first.toNat / 32 = 0 && first.toNat % 32 < 28 then
    return (false, ← argument (first.toNat % 32))
  else if first.toNat / 32 = 1 && first.toNat % 32 < 28 then
    return (true, ← argument (first.toNat % 32))
  else wrongType first

def bool : Decoder Bool := do
  let first ← byte
  if first = 0xf4 then pure false
  else if first = 0xf5 then pure true
  else wrongType first

/-- A byte string of definite length. -/
def bytes : Decoder Bytes := do
  let first ← byte
  if first.toNat / 32 = 2 && first.toNat % 32 ≠ 31 then
    take (← argument (first.toNat % 32))
  else wrongType first

/-- A text of definite length. -/
def text : Decoder String := do
  let first ← byte
  if first.toNat / 32 = 3 && first.toNat % 32 ≠ 31 then
    let content ← take (← argument (first.toNat % 32))
    match Text.ofBytes? content with
    | some text => pure text
    | none => fail .invalidUtf8
  else wrongType first

/-- The number of a tag. -/
def tag : Decoder UInt64 := UInt64.ofNat <$> head 6

/-- The length of an array, `none` when it is indefinite. -/
def array : Decoder (Option Nat) := openHead 4

/-- The number of entries of a map, `none` when it is indefinite. -/
def map : Decoder (Option Nat) := openHead 5

/-- Reads the given tag; another one is refused at the position of the tag. -/
def expectTag (expected : UInt64) (description : String) : Decoder Unit := do
  let start ← position
  let found ← tag
  if found = expected then pure () else failAt start (.wrongTag description found)

/-! ## Repetition -/

/-- Reads a fixed number of items. -/
def times (item : Decoder α) : (count : Nat) → Decoder (List α)
  | 0 => pure []
  | count + 1 => do
      let first ← item
      let rest ← times item count
      return first :: rest

/-- Reads items up to a stop byte, at most `fuel` of them. -/
def untilStopWithin (item : Decoder α) : (fuel : Nat) → Decoder (List α)
  | 0 => fail .endOfInput
  | fuel + 1 => do
      if (← peek) = 0xff then
        let _ ← byte
        return []
      else
        let first ← item
        let rest ← untilStopWithin item fuel
        return first :: rest

/-- Reads items up to a stop byte. Every item takes at least a byte, so there are no more
items than bytes left. -/
def untilStop (item : Decoder α) : Decoder (List α) := do
  untilStopWithin item (← remaining)

/-- Reads the items of an array of either form. -/
def listOf (item : Decoder α) : Decoder (List α) := do
  match ← array with
  | some count => times item count
  | none => untilStop item

/-- Reads the entries of a map of either form. -/
def entriesOf (key : Decoder α) (value : Decoder β) : Decoder (List (α × β)) := do
  let entry : Decoder (α × β) := do
    let key ← key
    let value ← value
    return (key, value)
  match ← map with
  | some count => times entry count
  | none => untilStop entry

end Decoder

end UtxoLedger.Cbor
