import UtxoLedger.Cbor.Decoder
import UtxoLedger.Width

/-!
# Skipping one item

A value that is carried without being interpreted is skipped item by item.
The walk counts the items still owed: a plain count, a count of containers
of indefinite length, and, once those two no longer suffice, a stack of the
enclosing containers.
-/

namespace UtxoLedger.Cbor

/-- The items still owed during a walk. -/
structure Pending where
  /-- Items left at the current level. -/
  items : Nat
  /-- Containers of indefinite length opened at the current level. -/
  opened : Nat
  /-- Enclosing containers, innermost first: the items left in each, `none` when indefinite. -/
  enclosing : List (Option Nat)
  deriving DecidableEq, Repr

namespace Pending

/-- One item is owed. -/
def single : Pending := ⟨1, 0, []⟩

/-- Nothing is owed. -/
def isDone (pending : Pending) : Bool :=
  pending.items = 0 && pending.opened = 0 && pending.enclosing.isEmpty

/-- No plain count is left, so the stack decides. -/
def isLevelDone (pending : Pending) : Bool := pending.items = 0 && pending.opened = 0

/-- The counts of a length saturate at the largest word. -/
def capped (count : Nat) : Nat := min count (bound64 - 1)

/-- A container of definite length was opened. -/
def openDefinite (length : Nat) (pending : Pending) : Pending :=
  if length = 0 then pending
  else if pending.isLevelDone then { pending with enclosing := some length :: pending.enclosing }
  else { pending with items := capped (pending.items + length) }

/-- A container of indefinite length was opened. -/
def openIndefinite (pending : Pending) : Pending :=
  if pending.isLevelDone then { pending with enclosing := none :: pending.enclosing }
  else if pending.items < 2 then { pending with opened := pending.opened + 1 }
  else
    ⟨0, 0, none :: some (pending.items - 1) ::
      (List.replicate pending.opened none ++ pending.enclosing)⟩

/-- A stop byte was read. -/
def close (pending : Pending) : Pending :=
  if pending.isLevelDone then
    match pending.enclosing with
    | none :: outer => { pending with enclosing := outer }
    | _ => pending
  else { pending with opened := pending.opened - 1 }

/-- One item was read; `none` when the walk is over. -/
def settle (pending : Pending) : Option Pending :=
  if pending.isLevelDone then
    match pending.enclosing.dropWhile (· = some 0) with
    | [] => none
    | some count :: outer => some { pending with enclosing := some (count - 1) :: outer }
    | none :: outer => some { pending with enclosing := none :: outer }
  else some { pending with items := pending.items - 1 }

end Pending

namespace Decoder

/-- Reads a string of definite length, or chunks of definite length up to a stop byte. -/
def chunked {α : Type} (major : Nat) (chunk : Decoder α) : Decoder Unit := do
  let first ← peek
  if first.toNat / 32 = major && first.toNat % 32 = 31 then
    let _ ← byte
    let _ ← untilStop chunk
  else
    let _ ← chunk

/-- Reads the bytes after the head of a simple value or float. -/
def simple : Decoder Unit := do
  let first ← byte
  let _ ← argument (first.toNat % 32)

/-- One step of a walk: the item or head at the cursor, and what is owed after it. A tag
leaves the account as it is; `none` ends the walk. -/
def skipStep (pending : Pending) : Decoder (Option Pending) := do
  let first ← peek
  if first ≤ 0x1b then
    let _ ← unsigned
    return pending.settle
  else if 0x20 ≤ first && first ≤ 0x3b then
    let _ ← signed
    return pending.settle
  else if 0x40 ≤ first && first ≤ 0x5f then
    chunked 2 bytes
    return pending.settle
  else if 0x60 ≤ first && first ≤ 0x7f then
    chunked 3 text
    return pending.settle
  else if 0x80 ≤ first && first ≤ 0x9f then
    match ← array with
    | some length => return (pending.openDefinite length).settle
    | none => return pending.openIndefinite.settle
  else if 0xa0 ≤ first && first ≤ 0xbf then
    match ← map with
    | some length => return (pending.openDefinite (Pending.capped (2 * length))).settle
    | none => return pending.openIndefinite.settle
  else if 0xc0 ≤ first && first ≤ 0xdb then
    let _ ← tag
    return some pending
  else if 0xe0 ≤ first && first ≤ 0xfb then
    simple
    return pending.settle
  else if first = 0xff then
    let _ ← byte
    return pending.close.settle
  else fail .unexpectedType

/-- Walks until nothing is owed; every step takes at least a byte. -/
def skipWithin : (fuel : Nat) → Pending → Decoder Unit
  | 0, _ => fail .endOfInput
  | fuel + 1, pending =>
      if pending.isDone then pure ()
      else do
        match ← skipStep pending with
        | some next => skipWithin fuel next
        | none => pure ()

/-- Skips one item. -/
def skip : Decoder Unit := do
  skipWithin ((← remaining) + 2) .single

/-- Reads one item as its raw bytes. -/
def rawItem : Decoder Bytes := fun cursor =>
  match skip cursor with
  | .ok (_, after) => .ok (cursor.rest.take (after.position - cursor.position), after)
  | .error error => .error error

end Decoder

end UtxoLedger.Cbor
