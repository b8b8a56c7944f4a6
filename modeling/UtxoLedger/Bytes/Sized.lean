import UtxoLedger.Bytes
import UtxoLedger.OrderedMap

/-!
# Byte strings of a fixed size

Digests, keys and signatures have a size that their type fixes. They are
ordered like their bytes.
-/

namespace UtxoLedger

/-- A byte string of exactly `size` bytes. -/
structure SizedBytes (size : Nat) where
  bytes : Bytes
  length_bytes : bytes.length = size
  deriving DecidableEq

namespace SizedBytes

variable {size : Nat}

/-- The bytes, when there are as many as the size asks for. -/
def ofBytes? (size : Nat) (bytes : Bytes) : Option (SizedBytes size) :=
  if exact : bytes.length = size then some ⟨bytes, exact⟩ else none

theorem ofBytes?_bytes (sized : SizedBytes size) : ofBytes? size sized.bytes = some sized := by
  simp [ofBytes?, sized.length_bytes]

theorem bytes_of_ofBytes? {bytes : Bytes} {sized : SizedBytes size}
    (found : ofBytes? size bytes = some sized) : sized.bytes = bytes := by
  unfold ofBytes? at found
  split at found
  · simp only [Option.some.injEq] at found
    rw [← found]
  · simp at found

/-- As many copies of one byte as the size asks for. -/
def replicate (size : Nat) (byte : UInt8) : SizedBytes size :=
  ⟨List.replicate size byte, List.length_replicate⟩

instance : Inhabited (SizedBytes size) := ⟨replicate size 0⟩

end SizedBytes

namespace Bytes

/-- The place of a byte string in byte order. -/
def rank (bytes : Bytes) : List Nat := bytes.map UInt8.toNat

theorem rank_injective {first second : Bytes} (same : rank first = rank second) :
    first = second :=
  (List.map_inj_right fun _ _ equal => UInt8.toNat_inj.1 equal).1 same

end Bytes

instance {size : Nat} : Ranked (SizedBytes size) where
  rank sized := Bytes.rank sized.bytes

instance {size : Nat} : LawfulRanked (SizedBytes size) where
  rank_injective {first second} same := by
    cases first
    cases second
    simp only [SizedBytes.mk.injEq]
    exact Bytes.rank_injective same

end UtxoLedger
