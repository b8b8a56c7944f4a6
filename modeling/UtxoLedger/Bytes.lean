/-!
# Byte strings

Wire data is a list of bytes. This module reads and writes fixed-width
numbers in both byte orders, and cuts an exact number of bytes from the
front of a string.
-/

namespace UtxoLedger

/-- Wire data, first byte first. -/
abbrev Bytes := List UInt8

namespace Bytes

/-! ## Numbers in base 256 -/

/-- The number whose base 256 digits are the bytes, most significant first. -/
def toNat (bytes : Bytes) : Nat :=
  bytes.foldl (fun total byte => 256 * total + byte.toNat) 0

/-- The lowest `width` base 256 digits of a number, most significant first. -/
def ofNat : (width : Nat) → Nat → Bytes
  | 0, _ => []
  | width + 1, number => ofNat width (number / 256) ++ [UInt8.ofNat number]

/-- The number whose base 256 digits are the bytes, least significant first. -/
def toNatReversed (bytes : Bytes) : Nat :=
  bytes.foldr (fun byte total => byte.toNat + 256 * total) 0

/-- The lowest `width` base 256 digits of a number, least significant first. -/
def ofNatReversed : (width : Nat) → Nat → Bytes
  | 0, _ => []
  | width + 1, number => UInt8.ofNat number :: ofNatReversed width (number / 256)

theorem length_ofNat (width number : Nat) : (ofNat width number).length = width := by
  induction width generalizing number with
  | zero => rfl
  | succ width ih => simp [ofNat, ih]

theorem length_ofNatReversed (width number : Nat) :
    (ofNatReversed width number).length = width := by
  induction width generalizing number with
  | zero => rfl
  | succ width ih => simp [ofNatReversed, ih]

theorem toNat_append_singleton (bytes : Bytes) (byte : UInt8) :
    toNat (bytes ++ [byte]) = 256 * toNat bytes + byte.toNat := by
  simp [toNat, List.foldl_append]

/-- Writing a number and reading it back keeps its lowest digits. -/
theorem toNat_ofNat (width number : Nat) :
    toNat (ofNat width number) = number % Nat.pow 256 width := by
  induction width generalizing number with
  | zero => simp [ofNat, toNat, Nat.mod_one]
  | succ width ih =>
      have lowest : (UInt8.ofNat number).toNat = number % 256 := by simp
      rw [ofNat, toNat_append_singleton, ih, lowest, show Nat.pow 256 (width + 1) =
        256 * Nat.pow 256 width from Nat.mul_comm _ _, Nat.mod_mul]
      omega

/-! ## Cutting -/

/-- The first `count` bytes and the rest, when there are that many. -/
def splitAt? : (count : Nat) → Bytes → Option (Bytes × Bytes)
  | 0, bytes => some ([], bytes)
  | _ + 1, [] => none
  | count + 1, first :: rest =>
      match splitAt? count rest with
      | some (taken, left) => some (first :: taken, left)
      | none => none

theorem splitAt?_append (taken left : Bytes) :
    splitAt? taken.length (taken ++ left) = some (taken, left) := by
  induction taken with
  | nil => rfl
  | cons first rest ih => simp [splitAt?, ih]

theorem append_of_splitAt? {count : Nat} {bytes taken left : Bytes}
    (cut : splitAt? count bytes = some (taken, left)) :
    bytes = taken ++ left ∧ taken.length = count := by
  induction count generalizing bytes taken with
  | zero =>
      simp only [splitAt?, Option.some.injEq, Prod.mk.injEq] at cut
      obtain ⟨rfl, rfl⟩ := cut
      simp
  | succ count ih =>
      cases bytes with
      | nil => simp [splitAt?] at cut
      | cons first rest =>
          cases inner : splitAt? count rest with
          | none => simp [splitAt?, inner] at cut
          | some parts =>
              simp only [splitAt?, inner, Option.some.injEq, Prod.mk.injEq] at cut
              obtain ⟨rfl, rfl⟩ := cut
              obtain ⟨joined, size⟩ := ih inner
              simp [joined, size]

/-! ## Bitwise combination -/

/-- Byte by byte conjunction, as long as the shorter of the two. -/
def and (first second : Bytes) : Bytes :=
  List.zipWith (fun left right => left &&& right) first second

end Bytes

end UtxoLedger
